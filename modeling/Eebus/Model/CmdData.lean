import Eebus.Model.LoadControl
import Eebus.Model.Setpoint
import Eebus.Model.SystemFunction

/-! The data choice of a command, its selectors and elements choices, and the command frame.
Everything is over a `Schema`: what the schema tables say about every function. -/

namespace Eebus.Model

/-- The payload type of an alternative of the data choice. -/
def Key.Data {Other : Type} (OtherData : Other → Type) : Key Other → Type
  | .resultData => ResultData
  | .nodeManagementDetailedDiscoveryData => NodeManagementDetailedDiscoveryData Other
  | .nodeManagementUseCaseData => NodeManagementUseCaseData
  | .nodeManagementBindingData => NodeManagementRelationData
  | .nodeManagementSubscriptionData => NodeManagementRelationData
  | .nodeManagementBindingRequestCall => RelationRequestCall
  | .nodeManagementBindingDeleteCall => RelationDeleteCall
  | .nodeManagementSubscriptionRequestCall => RelationRequestCall
  | .nodeManagementSubscriptionDeleteCall => RelationDeleteCall
  | .loadControlLimitDescriptionListData => LoadControlLimitDescriptionListData
  | .loadControlLimitListData => LoadControlLimitListData
  | .deviceConfigurationKeyValueDescriptionListData =>
    DeviceConfigurationKeyValueDescriptionListData
  | .deviceConfigurationKeyValueListData => DeviceConfigurationKeyValueListData
  | .electricalConnectionCharacteristicListData => ElectricalConnectionCharacteristicListData
  | .deviceDiagnosisHeartbeatData => DeviceDiagnosisHeartbeatData
  | .setpointListData => SetpointListData
  | .hvacSystemFunctionListData => HvacSystemFunctionListData
  | .other o => OtherData o

structure Schema where
  Other : Type
  decEqOther : DecidableEq Other
  OtherData : Other → Type
  type : (key : Key Other) → FunctionType (key.Data OtherData)
  loadControl : type .loadControlLimitListData = loadControlLimitListType
  setpoint : type .setpointListData = setpointListType
  systemFunction : type .hvacSystemFunctionListData = hvacSystemFunctionListType
  /-- Detailed discovery holds three parallel lists, and the engine applies its selectors by
  hand. -/
  discoverySelectors : (type .nodeManagementDetailedDiscoveryData).Selectors →
    NodeManagementDetailedDiscoveryDataSelectors

instance (S : Schema) : DecidableEq S.Other := S.decEqOther

structure CmdData (S : Schema) where
  key : Key S.Other
  value : key.Data S.OtherData

structure FilterSelectors (S : Schema) where
  key : Key S.Other
  value : (S.type key).Selectors

structure FilterElements (S : Schema) where
  key : Key S.Other
  value : (S.type key).Elements

structure FunctionMismatch (S : Schema) where
  stored : Key S.Other
  received : Key S.Other

variable {S : Schema}

namespace CmdData

def sameValue (a b : CmdData S) : Prop := ∃ h : a.key = b.key, h ▸ a.value = b.value

theorem sameValue_iff (a b : CmdData S) : sameValue a b ↔ a = b := by
  constructor
  · rintro ⟨hkey, hvalue⟩
    cases a
    cases b
    cases hkey
    cases hvalue
    rfl
  · intro h
    subst h
    exact ⟨rfl, rfl⟩

instance decidableSameValue (a b : CmdData S) : Decidable (sameValue a b) :=
  if h : a.key = b.key then
    match (S.type b.key).decEq (h ▸ a.value) b.value with
    | isTrue heq => isTrue ⟨h, heq⟩
    | isFalse hne => isFalse fun hsame => hne hsame.2
  else isFalse fun hsame => h hsame.1

instance : DecidableEq (CmdData S) := fun a b => decidable_of_iff _ (sameValue_iff a b)

def function (data : CmdData S) : Function S.Other := .known data.key

def empty : Function S.Other → Option (CmdData S)
  | .known key => some ⟨key, (S.type key).default⟩
  | .extension _ => none

def entriesIdentified (data : CmdData S) : Bool := (S.type data.key).entriesIdentified data.value

def entryCount (data : CmdData S) : Nat := (S.type data.key).entryCount data.value

def apply (stored update : CmdData S) (isPartial : Bool) :
    Except (FunctionMismatch S) (CmdData S) :=
  if h : update.key = stored.key then
    .ok ⟨stored.key, (S.type stored.key).apply stored.value (h ▸ update.value) isPartial⟩
  else .error ⟨stored.key, update.key⟩

def pickSelectors (key : Key S.Other) :
    Option (FilterSelectors S) → Except RestrictError (Option (S.type key).Selectors)
  | none => .ok none
  | some filter => if h : filter.key = key then .ok (some (h ▸ filter.value)) else .error .mismatch

def pickElements (key : Key S.Other) :
    Option (FilterElements S) → Except RestrictError (Option (S.type key).Elements)
  | none => .ok none
  | some filter => if h : filter.key = key then .ok (some (h ▸ filter.value)) else .error .mismatch

def deleteRow (key : Key S.Other) (stored update : key.Data S.OtherData)
    (selectors : Option (FilterSelectors S)) (elements : Option (FilterElements S)) :
    Except RestrictError (key.Data S.OtherData) :=
  let F := S.type key
  let named := F.addressesNamed ((F.entries update).getD [])
  match F.row with
  | .absent => .error .unsupported
  | .listBoth => do
    let s ← pickSelectors key selectors
    let e ← pickElements key elements
    if s.any F.usesUnsupported then .error .unsupported
    else
      match s, e with
      | some s, some e => .ok (F.clearAddressed stored (F.selects s) e)
      | some s, none => .ok (F.deleteAddressed stored (F.selects s))
      | none, some e => .ok (F.clearAddressed stored named e)
      | none, none => .ok stored
  | .listSelectors =>
    if elements.isSome then .error .unsupported
    else do
      let s ← pickSelectors key selectors
      if s.any F.usesUnsupported then .error .unsupported
      else
        match s with
        | some s => .ok (F.deleteAddressed stored (F.selects s))
        | none => .ok stored
  | .listElements =>
    if selectors.isSome then .error .unsupported
    else do
      match ← pickElements key elements with
      | some e => .ok (F.clearAddressed stored named e)
      | none => .ok (F.deleteAddressed stored named)
  | .plain =>
    if selectors.isSome then .error .unsupported
    else do
      match ← pickElements key elements with
      | some e => .ok (F.clearFrom e stored)
      | none => .ok stored

def deleteRestricted (stored update : CmdData S) (selectors : Option (FilterSelectors S))
    (elements : Option (FilterElements S)) : Except RestrictError (CmdData S) :=
  if h : update.key = stored.key then
    if selectors.isNone && elements.isNone then
      .ok ⟨stored.key, (S.type stored.key).delete stored.value (h ▸ update.value)⟩
    else do
      let value ← deleteRow stored.key stored.value (h ▸ update.value) selectors elements
      .ok ⟨stored.key, value⟩
  else .error .mismatch

def restrictRow (key : Key S.Other) (value : key.Data S.OtherData)
    (selectors : Option (FilterSelectors S)) (elements : Option (FilterElements S)) :
    Except RestrictError (key.Data S.OtherData) :=
  let F := S.type key
  match F.row with
  | .absent => .error .unsupported
  | .listBoth => do
    F.restrictList value (← pickSelectors key selectors) (← pickElements key elements)
  | .listSelectors =>
    if elements.isSome then .error .unsupported
    else do
      match ← pickSelectors key selectors with
      | some s => F.restrictListBySelectors value s
      | none => .ok value
  | .listElements =>
    if selectors.isSome then .error .unsupported
    else do
      match ← pickElements key elements with
      | some e => .ok (F.restrictListByElements value e)
      | none => .ok value
  | .plain =>
    if selectors.isSome then .error .unsupported
    else do
      match ← pickElements key elements with
      | some e => .ok (F.retainIn e value)
      | none => .ok value

def restrict (data : CmdData S) (selectors : Option (FilterSelectors S))
    (elements : Option (FilterElements S)) : Except RestrictError (CmdData S) :=
  if selectors.isNone && elements.isNone then .ok data
  else do
    let value ← restrictRow data.key data.value selectors elements
    .ok ⟨data.key, value⟩

def supportsRestriction : Function S.Other → Bool
  | .known key => (S.type key).row ≠ .absent
  | .extension _ => false

end CmdData

/-- A function that is exchanged whole: its only filter is the elements filter that names
nothing. -/
def FunctionType.whole (Data : Type) [DecidableEq Data] (default : Data) : FunctionType Data where
  Item := Empty
  Identity := Empty
  Selectors := Empty
  Elements := Unit
  decEq := inferInstance
  decEqIdentity := inferInstance
  default := default
  isMergeableList := false
  row := .plain
  merge _ update := update
  entries _ := none
  setEntries d _ := d
  identity := Empty.elim
  mergeItem item _ := item
  restoreIdentity item _ := item
  selects _ _ := true
  usesUnsupported _ := false
  clearItem _ item := item
  retainItem _ item := item
  clearFrom _ d := d
  retainIn _ _ := default
  itemSize _ := 0
  size d := if d = default then 0 else 1
  merge_default _ := rfl
  entries_default := rfl
  entries_setEntries h := nomatch h
  setEntries_entries _ := rfl
  entries_injective h := nomatch h
  default_least d := by
    by_cases h : d = default
    · exact .inl h
    · exact .inr (by simp [h])
  clearFrom_shrinks _ _ := .inl rfl
  clearItem_shrinks _ x := x.elim
  setEntries_shrinks _ _ _ h := nomatch h

/-- The schema in which the limits, the setpoints and the system functions are lists, the functions
`Other` are as given, and every other function is exchanged whole. -/
def Schema.ofOther (Other : Type) [DecidableEq Other] (OtherData : Other → Type)
    (type : ∀ o, FunctionType (OtherData o)) : Schema where
  Other := Other
  decEqOther := inferInstance
  OtherData := OtherData
  type
    | .resultData => .whole ResultData ⟨none⟩
    | .nodeManagementDetailedDiscoveryData =>
      .whole (NodeManagementDetailedDiscoveryData Other) ⟨none, none, none, none⟩
    | .nodeManagementUseCaseData => .whole NodeManagementUseCaseData ⟨none⟩
    | .nodeManagementBindingData => .whole NodeManagementRelationData ⟨none⟩
    | .nodeManagementSubscriptionData => .whole NodeManagementRelationData ⟨none⟩
    | .nodeManagementBindingRequestCall => .whole RelationRequestCall ⟨none⟩
    | .nodeManagementBindingDeleteCall => .whole RelationDeleteCall ⟨none⟩
    | .nodeManagementSubscriptionRequestCall => .whole RelationRequestCall ⟨none⟩
    | .nodeManagementSubscriptionDeleteCall => .whole RelationDeleteCall ⟨none⟩
    | .loadControlLimitDescriptionListData => .whole LoadControlLimitDescriptionListData ⟨none⟩
    | .loadControlLimitListData => loadControlLimitListType
    | .deviceConfigurationKeyValueDescriptionListData =>
      .whole DeviceConfigurationKeyValueDescriptionListData ⟨none⟩
    | .deviceConfigurationKeyValueListData => .whole DeviceConfigurationKeyValueListData ⟨none⟩
    | .electricalConnectionCharacteristicListData =>
      .whole ElectricalConnectionCharacteristicListData ⟨none⟩
    | .deviceDiagnosisHeartbeatData => .whole DeviceDiagnosisHeartbeatData ⟨none, none, none⟩
    | .setpointListData => setpointListType
    | .hvacSystemFunctionListData => hvacSystemFunctionListType
    | .other o => type o
  loadControl := rfl
  setpoint := rfl
  systemFunction := rfl
  discoverySelectors := Empty.elim

def Schema.limitsOnly : Schema := .ofOther Empty Empty.elim fun o => o.elim

structure CmdControl where
  delete : Bool
  isPartial : Bool
deriving DecidableEq

structure Filter (S : Schema) where
  cmdControl : Option CmdControl
  selectors : Option (List (FilterSelectors S))
  elements : Option (FilterElements S)

namespace Filter

def isPartial (filter : Filter S) : Bool := filter.cmdControl.any CmdControl.isPartial

def isDelete (filter : Filter S) : Bool := filter.cmdControl.any CmdControl.delete

def partialUpdate : Filter S := ⟨some ⟨false, true⟩, none, none⟩

end Filter

structure Cmd (S : Schema) where
  function : Option (Function S.Other)
  filter : Option (List (Filter S))
  data : Option (CmdData S)

namespace Cmd

def read (function : Function S.Other) : Cmd S := ⟨some function, none, CmdData.empty function⟩

def withData (data : CmdData S) : Cmd S := ⟨some data.function, none, some data⟩

def withFilter (cmd : Cmd S) (filter : Filter S) : Cmd S :=
  { cmd with filter := some (cmd.filter.getD [] ++ [filter]) }

def filters (cmd : Cmd S) : List (Filter S) := cmd.filter.getD []

def isPartial (cmd : Cmd S) : Bool := cmd.filters.any Filter.isPartial

end Cmd

inductive CmdClassifier
  | read
  | reply
  | notify
  | write
  | call
  | result
deriving DecidableEq

structure Header where
  specificationVersion : Option String
  addressSource : Option FeatureAddress
  addressDestination : Option FeatureAddress
  msgCounter : Option MsgCounter
  msgCounterReference : Option MsgCounter
  cmdClassifier : Option CmdClassifier
  ackRequest : Option Bool
deriving DecidableEq

structure Payload (S : Schema) where
  cmd : Option (List (Cmd S))

structure Datagram (S : Schema) where
  header : Option Header
  payload : Option (Payload S)

def Datagram.commands (datagram : Datagram S) : List (Cmd S) :=
  (datagram.payload.bind Payload.cmd).getD []

end Eebus.Model
