import Eebus.Library.FirstMatch
import Eebus.Library.InPlace
import Eebus.Model.CmdData
import Eebus.Spine.Address

/-! The local device: what this node offers, and what it holds. -/

namespace Eebus.Spine

open Eebus.Library Eebus.Model

def maxListEntries : Nat := 128

structure Operations where
  read : Bool
  readPartial : Bool
  write : Bool
  writePartial : Bool
deriving DecidableEq

namespace Operations

def readOnly : Operations := ⟨true, true, false, false⟩
def readWrite : Operations := ⟨true, true, true, true⟩

def toModel (o : Operations) : PossibleOperations where
  read := if o.read then some ⟨o.readPartial⟩ else none
  write := if o.write then some ⟨o.writePartial⟩ else none

end Operations

variable {S : Schema}

structure FunctionEntry (S : Schema) where
  function : Function S.Other
  operations : Operations
  data : Option (CmdData S)
  keyed : ∀ d, data = some d → d.function = function

def FunctionEntry.store (entry : FunctionEntry S) (d : CmdData S)
    (h : d.function = entry.function) : FunctionEntry S :=
  { entry with data := some d, keyed := fun _ hd => by cases hd; exact h }

inductive WriteApproval
  | automatic
  | deferred
deriving DecidableEq

inductive WriteBinding
  | required
  | notRequired
deriving DecidableEq

structure LocalFeature (S : Schema) where
  address : Nat
  featureType : FeatureType
  role : Role
  approval : WriteApproval
  binding : WriteBinding
  functions : List (FunctionEntry S)
  maxResponseDelay : Option Nat

inductive FeatureError (S : Schema)
  | tooManyEntries
  | unknownFunction
  | notWriteable
  | partialNotSupported
  | missingIdentifier
  | mismatch (error : FunctionMismatch S)
  | restricted (error : RestrictError)

def FeatureError.errorNumber : FeatureError S → ErrorNumber
  | .unknownFunction => .commandNotSupported
  | .notWriteable | .missingIdentifier | .mismatch _ => .commandRejected
  | .partialNotSupported => .restrictedExchangeNotSupported
  | .restricted error => error.errorNumber
  | .tooManyEntries => .overload

theorem FeatureError.errorNumber_ne_none (error : FeatureError S) :
    error.errorNumber.isSuccess = false := by
  cases error <;> rfl

namespace LocalFeature

def new (address : Nat) (featureType : FeatureType) (role : Role) : LocalFeature S :=
  ⟨address, featureType, role, .automatic, .required, [], none⟩

def withDeferredWrites (f : LocalFeature S) : LocalFeature S := { f with approval := .deferred }

def withUnboundWrites (f : LocalFeature S) : LocalFeature S := { f with binding := .notRequired }

def names (function : Function S.Other) (entry : FunctionEntry S) : Bool :=
  decide (entry.function = function)

def function (f : LocalFeature S) (function : Function S.Other) : Option (FunctionEntry S) :=
  f.functions.find? (names function)

def withFunction (f : LocalFeature S) (function : Function S.Other) (operations : Operations) :
    LocalFeature S :=
  let operations := { operations with
    readPartial := operations.readPartial && CmdData.supportsRestriction function }
  match f.function function with
  | some _ =>
    { f with functions :=
        modifyFirst (names function) (fun entry _ => { entry with operations }) f.functions }
  | none =>
    { f with functions := f.functions ++ [⟨function, operations, none, fun _ h => nomatch h⟩] }

def data (f : LocalFeature S) (function : Function S.Other) : Option (CmdData S) :=
  (f.function function).bind FunctionEntry.data

def store (f : LocalFeature S) (d : CmdData S) : LocalFeature S :=
  { f with
    functions := modifyFirst (names d.function)
      (fun entry h => entry.store d (of_decide_eq_true h).symm) f.functions }

def checkWrite (f : LocalFeature S) (update : CmdData S) (restricted : Bool) :
    Except (FeatureError S) Unit :=
  match f.function update.function with
  | none => .error .unknownFunction
  | some entry =>
    if !entry.operations.write then .error .notWriteable
    else if restricted && !entry.operations.writePartial then .error .partialNotSupported
    else if !update.entriesIdentified then .error .missingIdentifier
    else .ok ()

def setData (f : LocalFeature S) (data : CmdData S) : Except (FeatureError S) (LocalFeature S × Bool) :=
  match f.function data.function with
  | none => .error .unknownFunction
  | some entry => if entry.data = some data then .ok (f, false) else .ok (f.store data, true)

def wouldHold (stored : Option (CmdData S)) (update : CmdData S) (isPartial : Bool) : Nat :=
  if isPartial then (stored.map CmdData.entryCount).getD 0 + update.entryCount
  else update.entryCount

def apply (f : LocalFeature S) (update : CmdData S) (isPartial : Bool) :
    Except (FeatureError S) (LocalFeature S) :=
  match f.function update.function with
  | none => .error .unknownFunction
  | some entry =>
    if !entry.operations.write then .error .notWriteable
    else if isPartial && !entry.operations.writePartial then .error .partialNotSupported
    else if !update.entriesIdentified then .error .missingIdentifier
    else if wouldHold entry.data update isPartial > maxListEntries then .error .tooManyEntries
    else
      match entry.data with
      | some stored =>
        match stored.apply update isPartial with
        | .ok merged => .ok (f.store merged)
        | .error e => .error (.mismatch e)
      | none => .ok (f.store update)

def writeableFunction (f : LocalFeature S) (update : CmdData S) :
    Except (FeatureError S) (FunctionEntry S) :=
  match f.function update.function with
  | none => .error .unknownFunction
  | some entry =>
    if !entry.operations.write then .error .notWriteable
    else if !update.entriesIdentified then .error .missingIdentifier
    else .ok entry

end LocalFeature

/-- What a delete filter addresses, one step after the other: two selectors address two sets of
entries, and a delete of their union is a delete of each in turn. -/
def addressedBy (filter : Filter S) : List (Option (FilterSelectors S) × Option (FilterElements S)) :=
  match filter.selectors.getD [] with
  | [] => [(none, filter.elements)]
  | many => many.map fun selector => (some selector, filter.elements)

def deleteStep (update : CmdData S) (step : Option (FilterSelectors S) × Option (FilterElements S))
    (stored : CmdData S) : Except RestrictError (CmdData S) :=
  stored.deleteRestricted update step.1 step.2

/-- Applies one delete filter, honouring what it addresses. An error keeps the deletions made
before it. -/
def LocalFeature.deleteFiltered (f : LocalFeature S) (update : CmdData S) (filter : Filter S) :
    LocalFeature S × Except (FeatureError S) Unit :=
  match f.writeableFunction update with
  | .error e => (f, .error e)
  | .ok entry =>
    match entry.data with
    | none => (f, .ok ())
    | some stored =>
      match runSteps (deleteStep update) (addressedBy filter) stored with
      | (stored', .ok ()) => (f.store stored', .ok ())
      | (stored', .error e) => (f.store stored', .error (.restricted e))

structure LocalEntity (S : Schema) where
  address : List Nat
  entityType : EntityType
  features : List (LocalFeature S)

namespace LocalEntity

def hasAddress (feature : Nat) (f : LocalFeature S) : Bool := f.address == feature

def feature (entity : LocalEntity S) (address : Nat) : Option (LocalFeature S) :=
  entity.features.find? (hasAddress address)

def update (entity : LocalEntity S) (address : Nat) (g : LocalFeature S → LocalFeature S) :
    LocalEntity S :=
  { entity with features := modifyFirst (hasAddress address) (fun f _ => g f) entity.features }

end LocalEntity

structure LocalDevice (S : Schema) where
  address : AddressDevice
  deviceType : DeviceType
  featureSet : NetworkManagementFeatureSet
  entities : List (LocalEntity S)

namespace LocalDevice

def nodeManagementFeature : LocalFeature S :=
  ((((LocalFeature.new Spine.nodeManagementFeature .nodeManagement .special).withFunction
    (.known .nodeManagementDetailedDiscoveryData) .readOnly).withFunction
    (.known .nodeManagementUseCaseData) .readOnly).withFunction
    (.known .nodeManagementBindingData) .readOnly).withFunction
    (.known .nodeManagementSubscriptionData) .readOnly

def fromAddress (address : AddressDevice) (deviceType : DeviceType) : LocalDevice S where
  address := address
  deviceType := deviceType
  featureSet := .smart
  entities := [⟨[nodeManagementEntity], .deviceInformation, [nodeManagementFeature]⟩]

/-- A device with one feature beside its node management, on entity `[1]`. -/
def withFeature (address : AddressDevice) (feature : LocalFeature S) : LocalDevice S :=
  let device := fromAddress address "HeatGenerationSystem"
  { device with
    entities := device.entities ++ [⟨[1], .other "HeatPumpAppliance", [feature]⟩] }

def atPath (path : List Nat) (entity : LocalEntity S) : Bool := entity.address == path

def entity (device : LocalDevice S) (path : List Nat) : Option (LocalEntity S) :=
  device.entities.find? (atPath path)

inductive DeviceError
  | duplicateEntityAddress
  | unknownEntity
  | entityZeroIsMandatory
deriving DecidableEq

def addEntity (device : LocalDevice S) (entity : LocalEntity S) :
    Except DeviceError (LocalDevice S) :=
  if device.entities.any (atPath entity.address) then .error .duplicateEntityAddress
  else .ok { device with entities := device.entities ++ [entity] }

def removeEntity (device : LocalDevice S) (path : List Nat) :
    Except DeviceError (LocalDevice S × List (LocalEntity S)) :=
  if path == [nodeManagementEntity] then .error .entityZeroIsMandatory
  else if !device.entities.any (atPath path) then .error .unknownEntity
  else
    let beneath := fun entity : LocalEntity S => path.isPrefixOf entity.address
    let removed := (device.entities.filter (atPath path)).reverse
      ++ device.entities.filter fun entity => !atPath path entity && beneath entity
    .ok ({ device with entities := device.entities.filter fun entity => !beneath entity }, removed)

def resolve (device : LocalDevice S) (address : FeatureAddress) : Option (LocalFeature S) :=
  if address.device.any (· != device.address) then none
  else do
    let entity ← device.entity (entityPath address)
    entity.feature (← address.feature)

def update (device : LocalDevice S) (address : FeatureAddress)
    (g : LocalFeature S → LocalFeature S) : LocalDevice S :=
  if address.device.any (· != device.address) then device
  else
    match address.feature with
    | none => device
    | some feature =>
      { device with
        entities := modifyFirst (atPath (entityPath address))
          (fun entity _ => entity.update feature g) device.entities }

/-- What is stored for a function of the feature an address names. -/
def data (device : LocalDevice S) (address : FeatureAddress) (function : Function S.Other) :
    Option (CmdData S) :=
  (device.resolve address).bind fun feature => feature.data function

end LocalDevice

variable {entry : FunctionEntry S} {g : LocalFeature S → LocalFeature S}

namespace LocalFeature

theorem function_eq (f : LocalFeature S) {name : Function S.Other}
    (h : f.function name = some entry) : entry.function = name := by
  have hnames : names name entry = true := List.find?_some h
  exact of_decide_eq_true hnames

theorem stored_function (f : LocalFeature S) {name : Function S.Other}
    {d : CmdData S} (h : f.function name = some entry) (hd : entry.data = some d) :
    d.function = name := (entry.keyed d hd).trans (f.function_eq h)

@[simp]
theorem store_address (f : LocalFeature S) (d : CmdData S) : (f.store d).address = f.address := rfl

@[simp]
theorem store_binding (f : LocalFeature S) (d : CmdData S) : (f.store d).binding = f.binding := rfl

theorem function_store (f : LocalFeature S) {d : CmdData S}
    (h : f.function d.function = some entry) :
    (f.store d).function d.function = some (entry.store d (f.function_eq h).symm) :=
  find?_modifyFirst h fun hnames => hnames

theorem data_store (f : LocalFeature S) {d : CmdData S}
    (h : f.function d.function = some entry) : (f.store d).data d.function = some d := by
  simp [data, function_store f h, FunctionEntry.store]

theorem store_eq_self_iff (f : LocalFeature S) {d : CmdData S}
    (h : f.function d.function = some entry) : f.store d = f ↔ entry.data = some d := by
  have hlist : f.store d = f ↔ (f.store d).functions = f.functions := by
    constructor
    · intro heq
      rw [heq]
    · intro heq
      cases f
      simp only [store] at heq ⊢
      rw [heq]
  rw [hlist]
  simp only [store]
  rw [modifyFirst_eq_self_iff h]
  constructor
  · intro heq
    rw [← heq]
    rfl
  · intro hdata
    cases entry
    simp only at hdata
    subst hdata
    rfl

theorem store_store (f : LocalFeature S) {a b : CmdData S} (h : a.function = b.function) :
    (f.store a).store b = f.store b := by
  simp only [store, LocalFeature.mk.injEq, true_and, and_true]
  induction f.functions with
  | nil => rfl
  | cons entry rest ih =>
    cases hb : names b.function entry with
    | true =>
      have ha : names a.function entry = true := by rw [h]; exact hb
      have hstored : names b.function (entry.store a (of_decide_eq_true ha).symm) = true := hb
      rw [modifyFirst_cons_pos rest ha, modifyFirst_cons_pos rest hb,
        modifyFirst_cons_pos rest hstored]
      rfl
    | false =>
      have ha : names a.function entry = false := by rw [h]; exact hb
      rw [modifyFirst_cons_neg rest ha, modifyFirst_cons_neg rest hb, modifyFirst_cons_neg _ hb, ih]

end LocalFeature

theorem LocalEntity.feature_update (entity : LocalEntity S) (number other : Nat)
    (hg : ∀ f, f.address = number → (g f).address = number) :
    (entity.update number g).feature other =
      if other = number then (entity.feature other).map g else entity.feature other := by
  simp only [feature, update]
  split
  case isTrue h =>
    subst h
    exact find?_modifyFirst_self (fun f hf => by simp_all [hasAddress]) _
  case isFalse h =>
    refine find?_modifyFirst_of_disjoint _ fun f hf => ?_
    have hf : f.address = number := by simpa [hasAddress] using hf
    simp [hasAddress, hf, hg f hf, Ne.symm h]

namespace LocalDevice

theorem resolve_eq_some {device : LocalDevice S} {address : FeatureAddress} {f : LocalFeature S} :
    device.resolve address = some f ↔
      address.device.any (· != device.address) = false ∧
        ∃ number entity, address.feature = some number ∧
          device.entities.find? (atPath (entityPath address)) = some entity ∧
          entity.features.find? (LocalEntity.hasAddress number) = some f := by
  simp only [resolve, entity, LocalEntity.feature]
  cases hdevice : address.device.any (· != device.address) with
  | true => simp
  | false =>
    cases hnumber : address.feature <;>
      cases hentity : device.entities.find? (atPath (entityPath address)) <;> simp

theorem resolve_update {device : LocalDevice S} {address : FeatureAddress} {f : LocalFeature S}
    (h : device.resolve address = some f) (g : LocalFeature S → LocalFeature S)
    (hg : (g f).address = f.address) : (device.update address g).resolve address = some (g f) := by
  obtain ⟨hdevice, number, entity, hnumber, hentity, hfeature⟩ := resolve_eq_some.mp h
  have hupdate : device.update address g = { device with
      entities := modifyFirst (atPath (entityPath address))
        (fun entity _ => entity.update number g) device.entities } := by
    simp [update, hdevice, hnumber]
  rw [hupdate]
  refine resolve_eq_some.mpr ⟨hdevice, number, entity.update number g, hnumber, ?_, ?_⟩
  · exact find?_modifyFirst hentity fun hat => hat
  · refine find?_modifyFirst hfeature fun hat => ?_
    simpa [LocalEntity.hasAddress, hg] using hat

theorem update_eq_self {device : LocalDevice S} {address : FeatureAddress} {f : LocalFeature S}
    (h : device.resolve address = some f) (hg : g f = f) :
    device.update address g = device := by
  obtain ⟨hdevice, number, entity, hnumber, hentity, hfeature⟩ := resolve_eq_some.mp h
  have hsame : entity.update number g = entity := by
    have := (modifyFirst_eq_self_iff (g := fun f _ => g f) hfeature).mpr hg
    cases entity
    simp only [LocalEntity.update] at this ⊢
    rw [this]
  have hentities := (modifyFirst_eq_self_iff
    (g := fun entity _ => LocalEntity.update entity number g) hentity).mpr hsame
  cases device
  simp only [update, hnumber] at hentities hdevice ⊢
  rw [hdevice, hentities]
  rfl

theorem entity_update (device : LocalDevice S) (path other : List Nat)
    {g : LocalEntity S → LocalEntity S} (hg : ∀ e, (g e).address = e.address) :
    LocalDevice.entity { device with
        entities := modifyFirst (atPath path) (fun e _ => g e) device.entities } other =
      if other = path then (device.entity other).map g else device.entity other := by
  simp only [entity]
  split
  case isTrue h =>
    subst h
    exact find?_modifyFirst_self (fun e he => by simpa [atPath, hg] using he) _
  case isFalse h =>
    refine find?_modifyFirst_of_disjoint _ fun e he => ?_
    obtain rfl : e.address = path := by simpa [atPath] using he
    simp [atPath, hg, Ne.symm h]

theorem resolve_number {device : LocalDevice S} {address : FeatureAddress} {f : LocalFeature S}
    (hf : device.resolve address = some f) : address.feature = some f.address := by
  obtain ⟨-, number, entity, hnumber, -, hfound⟩ := resolve_eq_some.mp hf
  have hself := List.find?_some hfound
  simp only [LocalEntity.hasAddress, beq_iff_eq] at hself
  rw [hnumber, hself]

theorem resolve_update_eq (device : LocalDevice S) (address other : FeatureAddress)
    (hg : ∀ f, address.feature = some f.address → (g f).address = f.address) :
    (device.update address g).resolve other =
      if address.device.any (· != device.address) = false ∧ entityPath other = entityPath address ∧
        other.feature = address.feature then (device.resolve other).map g
      else device.resolve other := by
  cases hdevice : address.device.any (· != device.address) with
  | true => simp [update, hdevice]
  | false =>
    cases hnumber : address.feature with
    | none => cases hother : other.feature <;> simp [update, hdevice, hnumber, resolve, hother]
    | some number =>
      have hupdate : device.update address g = { device with
          entities := modifyFirst (atPath (entityPath address))
            (fun entity _ => entity.update number g) device.entities } := by
        simp [update, hdevice, hnumber]
      have hentity := device.entity_update (entityPath address) (entityPath other)
        (g := fun entity => entity.update number g) fun _ => rfl
      have hg : ∀ f, f.address = number → (g f).address = number := by
        rintro f rfl
        exact hg f hnumber
      rw [hupdate]
      simp only [resolve, hentity, true_and]
      by_cases hpath : entityPath other = entityPath address
      · cases hfound : device.entity (entityPath address) with
        | none => simp [hpath, hfound]
        | some entity =>
          cases hother : other.feature with
          | none => simp [hpath, hfound]
          | some n =>
            by_cases hn : n = number
            · subst hn
              simp only [hpath, hfound, if_true, Option.map_some, true_and]
              split
              · rfl
              · exact entity.feature_update n n hg |>.trans (if_pos rfl)
            · simp [hpath, hfound, entity.feature_update number n hg, hn]
      · simp [hpath]

theorem resolve_update_cases (device : LocalDevice S) (address other : FeatureAddress)
    (hg : ∀ f, address.feature = some f.address → (g f).address = f.address) :
    (device.update address g).resolve other = device.resolve other ∨
      ∃ f, device.resolve address = some f ∧ device.resolve other = some f ∧
        (device.update address g).resolve other = some (g f) := by
  rw [resolve_update_eq device address other hg]
  split
  case isTrue hseen =>
    obtain ⟨hdevice, hpath, hfeature⟩ := hseen
    cases hother : device.resolve other with
    | none => exact .inl rfl
    | some f =>
      refine .inr ⟨f, ?_, rfl, rfl⟩
      rw [resolve_eq_some] at hother ⊢
      rw [← hpath, ← hfeature]
      exact ⟨hdevice, hother.2⟩
  case isFalse => exact .inl rfl

@[simp]
theorem update_address (device : LocalDevice S) (address : FeatureAddress)
    (g : LocalFeature S → LocalFeature S) : (device.update address g).address = device.address := by
  simp only [update]
  split
  · rfl
  · split <;> rfl

end LocalDevice

end Eebus.Spine
