import Eebus.Library.Fallible
import Eebus.Model.StructCodec

/-!
The choice groups of a command frame. An alternative is written as the only member of an object, under a name
of its own.
-/

namespace Eebus.Model

open Eebus.Library

def flag : Element where
  Value := Bool
  encode b := .bool b
  decode
    | .bool b => .ok b
    | _ => .error (.invalidType "a boolean")
  Form b json := json = .bool b
  form_encode _ := rfl

structure ChoiceType where
  Key : Type
  wire : Key → String
  keyOf : String → Option Key
  element : Key → Element
  keyOf_wire : ∀ k, keyOf (wire k) = some k

namespace ChoiceType

variable (C : ChoiceType)

/-- One alternative, and its value. -/
abbrev Value : Type := (k : C.Key) × (C.element k).Value

def member (choice : C.Value) : String × Json := (C.wire choice.1, (C.element choice.1).encode choice.2)

def readValue (entry : String × Json) : Except DecodeError (Option C.Value) :=
  match C.keyOf entry.1 with
  | some k => do
    let value ← (C.element k).decode entry.2
    .ok (some ⟨k, value⟩)
  | none => .ok none

def reread (choice : C.Value) : Except DecodeError C.Value := do
  let value ← (C.element choice.1).decode ((C.element choice.1).encode choice.2)
  .ok ⟨choice.1, value⟩

def ReadsBack (choice : C.Value) : Prop := C.reread choice = .ok choice

def take (held : Option C.Value) (entry : String × Json) : Except DecodeError (Option C.Value) := do
  match ← C.readValue entry with
  | some choice => .ok (some choice)
  | none => .ok held

def push (held : Option (List C.Value)) (entry : String × Json) : Except DecodeError (Option (List C.Value)) := do
  match ← C.readValue entry with
  | some choice => .ok (some (held.getD [] ++ [choice]))
  | none => .ok held

theorem readValue_member (choice : C.Value) :
    C.readValue (C.member choice) = C.reread choice >>= fun read => .ok (some read) := by
  simp only [readValue, member, C.keyOf_wire, reread]
  cases (C.element choice.1).decode ((C.element choice.1).encode choice.2) <;> rfl

theorem take_member (held : Option C.Value) (choice : C.Value) :
    C.take held (C.member choice) = C.reread choice >>= fun read => .ok (some read) := by
  rw [take, readValue_member]
  cases C.reread choice <;> rfl

theorem push_member (held : Option (List C.Value)) (choice : C.Value) :
    C.push held (C.member choice) = C.reread choice >>= fun read => .ok (some (held.getD [] ++ [read])) := by
  rw [push, readValue_member]
  cases C.reread choice <;> rfl

theorem foldlM_push (choices held : List C.Value) :
    (choices.map C.member).foldlM C.push (some held) =
      choices.mapM C.reread >>= fun read => .ok (some (held ++ read)) := by
  induction choices generalizing held with
  | nil => exact congrArg (fun held => Except.ok (some held)) (List.append_nil held).symm
  | cons choice choices ih =>
    rw [List.map_cons, List.foldlM_cons, push_member, List.mapM_cons]
    cases C.reread choice with
    | error e => rfl
    | ok read =>
      refine (ih (held ++ [read])).trans ?_
      simp only [List.append_assoc, List.singleton_append]
      cases choices.mapM C.reread <;> rfl

theorem foldlM_push_eq_self_iff (choices : List C.Value) :
    (choices.map C.member).foldlM C.push none = .ok (some choices) ↔ choices ≠ [] ∧ ∀ c ∈ choices, C.ReadsBack c := by
  cases choices with
  | nil => exact ⟨fun h => (by cases h), fun h => absurd rfl h.1⟩
  | cons choice choices =>
    have hall : ((choice :: choices).map C.member).foldlM C.push none =
        (choice :: choices).mapM C.reread >>= fun read => .ok (some read) := by
      rw [List.map_cons, List.foldlM_cons, push_member, List.mapM_cons]
      cases C.reread choice with
      | error e => rfl
      | ok read =>
        refine (C.foldlM_push choices [read]).trans ?_
        cases choices.mapM C.reread <;> rfl
    rw [hall]
    simp only [bind_eq_ok_iff, Except.ok.injEq, Option.some.injEq, exists_eq_right]
    exact (mapM_eq_self_iff C.reread _).trans (iff_and_self.mpr fun _ => List.cons_ne_nil _ _)

def ofNames (names : List String) (element : { name // name ∈ names } → Element) : ChoiceType where
  Key := { name // name ∈ names }
  wire := Subtype.val
  keyOf key := if h : key ∈ names then some ⟨key, h⟩ else none
  element := element
  keyOf_wire k := dif_pos k.2

variable {names : List String} {element : { name // name ∈ names } → Element} {key : String}

@[simp] theorem isSome_keyOf_ofNames : ((ofNames names element).keyOf key).isSome = true ↔ key ∈ names := by
  by_cases h : key ∈ names <;> simp [ofNames, h]

end ChoiceType

/-- The functions whose data is a list: an entry has elements, and the list selectors. -/
def listFunctions : List String :=
  ["alarm", "billConstraints", "billDescription", "bill", "bindingManagementEntry", "commodity",
    "deviceConfigurationKeyValueConstraints", "deviceConfigurationKeyValueDescription",
    "deviceConfigurationKeyValue", "directControlActivity", "electricalConnectionCharacteristic",
    "electricalConnectionDescription", "electricalConnectionParameterDescription",
    "electricalConnectionPermittedValueSet", "electricalConnectionState",
    "hvacOperationModeDescription", "hvacOverrunDescription", "hvacOverrun",
    "hvacSystemFunctionDescription", "hvacSystemFunction", "hvacSystemFunctionOperationModeRelation",
    "hvacSystemFunctionPowerSequenceRelation", "hvacSystemFunctionSetpointRelation", "identification",
    "incentiveDescription", "incentive", "loadControlEvent", "loadControlLimitConstraints",
    "loadControlLimitDescription", "loadControlLimit", "loadControlState", "measurementConstraints",
    "measurementDescription", "measurement", "measurementSeries", "measurementThresholdRelation",
    "messaging", "networkManagementDeviceDescription", "networkManagementEntityDescription",
    "networkManagementFeatureDescription", "nodeManagementDestination", "operatingConstraintsDuration",
    "operatingConstraintsInterrupt", "operatingConstraintsPowerDescription",
    "operatingConstraintsPowerLevel", "operatingConstraintsPowerRange",
    "operatingConstraintsResumeImplication", "powerSequenceAlternativesRelation",
    "powerSequenceDescription", "powerSequencePrice", "powerSequenceScheduleConstraints",
    "powerSequenceSchedule", "powerSequenceSchedulePreference", "powerSequenceState",
    "powerTimeSlotScheduleConstraints", "powerTimeSlotSchedule", "powerTimeSlotValue", "sensing",
    "sessionIdentification", "sessionMeasurementRelation", "setpointConstraints", "setpointDescription",
    "setpoint", "specificationVersion", "stateInformation", "subscriptionManagementEntry",
    "supplyConditionDescription", "supplyCondition", "supplyConditionThresholdRelation",
    "tariffBoundaryRelation", "tariffDescription", "tariff", "tariffTierRelation",
    "taskManagementJobDescription", "taskManagementJob", "taskManagementJobRelation",
    "thresholdConstraints", "thresholdDescription", "threshold", "tierBoundaryDescription",
    "tierBoundary", "tierDescription", "tierIncentiveRelation", "tier", "timeSeriesConstraints",
    "timeSeriesDescription", "timeSeries", "timeTableConstraints", "timeTableDescription", "timeTable",
    "useCaseInformation"]

/-- The others that have elements and selectors. -/
def selectableData : List String :=
  ["incentiveTableConstraintsData", "incentiveTableData", "incentiveTableDescriptionData",
    "nodeManagementBindingData", "nodeManagementDetailedDiscoveryData",
    "nodeManagementSubscriptionData", "nodeManagementUseCaseData", "smartEnergyManagementPsData",
    "smartEnergyManagementPsPriceData"]

/-- Those that have elements alone. -/
def plainData : List String :=
  ["actuatorLevelData", "actuatorLevelDescriptionData", "actuatorSwitchData",
    "actuatorSwitchDescriptionData", "bindingManagementDeleteCall", "bindingManagementRequestCall",
    "dataTunnelingCall", "deviceClassificationManufacturerData", "deviceClassificationUserData",
    "deviceDiagnosisHeartbeatData", "deviceDiagnosisServiceData", "deviceDiagnosisStateData",
    "directControlDescriptionData", "loadControlNodeData", "networkManagementAbortCall",
    "networkManagementAddNodeCall", "networkManagementDiscoverCall", "networkManagementJoiningModeData",
    "networkManagementModifyNodeCall", "networkManagementProcessStateData",
    "networkManagementRemoveNodeCall", "networkManagementReportCandidateData",
    "networkManagementScanNetworkCall", "nodeManagementBindingDeleteCall",
    "nodeManagementBindingRequestCall", "nodeManagementSubscriptionDeleteCall",
    "nodeManagementSubscriptionRequestCall", "powerSequenceNodeScheduleInformationData",
    "powerSequencePriceCalculationRequestCall", "powerSequenceScheduleConfigurationRequestCall",
    "sensingDescriptionData", "smartEnergyManagementPsConfigurationRequestCall",
    "smartEnergyManagementPsPriceCalculationRequestCall", "subscriptionManagementDeleteCall",
    "subscriptionManagementRequestCall", "tariffOverallConstraintsData", "taskManagementOverviewData",
    "timeDistributorData", "timeDistributorEnquiryCall", "timeInformationData", "timePrecisionData"]

def dataNames : List String :=
  listFunctions.map (· ++ "ListData") ++ selectableData ++ plainData ++ ["resultData"]

def elementNames : List String :=
  listFunctions.map (· ++ "DataElements") ++ (selectableData ++ plainData).map (· ++ "Elements")

def selectorNames : List String :=
  (listFunctions.map (· ++ "ListData") ++ selectableData).map (· ++ "Selectors")

/-- The last byte but one, by which the names of the two groups of a filter can be told apart. -/
def penultimate (name : String) : Option UInt8 := name.toByteArray.data[name.toByteArray.size - 2]?

theorem penultimate_selectorNames : ∀ name ∈ selectorNames, penultimate name = some 'r'.toUInt8 := by
  decide +kernel

theorem penultimate_elementNames : ∀ name ∈ elementNames, penultimate name = some 't'.toUInt8 := by
  decide +kernel

theorem selectorNames_disjoint {name : String} (hselector : name ∈ selectorNames) : name ∉ elementNames := by
  intro helement
  have hboth := (penultimate_selectorNames name hselector).symm.trans (penultimate_elementNames name helement)
  exact absurd hboth (by decide +kernel)

theorem dataNames_reserved :
    ∀ name ∈ ["function", "filter", "manufacturerSpecificExtension", "lastUpdateAt"], name ∉ dataNames := by
  decide +kernel

theorem filterNames_reserved :
    ∀ name ∈ ["filterId", "cmdControl"], name ∉ selectorNames ∧ name ∉ elementNames := by
  decide +kernel

end Eebus.Model
