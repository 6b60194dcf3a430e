import Eebus.Model.ScaledNumber
import Eebus.Model.Time
import Eebus.Model.CmdData
import Eebus.Spine.Engine

/-!
The document `smartEnergyManagementPsData`, in which a heat pump's compressor offers a power
consumption process and an energy manager takes it up.
-/

namespace Eebus.Ohpcf

open Eebus.Library Eebus.Model Eebus.Spine

/-- A `core::time::Duration`, in nanoseconds. -/
abbrev Duration := { span : Nat // span ≤ durationMax }

def Duration.zero : Duration := ⟨0, Nat.zero_le _⟩

def formatDuration (span : Duration) : String := formatIso8601Duration span.1

def parseDuration (text : String) : Option Duration :=
  (parseIso8601Duration text).pmap Subtype.mk fun _ h => parseIso8601Duration_le h

inductive PowerSequenceState
  | running
  | paused
  | scheduled
  | scheduledPaused
  | pending
  | inactive
  | completed
  | invalid
  | other (text : String)
deriving DecidableEq

inductive PowerTimeSlotValueType
  | power
  | powerMin
  | powerMax
  | powerExpectedValue
  | powerStandardDeviation
  | powerSkewness
  | energy
  | energyMin
  | energyMax
  | energyExpectedValue
  | energyStandardDeviation
  | energySkewness
  | other (text : String)
deriving DecidableEq

inductive UnitOfMeasurement
  | w
  | other (text : String)
deriving DecidableEq

structure SmartEnergyManagementPsPowerTimeSlotValueListValue where
  valueType : Option PowerTimeSlotValueType := none
  value : Option ScaledNumber := none
deriving DecidableEq

structure SmartEnergyManagementPsPowerTimeSlotValueList where
  value : Option (List SmartEnergyManagementPsPowerTimeSlotValueListValue) := none
deriving DecidableEq

structure SmartEnergyManagementPsPowerTimeSlotSchedule where
  slotNumber : Option Nat := none
deriving DecidableEq

structure SmartEnergyManagementPsPowerTimeSlot where
  schedule : Option SmartEnergyManagementPsPowerTimeSlotSchedule := none
  valueList : Option SmartEnergyManagementPsPowerTimeSlotValueList := none
deriving DecidableEq

structure SmartEnergyManagementPsPowerSequenceDescription where
  sequenceId : Option Nat := none
  powerUnit : Option UnitOfMeasurement := none
deriving DecidableEq

structure SmartEnergyManagementPsPowerSequenceState where
  state : Option PowerSequenceState := none
  activeSlotNumber : Option Nat := none
  sequenceRemoteControllable : Option Bool := none
deriving DecidableEq

structure SmartEnergyManagementPsPowerSequenceSchedule where
  startTime : Option String := none
deriving DecidableEq

structure SmartEnergyManagementPsPowerSequenceOperatingConstraintsInterrupt where
  isPausable : Option Bool := none
  isStoppable : Option Bool := none
deriving DecidableEq

structure SmartEnergyManagementPsPowerSequenceOperatingConstraintsDuration where
  activeDurationMin : Option String := none
  pauseDurationMin : Option String := none
deriving DecidableEq

structure SmartEnergyManagementPsPowerSequence where
  description : Option SmartEnergyManagementPsPowerSequenceDescription := none
  state : Option SmartEnergyManagementPsPowerSequenceState := none
  schedule : Option SmartEnergyManagementPsPowerSequenceSchedule := none
  operatingConstraintsInterrupt :
    Option SmartEnergyManagementPsPowerSequenceOperatingConstraintsInterrupt := none
  operatingConstraintsDuration :
    Option SmartEnergyManagementPsPowerSequenceOperatingConstraintsDuration := none
  powerTimeSlot : Option (List SmartEnergyManagementPsPowerTimeSlot) := none
deriving DecidableEq

structure SmartEnergyManagementPsAlternativesRelation where
  alternativesId : Option Nat := none
deriving DecidableEq

structure SmartEnergyManagementPsAlternatives where
  relation : Option SmartEnergyManagementPsAlternativesRelation := none
  powerSequence : Option (List SmartEnergyManagementPsPowerSequence) := none
deriving DecidableEq

structure SmartEnergyManagementPsDataNodeScheduleInformation where
  nodeRemoteControllable : Option Bool := none
  supportsSingleSlotSchedulingOnly : Option Bool := none
  alternativesCount : Option Nat := none
  totalSequencesCountMax : Option Nat := none
  supportsReselection : Option Bool := none
deriving DecidableEq

structure SmartEnergyManagementPsData where
  nodeScheduleInformation : Option SmartEnergyManagementPsDataNodeScheduleInformation := none
  alternatives : Option (List SmartEnergyManagementPsAlternatives) := none
deriving DecidableEq

def SmartEnergyManagementPsDataNodeScheduleInformation.merge
    (stored update : SmartEnergyManagementPsDataNodeScheduleInformation) :
    SmartEnergyManagementPsDataNodeScheduleInformation :=
  { nodeRemoteControllable := mergeLeaf stored.nodeRemoteControllable update.nodeRemoteControllable
    supportsSingleSlotSchedulingOnly :=
      mergeLeaf stored.supportsSingleSlotSchedulingOnly update.supportsSingleSlotSchedulingOnly
    alternativesCount := mergeLeaf stored.alternativesCount update.alternativesCount
    totalSequencesCountMax := mergeLeaf stored.totalSequencesCountMax update.totalSequencesCountMax
    supportsReselection := mergeLeaf stored.supportsReselection update.supportsReselection }

/-- The information merges element by element; the alternatives, a repeated element, are replaced as a
unit. -/
def SmartEnergyManagementPsData.merge (stored update : SmartEnergyManagementPsData) :
    SmartEnergyManagementPsData :=
  { nodeScheduleInformation :=
      mergeOption SmartEnergyManagementPsDataNodeScheduleInformation.merge
        stored.nodeScheduleInformation update.nodeScheduleInformation
    alternatives := mergeLeaf stored.alternatives update.alternatives }

variable {S : Schema}

/-- The function `smartEnergyManagementPsData` in a schema. It is no list, so that a partial write
merges into it as into a record. -/
structure SmartEnergyManagementPs (S : Schema) where
  function : S.Other
  view : S.OtherData function ≃ SmartEnergyManagementPsData
  plain : (S.type (.other function)).isMergeableList = false
  default : view (S.type (.other function)).default = {}
  merge : ∀ stored update,
    view ((S.type (.other function)).merge stored update) = (view stored).merge (view update)

namespace SmartEnergyManagementPs

variable (P : SmartEnergyManagementPs S)

def cmdData (data : SmartEnergyManagementPsData) : CmdData S := ⟨.other P.function, P.view.symm data⟩

def payload : CmdData S → Option SmartEnergyManagementPsData
  | ⟨.other function, value⟩ =>
    if h : function = P.function then some (P.view (h ▸ value)) else none
  | _ => none

/-- The command a partial write sends (`Engine::write` with `partial: true`), as the server reads it. -/
def partialOps (data : CmdData S) : WriteOps S :=
  WriteOps.of ((Cmd.withData data).withFilter .partialUpdate)

@[simp] theorem payload_cmdData (data : SmartEnergyManagementPsData) :
    P.payload (P.cmdData data) = some data := by
  simp [payload, cmdData]

theorem of_view (value : S.OtherData P.function) :
    (⟨.other P.function, value⟩ : CmdData S) = P.cmdData (P.view value) := by
  rw [cmdData, Equiv.symm_apply_apply]

theorem cmdData_default :
    (⟨.other P.function, (S.type (.other P.function)).default⟩ : CmdData S) = P.cmdData {} :=
  (P.of_view _).trans (congrArg P.cmdData P.default)

theorem apply_partial (stored update : S.OtherData P.function) :
    CmdData.apply (S := S) ⟨.other P.function, stored⟩ ⟨.other P.function, update⟩ true =
      .ok ⟨.other P.function, (S.type (.other P.function)).merge stored update⟩ := by
  simp [CmdData.apply, FunctionType.apply, P.plain]

theorem apply_cmdData (stored update : SmartEnergyManagementPsData) :
    (P.cmdData stored).apply (P.cmdData update) true = .ok (P.cmdData (stored.merge update)) := by
  have hmerge := P.merge (P.view.symm stored) (P.view.symm update)
  rw [P.view.apply_symm_apply, P.view.apply_symm_apply] at hmerge
  exact (P.apply_partial _ _).trans
    (congrArg Except.ok ((P.of_view _).trans (congrArg P.cmdData hmerge)))

theorem resolveWrite_partial (stored : Option SmartEnergyManagementPsData)
    (data : SmartEnergyManagementPsData) :
    resolveWrite (stored.map P.cmdData) (P.cmdData data) (partialOps (P.cmdData data)) =
      P.cmdData ((stored.getD {}).merge data) := by
  have hops : partialOps (P.cmdData data) = ⟨[], true, true⟩ := rfl
  have hstart : (stored.map P.cmdData).or (CmdData.empty (P.cmdData data).function) =
      some (P.cmdData (stored.getD {})) := by
    cases stored with
    | some stored => rfl
    | none => exact congrArg some P.cmdData_default
  rw [resolveWrite, hstart, hops]
  simp only [WriteOps.resolve, WriteOps.deleteSteps, List.flatMap_nil, runSteps, if_true,
    P.apply_cmdData]

end SmartEnergyManagementPs

def smartEnergyManagementPsDataType : FunctionType SmartEnergyManagementPsData where
  __ := FunctionType.whole SmartEnergyManagementPsData {}
  merge := SmartEnergyManagementPsData.merge
  merge_default update := by
    obtain ⟨information, alternatives⟩ := update
    cases information <;> cases alternatives <;> rfl

def heatPumpSchema : Schema :=
  .ofOther Unit (fun _ => SmartEnergyManagementPsData) fun _ => smartEnergyManagementPsDataType

def heatPump : SmartEnergyManagementPs heatPumpSchema where
  function := ()
  view := Equiv.refl _
  plain := rfl
  default := rfl
  merge _ _ := rfl

end Eebus.Ohpcf
