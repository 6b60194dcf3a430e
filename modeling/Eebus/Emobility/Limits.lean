import Eebus.Emobility.Currents
import Eebus.Model.ScaledNumber

/-!
The limits a car publishes and an energy manager writes: which identifier a car keeps each phase
under, the payloads both sides build, and how each side reads them.
-/

namespace Eebus.Emobility

open Eebus.Library Eebus.Model

/-- How amperes are written on the wire, to one decimal place, and read from it. -/
structure Decimals (α : Type) where
  toValue : ScaledNumber → Option α
  fromValue : α → ScaledNumber

def binaryDecimals : Decimals F64 where
  toValue := ScaledNumber.toF64
  fromValue amperes := ScaledNumber.fromF64 amperes 1

inductive Purpose
  | overloadProtection
  | selfConsumption
deriving DecidableEq, Repr

def Purpose.limitCategory : Purpose → String
  | .overloadProtection => "obligation"
  | .selfConsumption => "recommendation"

def Purpose.scopeType : Purpose → String
  | .overloadProtection => "overloadProtection"
  | .selfConsumption => "selfConsumption"

def limitId : PhaseName → Option Nat
  | .a => some 1
  | .b => some 2
  | .c => some 3
  | _ => none

def phaseOf : Nat → Option PhaseName
  | 1 => some .a
  | 2 => some .b
  | 3 => some .c
  | _ => none

/-- An entry of `electricalConnectionParameterDescriptionListData`. -/
structure ParameterDescription where
  electricalConnectionId : Option Nat
  parameterId : Option Nat
  measurementId : Option Nat
  scopeType : Option String
  acMeasuredPhases : Option PhaseName
deriving DecidableEq

structure ScaledNumberRange where
  min : Option ScaledNumber
  max : Option ScaledNumber
deriving DecidableEq

structure ScaledNumberSet where
  range : Option (List ScaledNumberRange)
deriving DecidableEq

/-- An entry of `electricalConnectionPermittedValueSetListData`. -/
structure PermittedValueSet where
  electricalConnectionId : Option Nat
  parameterId : Option Nat
  permittedValueSet : Option (List ScaledNumberSet)
deriving DecidableEq

/-- What a car publishes on the two features of the use case. -/
inductive CarData
  | limitDescriptions (list : LoadControlLimitDescriptionListData)
  | parameterDescriptions (entries : Option (List ParameterDescription))
  | permittedValueSets (entries : Option (List PermittedValueSet))
  | other
deriving DecidableEq

structure Parameter where
  connection : Option Nat
  parameter : Nat
  measurement : Option Nat
  scope : Option String
  phases : Option PhaseName
deriving DecidableEq

structure ParameterIds where
  known : List Parameter
deriving DecidableEq

namespace ParameterIds

def new : ParameterIds := ⟨[]⟩

def learnEntry (ids : ParameterIds) (entry : ParameterDescription) : ParameterIds :=
  match entry.parameterId with
  | none => ids
  | some parameter =>
    ⟨upsert Parameter.parameter
      { connection := entry.electricalConnectionId
        parameter := parameter
        measurement := entry.measurementId
        scope := entry.scopeType
        phases := entry.acMeasuredPhases } ids.known⟩

def learn (ids : ParameterIds) : CarData → ParameterIds × Bool
  | .parameterDescriptions entries => ((entries.getD []).foldl learnEntry ids, true)
  | _ => (ids, false)

def byScope (ids : ParameterIds) (scope : String) : Option Nat :=
  match ids.known.filter fun known => known.scope == some scope with
  | [known] => some known.parameter
  | _ => none

def phaseOfMeasurement (ids : ParameterIds) (measurement : Nat) : Option PhaseName := do
  let known ← ids.known.find? fun known => known.measurement == some measurement
  known.phases

end ParameterIds

structure PhaseLimits where
  parameters : ParameterIds
  /-- Each limit's identifier, with the measurement it points at. -/
  limits : List (Nat × Nat)
deriving DecidableEq

namespace PhaseLimits

def new : PhaseLimits := ⟨.new, []⟩

def learnLimit (purpose : Purpose) (limits : List (Nat × Nat))
    (entry : LoadControlLimitDescriptionData) : List (Nat × Nat) :=
  match entry.limitId, entry.measurementId with
  | some limit, some measurement =>
    if entry.limitType = some "maxValueLimit" ∧
        entry.limitCategory = some purpose.limitCategory ∧
        entry.scopeType = some purpose.scopeType then
      upsert Prod.fst (limit, measurement) limits
    else limits
  | _, _ => limits

def learn (known : PhaseLimits) (data : CarData) (purpose : Purpose) : PhaseLimits × Bool :=
  match data with
  | .limitDescriptions list =>
    ({ known with
        limits := (list.loadControlLimitDescriptionData.getD []).foldl (learnLimit purpose)
          known.limits }, true)
  | _ =>
    let (parameters, learned) := known.parameters.learn data
    ({ known with parameters := parameters }, learned)

/-- The car's identifier for one phase, once both descriptions have arrived. -/
def limitFor (known : PhaseLimits) (phase : PhaseName) : Option Nat :=
  (known.limits.find? fun limit =>
    known.parameters.phaseOfMeasurement limit.2 == some phase).map Prod.fst

def isKnown (known : PhaseLimits) : Bool := phases.any fun phase => (known.limitFor phase).isSome

end PhaseLimits

def parameterDescriptions (connection : Nat) (phases : List PhaseName) : CarData :=
  .parameterDescriptions (some (phases.filterMap fun phase => do
    let id ← limitId phase
    some
      { electricalConnectionId := some connection
        parameterId := some id
        measurementId := some id
        scopeType := none
        acMeasuredPhases := some phase }))

def electricalConnection : Nat := 1

def PhaseLimits.own (phases : List PhaseName) : PhaseLimits :=
  let (known, _) := PhaseLimits.new.learn (parameterDescriptions electricalConnection phases)
    .overloadProtection
  { known with
    limits := known.limits ++ phases.filterMap fun phase => (limitId phase).map fun id => (id, id) }

def readPhases : CarData → Option (List PhaseName)
  | .parameterDescriptions entries =>
    let phases := (entries.getD []).filterMap ParameterDescription.acMeasuredPhases
    if phases.isEmpty then none else some phases
  | _ => none

section Limits

variable {α : Type} (decimals : Decimals α)

def limitData (currents : ChargingCurrents α) (active : Bool) (limits : PhaseLimits) :
    LoadControlLimitListData :=
  ⟨some (currents.phases.filterMap fun (phase, amperes) =>
    (limits.limitFor phase).map fun id =>
      { limitId := some id
        isLimitChangeable := some true
        isLimitActive := some active
        timePeriod := none
        value := some (decimals.fromValue amperes) })⟩

def deactivated (phases : List PhaseName) (limits : PhaseLimits) : LoadControlLimitListData :=
  ⟨some (phases.filterMap fun phase =>
    (limits.limitFor phase).map fun id =>
      { limitId := some id
        isLimitChangeable := some true
        isLimitActive := some false
        timePeriod := none
        value := none })⟩

/-- One entry of a limit write, over the currents read so far and whether any entry named a
phase. A value that is there and cannot be read makes the whole write unusable. -/
def readLimitEntry (found : ChargingCurrents α × Bool) (entry : LoadControlLimitData) :
    Option (ChargingCurrents α × Bool) :=
  match entry.limitId.bind phaseOf with
  | none => some found
  | some phase =>
    if entry.isLimitActive = some false then some (found.1.set phase none, true)
    else
      match entry.value with
      | none => some (found.1.set phase none, true)
      | some value => (decimals.toValue value).map fun amperes =>
        (found.1.set phase (some amperes), true)

def readLimitWrite (list : LoadControlLimitListData) : Option (ChargingCurrents α) := do
  let (currents, sawOne) ← (list.loadControlLimitData.getD []).foldlM (readLimitEntry decimals)
    (.default, false)
  if sawOne then some currents else none

end Limits

section Range

variable {α : Type} [Min α] [Max α] (decimals : Decimals α)

def PermittedValueSet.bounds (entry : PermittedValueSet) : Option (Band α) := do
  let ranges := (entry.permittedValueSet.getD []).flatMap fun (set : ScaledNumberSet) =>
    set.range.getD []
  let range ← ranges.head?
  let min ← range.min.bind decimals.toValue
  let max ← range.max.bind decimals.toValue
  some (min, max)

def PermittedValueSet.phase (entry : PermittedValueSet) (parameters : ParameterIds) :
    Option PhaseName := do
  let id ← entry.parameterId
  let known ← parameters.known.find? fun known => known.parameter == id
  known.phases

def readPermittedEntry (parameters : ParameterIds) (band : ChargingBand α)
    (entry : PermittedValueSet) : ChargingBand α :=
  match entry.phase parameters, PermittedValueSet.bounds decimals entry with
  | some phase, some (min, max) => band.withBand phase min max
  | _, _ => band

def readPermittedRange (data : CarData) (parameters : ParameterIds) : Option (ChargingBand α) :=
  match data with
  | .permittedValueSets entries =>
    let band := (entries.getD []).foldl (readPermittedEntry decimals parameters) .new
    if band.isEmpty then none else some band
  | _ => none

end Range

end Eebus.Emobility
