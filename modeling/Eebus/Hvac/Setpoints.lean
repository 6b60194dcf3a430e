import Eebus.Library.Bands
import Eebus.Library.Upsert
import Eebus.Model.Payload

/-!
A Configuration Appliance's view of one server's setpoints: what it learns of them from what the
server publishes, and what a server will make of a temperature.
-/

namespace Eebus.Hvac

open Eebus.Library Eebus.Model

/-- The numbers temperatures are, and how they are read from the wire. -/
structure Degrees (α : Type) where
  toValue : ScaledNumber → Option α
  /-- Rounds halfway cases away from zero. -/
  roundHalfAway : α → α

structure Constraints (α : Type) where
  min : α
  max : α
  step : Option α
deriving DecidableEq

section Rounding

variable {α : Type} [LinearOrder α] [Zero α] [Add α] [Sub α] [Mul α] [Div α]

def Constraints.permits (constraints : Constraints α) (degrees : α) : Bool :=
  decide (constraints.min ≤ degrees) && decide (degrees ≤ constraints.max)

/-- The value the server will hold, given its step. There is no answer where the range has its
bounds the wrong way round: the code stops there. -/
def Constraints.rounded (numbers : Degrees α) (constraints : Constraints α) (degrees : α) :
    Option α :=
  match constraints.step.filter (0 < ·) with
  | none => some degrees
  | some step =>
    let steps := numbers.roundHalfAway ((degrees - constraints.min) / step)
    clamp (constraints.min + steps * step) constraints.min constraints.max

end Rounding

structure SetpointDescriptionData where
  setpointId : Option Nat
  unit : Option String
  scopeType : Option String
deriving DecidableEq

structure SetpointConstraintsData where
  setpointId : Option Nat
  setpointRangeMin : Option ScaledNumber
  setpointRangeMax : Option ScaledNumber
  setpointStepSize : Option ScaledNumber
deriving DecidableEq

structure SetpointRelationData where
  systemFunctionId : Option Nat
  operationModeId : Option Nat
  setpointId : Option (List Nat)
deriving DecidableEq

inductive ServerData
  | descriptions (entries : Option (List SetpointDescriptionData))
  | constraints (entries : Option (List SetpointConstraintsData))
  | values (entries : Option (List SetpointData))
  | relations (entries : Option (List SetpointRelationData))
  | other
deriving DecidableEq

structure Setpoints (α : Type) where
  scope : String
  /-- The setpoints of the scope, with the unit each is in. -/
  temperatures : List (Nat × Option String)
  constraints : List (Nat × Constraints α)
  values : List (Nat × α)
  /-- By system function and operation mode. -/
  relations : List ((Nat × Nat) × List Nat)
deriving DecidableEq

namespace Setpoints

variable {α : Type} (numbers : Degrees α)

def ofScope (scope : String) : Setpoints α := ⟨scope, [], [], [], []⟩

def learnDescription (scope : String) (temperatures : List (Nat × Option String))
    (entry : SetpointDescriptionData) : List (Nat × Option String) :=
  match entry.setpointId with
  | none => temperatures
  | some id =>
    if entry.scopeType = some scope then upsert Prod.fst (id, entry.unit) temperatures
    else temperatures.filter fun known => known.1 != id

def readConstraints (entry : SetpointConstraintsData) : Option (Nat × Constraints α) := do
  let id ← entry.setpointId
  let min ← entry.setpointRangeMin.bind numbers.toValue
  let max ← entry.setpointRangeMax.bind numbers.toValue
  some (id, ⟨min, max, entry.setpointStepSize.bind numbers.toValue⟩)

def learnConstraints (constraints : List (Nat × Constraints α)) (entry : SetpointConstraintsData) :
    List (Nat × Constraints α) :=
  match readConstraints numbers entry with
  | some found => upsert Prod.fst found constraints
  | none => constraints

def learnValue (values : List (Nat × α)) (entry : SetpointData) : List (Nat × α) :=
  match entry.setpointId, entry.value.bind numbers.toValue with
  | some id, some value => upsert Prod.fst (id, value) values
  | _, _ => values

def learnRelation (relations : List ((Nat × Nat) × List Nat)) (entry : SetpointRelationData) :
    List ((Nat × Nat) × List Nat) :=
  match entry.systemFunctionId, entry.operationModeId with
  | some function, some mode =>
    upsert Prod.fst ((function, mode), entry.setpointId.getD []) relations
  | _, _ => relations

def learn (known : Setpoints α) : ServerData → Setpoints α × Bool
  | .descriptions entries =>
    ({ known with
        temperatures := (entries.getD []).foldl (learnDescription known.scope)
          known.temperatures }, true)
  | .constraints entries =>
    ({ known with
        constraints := (entries.getD []).foldl (learnConstraints numbers) known.constraints }, true)
  | .values entries =>
    ({ known with values := (entries.getD []).foldl (learnValue numbers) known.values }, true)
  | .relations entries =>
    ({ known with relations := (entries.getD []).foldl learnRelation known.relations }, true)
  | .other => (known, false)

/-- What the reader knows after a series of payloads. -/
def learnAll (known : Setpoints α) (published : List ServerData) : Setpoints α :=
  published.foldl (fun known data => (known.learn numbers data).1) known

def constraintsOf (known : Setpoints α) (id : Nat) : Option (Constraints α) :=
  (known.constraints.find? fun entry => entry.1 == id).map Prod.snd

def temperatureSetpoints (known : Setpoints α) : List Nat := known.temperatures.map Prod.fst

def temperature (known : Setpoints α) (id : Nat) : Option α :=
  (known.values.find? (hasKey Prod.fst id)).map Prod.snd

end Setpoints

end Eebus.Hvac
