import Eebus.Hvac.Setpoints
import Eebus.Hvac.SystemFunction

/-!
One entity of an appliance with every use case that is attached to it: the readers of its system
functions and of its setpoints, and what is reported of a payload that goes through all of them.
-/

namespace Eebus.Hvac

open Eebus.Library Eebus.Model

structure UnitId where
  device : String
  entity : List Nat
deriving DecidableEq

/-- What a use case is about: a system function, or the setpoints of one scope that it uses. -/
structure Subject where
  function : String
  overrun : Option String
  scope : Option String
deriving DecidableEq

/-- A payload of the two features of an entity. -/
inductive UnitData
  | hvac (data : HvacData)
  | server (data : ServerData)
deriving DecidableEq

def UnitData.hvacData : UnitData → HvacData
  | .hvac data => data
  | .server _ => .other

def UnitData.serverData : UnitData → ServerData
  | .hvac _ => .other
  | .server data => data

def HvacData.isOverruns : HvacData → Bool
  | .overruns _ => true
  | _ => false

inductive HvacEvent (α : Type)
  | functionDescribed (unit : UnitId) (function : String)
  | modeChanged (unit : UnitId) (function mode : String) (id : Nat)
  | overrunChanged (unit : UnitId) (function : String) (report : OverrunReport)
  | overrunFinished (unit : UnitId) (function : String)
  | setpointChanged (unit : UnitId) (setpoint : Nat) (degrees : α)
deriving DecidableEq

structure TrackedFunction where
  kind : String
  reader : SystemFunction
  described : Bool
  mode : Option Nat
  overrun : Option OverrunReport
deriving DecidableEq

/-- The setpoints of one scope, the system functions that use them, and the value that was last
reported for each. -/
structure TrackedSetpoints (α : Type) where
  scope : String
  reader : Setpoints α
  functions : List String
  seen : List (Nat × α)
deriving DecidableEq

structure TrackedUnit (α : Type) where
  id : UnitId
  functions : List TrackedFunction
  setpoints : List (TrackedSetpoints α)
deriving DecidableEq

namespace TrackedFunction

variable {α : Type} (unit : UnitId)

def ofSubject (subject : Subject) : TrackedFunction :=
  ⟨subject.function, .new subject.function subject.overrun, false, none, none⟩

def describedEvents (tracked : TrackedFunction) (reader : SystemFunction) : List (HvacEvent α) :=
  if !tracked.described && reader.isComplete then [.functionDescribed unit tracked.kind] else []

def modeEvents (tracked : TrackedFunction) (reader : SystemFunction) : List (HvacEvent α) :=
  match reader.modeId with
  | none => []
  | some mode =>
    if tracked.mode = some mode then []
    else
      match reader.kindOf mode with
      | none => []
      | some kind => [.modeChanged unit tracked.kind kind mode]

def overrunEvents (tracked : TrackedFunction) (reader : SystemFunction) : List (HvacEvent α) :=
  match reader.overrun with
  | none => []
  | some report =>
    if tracked.overrun = some report then [] else [.overrunChanged unit tracked.kind report]

def finishedEvents (tracked : TrackedFunction) (reader : SystemFunction) (data : HvacData) :
    List (HvacEvent α) :=
  if data.isOverruns && reader.overrunJustFinished then [.overrunFinished unit tracked.kind] else []

def take (tracked : TrackedFunction) (data : HvacData) : TrackedFunction × List (HvacEvent α) :=
  let (reader, learned) := tracked.reader.learn data
  if !learned then ({ tracked with reader := reader }, [])
  else
    ({ tracked with
        reader := reader
        described := tracked.described || reader.isComplete
        mode := reader.modeId
        overrun := reader.overrun },
      tracked.describedEvents unit reader ++ tracked.modeEvents unit reader ++
        tracked.overrunEvents unit reader ++ tracked.finishedEvents unit reader data)

end TrackedFunction

namespace TrackedSetpoints

variable {α : Type} [BEq α] (numbers : Degrees α) (unit : UnitId)

def ofScope (function scope : String) : TrackedSetpoints α := ⟨scope, .ofScope scope, [function], []⟩

def report (reader : Setpoints α) (acc : List (Nat × α) × List (HvacEvent α)) (setpoint : Nat) :
    List (Nat × α) × List (HvacEvent α) :=
  match reader.temperature setpoint with
  | none => acc
  | some degrees =>
    if (acc.1.find? (hasKey Prod.fst setpoint)).any fun stored => stored.2 == degrees then acc
    else (upsert Prod.fst (setpoint, degrees) acc.1,
      acc.2 ++ [.setpointChanged unit setpoint degrees])

def take (tracked : TrackedSetpoints α) (data : ServerData) :
    TrackedSetpoints α × List (HvacEvent α) :=
  let (reader, learned) := tracked.reader.learn numbers data
  if !learned then ({ tracked with reader := reader }, [])
  else
    let (seen, events) := reader.temperatureSetpoints.foldl (report unit reader) (tracked.seen, [])
    ({ tracked with reader := reader, seen := seen }, events)

end TrackedSetpoints

namespace TrackedUnit

variable {α : Type} [BEq α] (numbers : Degrees α)

def new (id : UnitId) : TrackedUnit α := ⟨id, [], []⟩

def attach (unit : TrackedUnit α) (subject : Subject) : TrackedUnit α :=
  match subject.scope with
  | some scope =>
    if unit.setpoints.any fun tracked => tracked.scope == scope then
      { unit with
        setpoints := modifyFirst (fun tracked => tracked.scope == scope)
          (fun tracked _ => if tracked.functions.contains subject.function then tracked
            else { tracked with functions := tracked.functions ++ [subject.function] }) unit.setpoints }
    else { unit with setpoints := unit.setpoints ++ [.ofScope subject.function scope] }
  | none =>
    if unit.functions.any fun tracked => tracked.kind == subject.function then unit
    else { unit with functions := unit.functions ++ [.ofSubject subject] }

def apply (unit : TrackedUnit α) (data : UnitData) : TrackedUnit α × List (HvacEvent α) :=
  let functions := unit.functions.map fun tracked => tracked.take unit.id data.hvacData
  let setpoints := unit.setpoints.map fun tracked => tracked.take numbers unit.id data.serverData
  ({ unit with functions := functions.map Prod.fst, setpoints := setpoints.map Prod.fst },
    functions.flatMap Prod.snd ++ setpoints.flatMap Prod.snd)

/-- The unit after a series of payloads, and everything it has reported. -/
def run (unit : TrackedUnit α) (history : List UnitData) : TrackedUnit α × List (HvacEvent α) :=
  history.foldl (fun acc data =>
    let (unit, events) := acc.1.apply numbers data
    (unit, acc.2 ++ events)) (unit, [])

/-- A unit with these use cases attached to it, before it has heard anything. -/
def following (id : UnitId) (subjects : List Subject) : TrackedUnit α := subjects.foldl attach (new id)

end TrackedUnit

end Eebus.Hvac
