import Eebus.Emobility.Charging
import Eebus.Emobility.Limits
import Eebus.Limitation.Deciding

/-!
The car over its engine: what it publishes, how it hears its Energy Guard, and how it decides on a
write of its limits.
-/

namespace Eebus.Emobility

open Eebus.Library Eebus.Model Eebus.Spine
open Eebus.Limitation (offerBoth)

inductive DeviceDiagnosisOperatingState
  | normalOperation
  | standby
  | failure
  | serviceNeeded
  | overrideDetected
  | inAlarm
  | notReachable
  | finished
  | temporarilyNotReady
  | off
  | other (name : String)
deriving DecidableEq

def isFailure : DeviceDiagnosisOperatingState → Bool
  | .failure | .serviceNeeded | .inAlarm | .notReachable => true
  | _ => false

/-- How the schema carries the functions it has no alternative of its own for. -/
structure CarFunctions (S : Schema) where
  parameterDescriptions : Option (List ParameterDescription) → CmdData S
  permittedValueSets : Option (List PermittedValueSet) → CmdData S
  readOperatingState : CmdData S → Option DeviceDiagnosisOperatingState

inductive EvEvent
  | curtailed (request : MsgCounter) (currents : ChargingCurrents F64)
  | refused (request : MsgCounter)
  | sourceChanged (before after : CurrentSource)
deriving DecidableEq

structure EvActor where
  purpose : Purpose
  charging : EvCharging F64
  loadControl : FeatureAddress
  electricalConnection : FeatureAddress
  phases : List PhaseName
  range : F64 × F64
  /-- The Energy Guard's `DeviceDiagnosis`, once discovery has found it. -/
  guardDiagnosis : Option FeatureAddress
  lastSource : CurrentSource

def limitDescriptions (purpose : Purpose) (phases : List PhaseName) :
    LoadControlLimitDescriptionListData :=
  ⟨some (phases.filterMap fun phase =>
    (limitId phase).map fun id =>
      { limitId := some id
        limitType := some "maxValueLimit"
        limitCategory := some purpose.limitCategory
        limitDirection := none
        measurementId := some id
        unit := some "A"
        scopeType := some purpose.scopeType })⟩

def permittedValueSets (connection : Nat) (min max : F64) (phases : List PhaseName) :
    List PermittedValueSet :=
  phases.filterMap fun phase =>
    (limitId phase).map fun id =>
      { electricalConnectionId := some connection
        parameterId := some id
        permittedValueSet := some [⟨some [⟨some (binaryDecimals.fromValue min),
          some (binaryDecimals.fromValue max)⟩]⟩] }

def readLimits {S : Schema} (data : CmdData S) : Option (ChargingCurrents F64) :=
  match data with
  | ⟨.loadControlLimitListData, list⟩ => readLimitWrite binaryDecimals list
  | _ => none

namespace EvActor

def new (purpose : Purpose) (charging : EvCharging F64)
    (loadControl electricalConnection : FeatureAddress) (phases : List PhaseName)
    (range : F64 × F64) : EvActor where
  purpose := purpose
  charging := charging
  loadControl := loadControl
  electricalConnection := electricalConnection
  phases := phases
  range := range
  guardDiagnosis := none
  lastSource := charging.source

def inForce (actor : EvActor) : Bool := decide (actor.charging.source = .curtailed)

def limitList (actor : EvActor) : LoadControlLimitListData :=
  match actor.charging.limit with
  | some limit =>
    if limit.isEmpty then deactivated actor.phases (.own actor.phases)
    else limitData binaryDecimals limit actor.inForce (.own actor.phases)
  | none => deactivated actor.phases (.own actor.phases)

variable {S : Schema} (functions : CarFunctions S)

def publish (actor : EvActor) (e : Engine S) : Engine S :=
  let (e, changed) := offerBoth e actor.loadControl
    ⟨.loadControlLimitDescriptionListData, limitDescriptions actor.purpose actor.phases⟩
    ⟨.loadControlLimitListData, actor.limitList⟩
  let parameters := match Emobility.parameterDescriptions Emobility.electricalConnection actor.phases with
    | .parameterDescriptions entries => entries
    | _ => none
  let (e, _) := offerBoth e actor.electricalConnection (functions.parameterDescriptions parameters)
    (functions.permittedValueSets (some
      (permittedValueSets Emobility.electricalConnection actor.range.1 actor.range.2 actor.phases)))
  if changed then e.notify actor.loadControl (.known .loadControlLimitListData) else e

def watch (actor : EvActor) (e : Engine S) (guardDiagnosis : FeatureAddress) (now : Nat) :
    EvActor × Engine S :=
  ({ actor with guardDiagnosis := some guardDiagnosis },
    (e.requestSubscription actor.loadControl guardDiagnosis now).1)

def settle (actor : EvActor) (e : Engine S) : EvActor × Engine S × Option EvEvent :=
  let source := actor.charging.source
  if source = actor.lastSource then (actor, e, none)
  else
    let moved := { actor with lastSource := source }
    (moved, moved.publish functions e, some (.sourceChanged actor.lastSource source))

def pollTimeout (actor : EvActor) : Option Nat := actor.charging.pollTimeout

def handleTimeout (actor : EvActor) (e : Engine S) (now : Nat) :
    EvActor × Engine S × Option EvEvent :=
  settle functions { actor with charging := actor.charging.handleTimeout now } e

def onData (actor : EvActor) (e : Engine S) (feature : FeatureAddress) (resolved : CmdData S)
    (now : Nat) : EvActor × Engine S × Option EvEvent :=
  if actor.guardDiagnosis ≠ some feature then (actor, e, none)
  else
    let beat := (Limitation.readHeartbeat resolved).isSome
    let charging := if beat then actor.charging.onHeartbeat now else actor.charging
    let state := functions.readOperatingState resolved
    let charging := match state with
      | some state => charging.onGuardState (isFailure state)
      | none => charging
    let actor := { actor with charging := charging }
    if beat || state.isSome then actor.settle functions e else (actor, e, none)

def followed (actor : EvActor) (currents : ChargingCurrents F64) : ChargingCurrents F64 :=
  Emobility.phases.foldl
    (fun currents phase => if phase ∈ actor.phases then currents else currents.set phase none) currents

def refuse (actor : EvActor) (e : Engine S) (write : WriteRequest S) :
    EvActor × Engine S × EvEvent :=
  (actor, (e.rejectWrite write.token .commandRejected).1, .refused write.request)

def decide (actor : EvActor) (e : Engine S) (write : WriteRequest S) (now : Nat) :
    Option (EvActor × Engine S × EvEvent) :=
  match readLimits write.data, readLimits write.resolved with
  | some written, some resolved =>
    let currents := actor.followed resolved
    if !written.isEmpty && currents.isEmpty then some (actor.refuse e write)
    else
      match actor.charging.onLimit currents now with
      | (_, none) => none
      | (charging, some false) => some ({ actor with charging := charging }.refuse e write)
      | (charging, some true) =>
        let actor := { actor with charging := charging }
        match e.acceptWrite write.token with
        | (e, .error _) => some (actor, actor.publish functions e, .refused write.request)
        | (e, .ok ()) =>
          -- what the Energy Guard reads back is what the car will charge at
          some (actor, actor.publish functions e, .curtailed write.request
            ⟨actor.charging.effective .a, actor.charging.effective .b, actor.charging.effective .c⟩)
  | _, _ => some (actor.refuse e write)

def handleEvent (actor : EvActor) (e : Engine S) (event : SpineEvent S) (now : Nat) :
    Option (EvActor × Engine S × Option EvEvent) :=
  match event with
  | .dataNotified feature _ resolved | .replyReceived feature _ resolved =>
    some (actor.onData functions e feature resolved now)
  | .writeRequested write =>
    if write.feature = actor.loadControl then
      (actor.decide functions e write now).map fun (actor, e, event) => (actor, e, some event)
    else some (actor, e, none)
  | _ => some (actor, e, none)

end EvActor

structure Plugged (S : Schema) where
  actor : EvActor
  engine : Engine S

/-- What can happen to a car and its engine: the calls on the car, with an event of the application's
choice or the next one of the engine, and every operation on the engine itself. -/
inductive EvCall (S : Schema)
  | publish
  | watch (guardDiagnosis : FeatureAddress) (now : Nat)
  | handleEvent (event : SpineEvent S) (now : Nat)
  | handleTimeout (now : Nat)
  | relay (now : Nat)
  | engine (op : EngineOp S)

namespace Plugged

variable {S : Schema} (functions : CarFunctions S)

def of (result : EvActor × Engine S × Option EvEvent) : Plugged S × Option EvEvent :=
  (⟨result.1, result.2.1⟩, result.2.2)

def serve (s : Plugged S) : EvCall S → Plugged S × Option EvEvent
  | .publish => ({ s with engine := s.actor.publish functions s.engine }, none)
  | .watch guardDiagnosis now =>
    let (actor, e) := s.actor.watch s.engine guardDiagnosis now
    (⟨actor, e⟩, none)
  | .handleEvent event now => ((s.actor.handleEvent functions s.engine event now).map of).getD (s, none)
  | .handleTimeout now => of (s.actor.handleTimeout functions s.engine now)
  | .relay now =>
    match s.engine.events with
    | [] => (s, none)
    | event :: rest =>
      let e := { s.engine with events := rest }
      ((s.actor.handleEvent functions e event now).map of).getD (⟨s.actor, e⟩, none)
  | .engine op => ({ s with engine := s.engine.perform op }, none)

def host : Machine (Plugged S) (EvCall S) (Option EvEvent) where
  step := serve functions

end Plugged

end Eebus.Emobility
