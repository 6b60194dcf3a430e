import Eebus.Emobility.Limits
import Eebus.Library.Machine
import Eebus.Spine.Header

/-!
One car, and where the Energy Guard of the overload protection has got to with it: what it has
learned of the car's bands, and the currents it writes.
-/

namespace Eebus.Emobility

open Eebus.Library Eebus.Model Eebus.Spine

variable {α : Type}

structure TrackedEv (α : Type) where
  purpose : Purpose
  bound : Bool
  bindingRequest : Option MsgCounter
  /-- The band this car said it can charge in, per phase. -/
  band : ChargingBand α
  /-- The permitted values as they arrived; they are read again with every description. -/
  permitted : Option CarData
  phases : List PhaseName
  limits : PhaseLimits
  required : Option (ChargingCurrents α)
  outstanding : Option (MsgCounter × ChargingCurrents α)
  applied : Option (ChargingCurrents α)
  readyReported : Bool

/-- What the guard reports of one car. -/
inductive CarEvent (α : Type)
  | ready (band : ChargingBand α)
  | accepted (currents : ChargingCurrents α)
  | refused (error : ErrorNumber)
  | unresponsive
deriving DecidableEq

/-- What became of a curtailment that may have been due. -/
inductive Curtailment
  | notDue
  | sent (list : LoadControlLimitListData)
  /-- The code stopped at a band with its bounds the wrong way round. -/
  | stopped
deriving DecidableEq

namespace TrackedEv

/-- A car the guard has just attached to, its binding asked for. -/
def new (purpose : Purpose) (bindingRequest : MsgCounter) : TrackedEv α where
  purpose := purpose
  bound := false
  bindingRequest := some bindingRequest
  band := .new
  permitted := none
  phases := Emobility.phases
  limits := .new
  required := none
  outstanding := none
  applied := none
  readyReported := false

def require (ev : TrackedEv α) (currents : ChargingCurrents α) : TrackedEv α :=
  { ev with required := some currents }

variable [LE α] [DecidableLE α] [LT α] [DecidableLT α] [Min α] [Max α] [BEq α]
  (decimals : Decimals α)

def resolveBand (ev : TrackedEv α) : TrackedEv α :=
  match ev.permitted.bind fun data => readPermittedRange decimals data ev.limits.parameters with
  | some band => { ev with band := band }
  | none => ev

/-- Writes the required currents, held inside the car's bands, when a write is due. `counter` is
the counter the engine gives the write. -/
def writeIfDue (ev : TrackedEv α) (counter : MsgCounter) : TrackedEv α × Curtailment :=
  if !ev.bound || ev.outstanding.isSome || !ev.limits.isKnown then (ev, .notDue)
  else
    match ev.required with
    | none => (ev, .notDue)
    | some required =>
      if ev.applied == some required then (ev, .notDue)
      else
        match required.clamped ev.band with
        | none => (ev, .stopped)
        | some currents =>
          ({ ev with outstanding := some (counter, currents) },
            .sent (if currents.isEmpty then deactivated ev.phases ev.limits
              else limitData decimals currents true ev.limits))

def reportReady (ev : TrackedEv α) (counter : MsgCounter) :
    TrackedEv α × Curtailment × Option (CarEvent α) :=
  if ev.bound && !ev.band.isEmpty && !ev.readyReported && ev.limits.isKnown then
    let (written, curtailment) := { ev with readyReported := true }.writeIfDue decimals counter
    (written, curtailment, some (.ready ev.band))
  else (ev, .notDue, none)

def onPublished (ev : TrackedEv α) (data : CarData) (counter : MsgCounter) :
    TrackedEv α × Curtailment × Option (CarEvent α) :=
  let (limits, learned) := ev.limits.learn data ev.purpose
  let ev := { ev with limits := limits }
  if learned then
    let ev := { ev with phases := (readPhases data).getD ev.phases }
    (ev.resolveBand decimals).reportReady decimals counter
  else
    match data with
    | .permittedValueSets _ =>
      ({ ev with permitted := some data }.resolveBand decimals).reportReady decimals counter
    | _ => (ev, .notDue, none)

def resolve (ev : TrackedEv α) (request : MsgCounter) (error : ErrorNumber)
    (counter : MsgCounter) : TrackedEv α × Curtailment × Option (CarEvent α) :=
  if ev.bindingRequest = some request then
    { ev with bindingRequest := none, bound := error.isSuccess }.reportReady decimals counter
  else
    match ev.outstanding with
    | some (written, currents) =>
      if written = request then
        if error.isSuccess then
          ({ ev with outstanding := none, applied := some currents }, .notDue,
            some (.accepted currents))
        else ({ ev with outstanding := none }, .notDue, some (.refused error))
      else (ev, .notDue, none)
    | none => (ev, .notDue, none)

def giveUp (ev : TrackedEv α) (request counter : MsgCounter) :
    TrackedEv α × Curtailment × Option (CarEvent α) :=
  let writing := ev.outstanding.any fun written => written.1 == request
  if writing || ev.bindingRequest == some request then
    let ev :=
      if ev.bindingRequest = some request then { ev with bindingRequest := none } else ev
    if writing then
      -- still required, so still owed
      let (ev, curtailment) := { ev with outstanding := none }.writeIfDue decimals counter
      (ev, curtailment, some .unresponsive)
    else (ev, .notDue, some .unresponsive)
  else (ev, .notDue, none)

end TrackedEv

inductive CarInput (α : Type)
  | published (data : CarData)
  | resultReceived (request : MsgCounter) (error : ErrorNumber)
  | requestTimedOut (request : MsgCounter)
  | require (currents : ChargingCurrents α)
  | timeout

/-- An input with the counter the engine gives the write it may lead to. -/
structure CarCall (α : Type) where
  input : CarInput α
  counter : MsgCounter

section Machine

variable [LE α] [DecidableLE α] [LT α] [DecidableLT α] [Min α] [Max α] [BEq α]
  (decimals : Decimals α)

def curtailing : Machine (TrackedEv α) (CarCall α) (Curtailment × Option (CarEvent α)) where
  step ev call :=
    match call.input with
    | .published data => ev.onPublished decimals data call.counter
    | .resultReceived request error => ev.resolve decimals request error call.counter
    | .requestTimedOut request => ev.giveUp decimals request call.counter
    | .require currents => (ev.require currents, .notDue, none)
    | .timeout =>
      let (ev, curtailment) := ev.writeIfDue decimals call.counter
      (ev, curtailment, none)

end Machine

section Bands

variable [LinearOrder α]

def ChargingBand.Ordered (band : ChargingBand α) : Prop :=
  ∀ known ∈ band.perPhase, known.2.1 ≤ known.2.2

namespace ChargingBand

theorem ordered_new : (new : ChargingBand α).Ordered := by simp [Ordered, new]

theorem Ordered.withBand {band : ChargingBand α} (h : band.Ordered) (phase : PhaseName)
    (min max : α) : (band.withBand phase min max).Ordered :=
  forall_mem_upsert (Band.ordered_le min max) h

theorem Ordered.readPermittedEntry {band : ChargingBand α} (h : band.Ordered)
    (decimals : Decimals α) (parameters : ParameterIds) (entry : PermittedValueSet) :
    (readPermittedEntry decimals parameters band entry).Ordered := by
  unfold Emobility.readPermittedEntry
  split
  · exact h.withBand _ _ _
  · exact h

theorem ordered_of_readPermittedRange {decimals : Decimals α} {data : CarData}
    {parameters : ParameterIds} {band : ChargingBand α}
    (h : readPermittedRange decimals data parameters = some band) : band.Ordered := by
  unfold readPermittedRange at h
  split at h
  case h_1 entries =>
    dsimp only at h
    split at h
    case isTrue => cases h
    case isFalse =>
      cases Option.some.inj h
      exact foldl_preserves (fun band entry hb => hb.readPermittedEntry decimals parameters entry)
        _ ordered_new
  case h_2 => cases h

end ChargingBand

namespace TrackedEv

variable {ev : TrackedEv α} {decimals : Decimals α}

@[simp] theorem writeIfDue_band (ev : TrackedEv α) (counter : MsgCounter) :
    (ev.writeIfDue decimals counter).1.band = ev.band := by
  unfold writeIfDue
  repeat' split
  all_goals rfl

@[simp] theorem reportReady_band (ev : TrackedEv α) (counter : MsgCounter) :
    (ev.reportReady decimals counter).1.band = ev.band := by
  unfold reportReady
  split
  · simp
  · rfl

theorem resolveBand_ordered (h : ev.band.Ordered) : (ev.resolveBand decimals).band.Ordered := by
  unfold resolveBand
  split
  case h_1 band hband =>
    obtain ⟨data, -, hread⟩ := Option.bind_eq_some_iff.mp hband
    exact ChargingBand.ordered_of_readPermittedRange hread
  case h_2 => exact h

theorem onPublished_ordered (h : ev.band.Ordered) (data : CarData) (counter : MsgCounter) :
    (ev.onPublished decimals data counter).1.band.Ordered := by
  unfold onPublished
  dsimp only
  split
  · rw [reportReady_band]
    exact resolveBand_ordered h
  · split
    · rw [reportReady_band]
      exact resolveBand_ordered h
    · exact h

theorem resolve_band (ev : TrackedEv α) (request : MsgCounter) (error : ErrorNumber)
    (counter : MsgCounter) : (ev.resolve decimals request error counter).1.band = ev.band := by
  unfold resolve
  split
  · simp
  · repeat' split
    all_goals rfl

theorem giveUp_band (ev : TrackedEv α) (request counter : MsgCounter) :
    (ev.giveUp decimals request counter).1.band = ev.band := by
  unfold giveUp
  dsimp only
  split
  · split <;> split <;> simp
  · rfl

theorem next_ordered (h : ev.band.Ordered) (call : CarCall α) :
    ((curtailing decimals).next ev call).band.Ordered := by
  obtain ⟨input, counter⟩ := call
  cases input with
  | published data => exact onPublished_ordered h data counter
  | resultReceived request error => exact (ev.resolve_band request error counter).symm ▸ h
  | requestTimedOut request => exact (ev.giveUp_band request counter).symm ▸ h
  | require currents => exact h
  | timeout => exact (ev.writeIfDue_band counter).symm ▸ h

theorem run_ordered (purpose : Purpose) (bindingRequest : MsgCounter) (calls : List (CarCall α)) :
    ((curtailing decimals).run (.new purpose bindingRequest) calls).band.Ordered :=
  (curtailing decimals).run_invariant (fun _ _ => True) (fun ev => ev.band.Ordered)
    (fun _ call h _ => next_ordered h call) calls _ ChargingBand.ordered_new
    ((curtailing decimals).admits_of_forall (fun _ _ => trivial) calls _)

end TrackedEv

end Bands

end Eebus.Emobility
