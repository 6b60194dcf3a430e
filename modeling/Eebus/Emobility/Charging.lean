import Eebus.Emobility.Currents
import Eebus.Library.Binary64
import Eebus.Library.Duration
import Eebus.Library.Machine

/-!
The car's side of the charging current curtailments: what current it charges at, and why. The
amperes are of any type with the comparisons the code makes.
-/

namespace Eebus.Emobility

open Eebus.Library

def heartbeatTimeout : Nat := fromSecs 4

inductive CurrentSource
  | notYetCurtailed
  | curtailed
  | guardSilent
  | guardFailed
deriving DecidableEq, Repr

variable {α : Type*}

structure EvCharging (α : Type*) where
  safe : ChargingCurrents α
  limit : Option (ChargingCurrents α)
  range : Option (Band α)
  lastHeartbeat : Option Nat
  guardFailed : Bool
  timeout : Nat
  now : Nat
deriving DecidableEq, Repr

namespace EvCharging

/-- A car that falls back to `safe` when the Energy Guard is not to be relied on. -/
def new (safe : ChargingCurrents α) (now : Nat) : EvCharging α where
  safe := safe
  limit := none
  range := none
  lastHeartbeat := none
  guardFailed := false
  timeout := heartbeatTimeout
  now := now

def withTimeout (ev : EvCharging α) (timeout : Nat) : EvCharging α :=
  { ev with timeout := min timeout heartbeatTimeout }

def withRange (ev : EvCharging α) (min max : α) : EvCharging α :=
  { ev with range := some (min, max) }

def onHeartbeat (ev : EvCharging α) (now : Nat) : EvCharging α :=
  { ev with now := max ev.now now, lastHeartbeat := some now }

def onGuardState (ev : EvCharging α) (failed : Bool) : EvCharging α :=
  { ev with guardFailed := failed }

def handleTimeout (ev : EvCharging α) (now : Nat) : EvCharging α :=
  { ev with now := max ev.now now }

def pollTimeout (ev : EvCharging α) : Option Nat := ev.lastHeartbeat.map fun last => last + ev.timeout

def source (ev : EvCharging α) : CurrentSource :=
  if ev.guardFailed then .guardFailed
  else
    match ev.lastHeartbeat with
    | none => .notYetCurtailed
    | some last =>
      if ev.timeout ≤ ev.now - last then .guardSilent
      else if ev.limit.isSome then .curtailed
      else .notYetCurtailed

def effective (ev : EvCharging α) (phase : PhaseName) : Option α :=
  match ev.source with
  | .curtailed => ev.limit.bind fun limit => limit.get phase
  | _ => ev.safe.get phase

variable [LE α] [DecidableLE α] [LT α] [DecidableLT α] [Min α] [Max α]

def held (ev : EvCharging α) (currents : ChargingCurrents α) : Option (ChargingCurrents α) :=
  match ev.range with
  | some (min, max) => currents.clamped (.uniform min max)
  | none => some currents

/-- Applies a curtailment. One that names no phase lifts it. There is no answer where the bounds
of the car's own band cannot be put in order. -/
def onLimit (ev : EvCharging α) (currents : ChargingCurrents α) (now : Nat) :
    EvCharging α × Option Bool :=
  let ev := { ev with now := max ev.now now }
  if currents.isEmpty then
    -- a write that lifts everything also stands in for a first heartbeat
    ({ ev with limit := some currents, lastHeartbeat := some (ev.lastHeartbeat.getD now) },
      some true)
  else
    match ev.held currents with
    | some currents => ({ ev with limit := some currents }, some true)
    | none => (ev, none)

end EvCharging

/-- A car as it is put together, before anything happens to it. -/
inductive Built : EvCharging α → Prop
  | new (safe : ChargingCurrents α) (now : Nat) : Built (.new safe now)
  | withTimeout {car : EvCharging α} (h : Built car) (timeout : Nat) : Built (car.withTimeout timeout)
  | withRange {car : EvCharging α} (h : Built car) (min max : α) : Built (car.withRange min max)

theorem Built.unheard {car : EvCharging α} (h : Built car) :
    car.lastHeartbeat = none ∧ car.guardFailed = false := by
  induction h with
  | new safe now => exact ⟨rfl, rfl⟩
  | withTimeout _ timeout ih => exact ih
  | withRange _ min max ih => exact ih

/-- One call on the car. -/
inductive ChargingCall (α : Type*)
  | heartbeat (now : Nat)
  | guardState (failed : Bool)
  | limit (currents : ChargingCurrents α) (now : Nat)
  | timeout (now : Nat)
deriving DecidableEq, Repr

section Machine

variable [LE α] [DecidableLE α] [LT α] [DecidableLT α] [Min α] [Max α]

/-- The car as a machine over its calls; limits are answered. -/
def charging : Machine (EvCharging α) (ChargingCall α) (Option Bool) where
  step ev call :=
    match call with
    | .heartbeat now => (ev.onHeartbeat now, none)
    | .guardState failed => (ev.onGuardState failed, none)
    | .limit currents now => ev.onLimit currents now
    | .timeout now => (ev.handleTimeout now, none)

end Machine

abbrev Call (α : Type*) := Event (EvCharging α) (ChargingCall α) (Option Bool)

def heartbeats (past : List (Call α)) : List Nat :=
  past.filterMap fun e =>
    match e.input with
    | .heartbeat now => some now
    | _ => none

def reported (past : List (Call α)) : Option Bool :=
  past.findSome? fun e =>
    match e.input with
    | .guardState failed => some failed
    | _ => none

/-- The car follows its guard only while it hears it, and is on its safe current otherwise. -/
def FollowsHeard (safe : ChargingCurrents α) (timeout : Nat) (ev : EvCharging α)
    (past : List (Call α)) : Prop :=
  (ev.source = .curtailed →
    (∃ heard ∈ heartbeats past, ev.now - heard < timeout) ∧ reported past ≠ some true) ∧
  (ev.source ≠ .curtailed → ∀ phase, ev.effective phase = safe.get phase)

/-- The call does not lift every limit before a first heartbeat. -/
def WaitsForHeartbeat (ev : EvCharging α) : ChargingCall α → Prop
  | .limit currents _ => currents.isEmpty = true → ev.lastHeartbeat.isSome = true
  | _ => True

instance (ev : EvCharging α) : ∀ call, Decidable (WaitsForHeartbeat ev call)
  | .limit _ _ => inferInstanceAs (Decidable (_ → _))
  | .heartbeat _ => .isTrue trivial
  | .guardState _ => .isTrue trivial
  | .timeout _ => .isTrue trivial

section Runs

variable {safe : ChargingCurrents α} {timeout : Nat} {ev : EvCharging α} {past : List (Call α)}

/-- What the fields of the car say about the history of the run. -/
structure Watched (safe : ChargingCurrents α) (timeout : Nat) (ev : EvCharging α)
    (past : List (Call α)) : Prop where
  safe : ev.safe = safe
  timeout : ev.timeout = timeout
  heard : ∀ t, ev.lastHeartbeat = some t → t ∈ heartbeats past
  failed : ev.guardFailed = (reported past).getD false

theorem Watched.follows (h : Watched safe timeout ev past) :
    FollowsHeard safe timeout ev past := by
  constructor
  · intro hsource
    unfold EvCharging.source at hsource
    split at hsource
    case isTrue => cases hsource
    case isFalse hnofail =>
      cases hlast : ev.lastHeartbeat with
      | none => simp [hlast] at hsource
      | some last =>
        simp only [hlast] at hsource
        split at hsource
        case isTrue => cases hsource
        case isFalse hrecent =>
          refine ⟨⟨last, h.heard last hlast, h.timeout ▸ not_le.mp hrecent⟩, fun hreported => ?_⟩
          exact hnofail (by simp [h.failed, hreported])
  · intro hsource phase
    rw [← h.safe]
    unfold EvCharging.effective
    split
    case h_1 hc => exact absurd hc hsource
    case h_2 => rfl

variable [LE α] [DecidableLE α] [LT α] [DecidableLT α] [Min α] [Max α]

theorem onLimit_watchdog (ev : EvCharging α) (currents : ChargingCurrents α) (now : Nat)
    (h : currents.isEmpty = true → ev.lastHeartbeat.isSome = true) :
    (ev.onLimit currents now).1.safe = ev.safe ∧ (ev.onLimit currents now).1.timeout = ev.timeout ∧
      (ev.onLimit currents now).1.guardFailed = ev.guardFailed ∧
      (ev.onLimit currents now).1.lastHeartbeat = ev.lastHeartbeat := by
  unfold EvCharging.onLimit
  split
  case isTrue hempty =>
    obtain ⟨last, hlast⟩ := Option.isSome_iff_exists.mp (h hempty)
    simp [hlast]
  case isFalse =>
    dsimp only
    split <;> exact ⟨rfl, rfl, rfl, rfl⟩

theorem Watched.step (h : Watched safe timeout ev past) {call : ChargingCall α}
    (hwaits : WaitsForHeartbeat ev call) : Watched safe timeout (charging.next ev call)
      (⟨ev, call, (charging.step ev call).2, charging.next ev call⟩ :: past) := by
  cases call with
  | heartbeat now =>
    refine ⟨h.safe, h.timeout, fun t ht => ?_, h.failed⟩
    cases Option.some.inj ht
    exact List.mem_cons_self
  | guardState failed => exact ⟨h.safe, h.timeout, h.heard, rfl⟩
  | limit currents now =>
    obtain ⟨hsafe, htimeout, hfailed, hlast⟩ := onLimit_watchdog ev currents now hwaits
    exact ⟨hsafe.trans h.safe, htimeout.trans h.timeout, fun t ht => h.heard t (hlast ▸ ht),
      hfailed.trans h.failed⟩
  | timeout now => exact ⟨h.safe, h.timeout, h.heard, h.failed⟩

/-- A run in which no write lifts every limit before a first heartbeat: in every state it reaches
the car is curtailed only on a recent heartbeat of a guard that reports no failure, and on its
safe current otherwise. -/
theorem car_follows_what_it_hears {car : EvCharging α} (hbuilt : Built car)
    (calls : List (ChargingCall α)) (hwaits : charging.Admits WaitsForHeartbeat car calls) :
    let r := charging.recorded.run (car, []) calls
    FollowsHeard car.safe car.timeout r.1 r.2 := by
  obtain ⟨hlast, hguard⟩ := hbuilt.unheard
  have hinit : Watched car.safe car.timeout car [] :=
    ⟨rfl, rfl, fun t ht => by simp [hlast] at ht, by simp [hguard, reported]⟩
  have hadmits := (charging.admits_recorded calls car []).mpr hwaits
  exact (charging.recorded.run_invariant (fun p => WaitsForHeartbeat p.1)
    (fun p => Watched car.safe car.timeout p.1 p.2) (fun p call hp hcall => hp.step hcall)
    calls _ hinit hadmits).follows

/-- Six amperes, the least a car may charge at. -/
def sixAmperes : F64 := ⟨0x4018000000000000⟩

/-- A heartbeat, a limit of nothing, silence. -/
theorem car_follows_what_it_hears_once :
    let car := EvCharging.new (.same sixAmperes) 0
    let calls : List (ChargingCall F64) := [.heartbeat (fromSecs 1), .limit .default (fromSecs 1),
      .timeout (fromSecs 2)]
    charging.Admits WaitsForHeartbeat car calls ∧
      FollowsHeard car.safe car.timeout (charging.recorded.run (car, []) calls).1
        (charging.recorded.run (car, []) calls).2 :=
  ⟨by decide, car_follows_what_it_hears (.new _ _) _ (by decide)⟩

/-- A write that lifts every limit before any heartbeat takes the car off its safe current. -/
theorem unheard_guard_lifts_the_limit :
    let car := EvCharging.new (.same sixAmperes) 0
    let r := charging.recorded.run (car, []) [.limit .default (fromSecs 1)]
    ¬FollowsHeard car.safe car.timeout r.1 r.2 := by
  intro car r h
  obtain ⟨⟨heard, hheard, -⟩, -⟩ := h.1 (by decide)
  have hsilent : heartbeats r.2 = [] := rfl
  simp [hsilent] at hheard

end Runs

end Eebus.Emobility
