import Eebus.Emobility.PartialWrites
import Eebus.Library.Deadlines

/-!
The watchdogs over a peer's heartbeats: the car's and the monitor's. Each publishes the end of its
patience as its deadline and reports the loss there, but neither takes the deadline back: once a heartbeat
has been heard, a caller that waits on it is handed the same instant again.
-/

open Eebus.Library Eebus.Model Eebus.Spine

namespace Eebus.Emobility

variable {α : Type*}

namespace EvCharging

def alarm : Alarm (EvCharging α) := ⟨pollTimeout, handleTimeout⟩

/-- The curtailment no longer holds. -/
def Lost (ev : EvCharging α) (_ : Nat) : Prop := ev.source ≠ .curtailed

theorem pollTimeout_eq_none_iff {ev : EvCharging α} : ev.pollTimeout = none ↔ ev.lastHeartbeat = none :=
  Option.map_eq_none_iff

theorem lost_handleTimeout {ev : EvCharging α} {t : Nat} (h : ev.pollTimeout = some t) :
    (ev.handleTimeout t).Lost t := by
  obtain ⟨last, hlast, rfl⟩ := Option.map_eq_some_iff.mp h
  have hsilent : ev.timeout ≤ max ev.now (last + ev.timeout) - last := by omega
  unfold Lost source handleTimeout
  simp only [hlast, if_pos hsilent]
  split <;> nofun

theorem stops_iff {ev : EvCharging α} : alarm.Stops Lost ev ↔ ev.lastHeartbeat = none :=
  (Alarm.stops_iff_of_unmoved fun _ _ => rfl).trans pollTimeout_eq_none_iff

end EvCharging

/-- The call gives the car a heartbeat to measure from: one of the guard's, or a write that lifts every
limit. -/
def ChargingCall.Beats : ChargingCall α → Prop
  | .heartbeat _ => True
  | .limit currents _ => currents.isEmpty = true
  | .guardState _ | .timeout _ => False

section Runs

variable [LE α] [DecidableLE α] [LT α] [DecidableLT α] [Min α] [Max α]

theorem lastHeartbeat_next_eq_none_iff {ev : EvCharging α} {call : ChargingCall α} :
    (charging.next ev call).lastHeartbeat = none ↔ ev.lastHeartbeat = none ∧ ¬call.Beats := by
  cases call with
  | heartbeat now => exact ⟨nofun, fun h => absurd trivial h.2⟩
  | guardState failed => exact (and_iff_left id).symm
  | timeout now => exact (and_iff_left id).symm
  | limit currents now =>
    change (ev.onLimit currents now).1.lastHeartbeat = none ↔ ev.lastHeartbeat = none ∧ ¬currents.isEmpty = true
    rw [EvCharging.onLimit]
    by_cases hempty : currents.isEmpty = true
    · rw [if_pos hempty]
      exact ⟨nofun, fun h => absurd hempty h.2⟩
    · rw [if_neg hempty, and_iff_left hempty]
      dsimp only
      cases ({ ev with now := max ev.now now } : EvCharging α).held currents <;> exact Iff.rfl

theorem lastHeartbeat_run_eq_none_iff {calls : List (ChargingCall α)} {ev : EvCharging α} :
    (charging.run ev calls).lastHeartbeat = none ↔
      ev.lastHeartbeat = none ∧ ∀ call ∈ calls, ¬call.Beats := by
  induction calls generalizing ev with
  | nil => simp
  | cons call calls ih => rw [Machine.run_cons, ih, lastHeartbeat_next_eq_none_iff, List.forall_mem_cons, and_assoc]

end Runs

namespace EvActor

variable {S : Schema} (functions : CarFunctions S)

def alarm : Alarm (EvActor × Engine S) where
  due p := p.1.pollTimeout
  wake p t := ((p.1.handleTimeout functions p.2 t).1, (p.1.handleTimeout functions p.2 t).2.1)

theorem handleTimeout_charging (actor : EvActor) (e : Engine S) (now : Nat) :
    (actor.handleTimeout functions e now).1.charging = actor.charging.handleTimeout now := by
  unfold handleTimeout settle
  dsimp only
  split <;> rfl

theorem stops_iff {p : EvActor × Engine S} :
    (alarm functions).Stops (fun p => p.1.charging.Lost) p ↔ p.1.charging.lastHeartbeat = none := by
  refine (Alarm.stops_iff_of_unmoved fun p t => ?_).trans EvCharging.pollTimeout_eq_none_iff
  change (p.1.handleTimeout functions p.2 t).1.charging.pollTimeout = p.1.charging.pollTimeout
  rw [handleTimeout_charging]
  rfl

end EvActor

end Eebus.Emobility

namespace Eebus.Limitation

variable {S : Schema}

/-- One call on a monitor. -/
inductive MonitorCall (S : Schema)
  | observe (now : Nat)
  | observeData (data : CmdData S) (now : Nat)
  | timeout (now : Nat)

/-- When the call records a heartbeat, if it does. -/
def MonitorCall.beat : MonitorCall S → Option Nat
  | .observe now => some now
  | .observeData ⟨.deviceDiagnosisHeartbeatData, _⟩ now => some now
  | .observeData _ _ | .timeout _ => none

def MonitorCall.isLate (last timeout : Nat) : MonitorCall S → Bool
  | .timeout now => timeout ≤ now - last
  | .observe _ | .observeData _ _ => false

/-- The monitor as a machine over its calls, which answers whether a loss is reported. -/
def monitoring : Machine HeartbeatMonitor (MonitorCall S) Bool where
  step monitor call :=
    match call with
    | .observe now => (monitor.observe now, false)
    | .observeData data now => ((monitor.observeData data now).1, false)
    | .timeout now => monitor.handleTimeout now

namespace HeartbeatMonitor

def alarm : Alarm HeartbeatMonitor := ⟨pollTimeout, fun monitor t => (monitor.handleTimeout t).1⟩

/-- The peer is not alive. -/
def Lost (monitor : HeartbeatMonitor) (t : Nat) : Prop := monitor.isAlive t = false

variable {monitor : HeartbeatMonitor} {call : MonitorCall S} {last t : Nat}

theorem handleTimeout_last : (monitor.handleTimeout t).1.last = monitor.last := by
  unfold handleTimeout
  split <;> rfl

theorem handleTimeout_timeout : (monitor.handleTimeout t).1.timeout = monitor.timeout := by
  unfold handleTimeout
  split <;> rfl

theorem pollTimeout_handleTimeout : (monitor.handleTimeout t).1.pollTimeout = monitor.pollTimeout := by
  rw [pollTimeout, pollTimeout, handleTimeout_last, handleTimeout_timeout]

theorem lost_handleTimeout (h : monitor.pollTimeout = some t) : (monitor.handleTimeout t).1.Lost t := by
  obtain ⟨last, hlast, rfl⟩ := Option.map_eq_some_iff.mp h
  rw [Lost, isAlive, handleTimeout_last, handleTimeout_timeout, hlast]
  exact decide_eq_false (by omega)

theorem stops_iff : alarm.Stops Lost monitor ↔ monitor.last = none :=
  (Alarm.stops_iff_of_unmoved fun _ _ => pollTimeout_handleTimeout).trans Option.map_eq_none_iff

theorem last_next : (monitoring.next monitor call).last = call.beat.or monitor.last := by
  cases call with
  | observe now => rfl
  | observeData data now =>
    obtain ⟨f, payload⟩ := data
    cases f <;> rfl
  | timeout now => exact handleTimeout_last

theorem timeout_next : (monitoring.next monitor call).timeout = monitor.timeout := by
  cases call with
  | observe now => rfl
  | observeData data now =>
    obtain ⟨f, payload⟩ := data
    cases f <;> rfl
  | timeout now => exact handleTimeout_timeout

theorem timeout_run (calls : List (MonitorCall S)) : (monitoring.run monitor calls).timeout = monitor.timeout := by
  induction calls generalizing monitor with
  | nil => rfl
  | cons call calls ih => rw [Machine.run_cons, ih, timeout_next]

theorem last_run_eq_none_iff {calls : List (MonitorCall S)} :
    (monitoring.run monitor calls).last = none ↔ monitor.last = none ∧ ∀ call ∈ calls, call.beat = none := by
  induction calls generalizing monitor with
  | nil => simp
  | cons call calls ih =>
    rw [Machine.run_cons, ih, last_next, Option.or_eq_none_iff, List.forall_mem_cons, and_assoc, and_left_comm]

theorem reportedLost_next (h : call.beat = some last) : (monitoring.next monitor call).reportedLost = false := by
  cases call with
  | observe now => rfl
  | observeData data now =>
    obtain ⟨f, payload⟩ := data
    cases f with
    | deviceDiagnosisHeartbeatData => rfl
    | _ => cases h
  | timeout now => cases h

theorem step_silent (hlast : monitor.last = some last) (h : call.beat = none) :
    (monitoring.step monitor call).2 = (!monitor.reportedLost && call.isLate last monitor.timeout) ∧
      (monitoring.next monitor call).reportedLost =
        (monitor.reportedLost || call.isLate last monitor.timeout) := by
  cases call with
  | observe now => cases h
  | observeData data now =>
    obtain ⟨f, payload⟩ := data
    cases f with
    | deviceDiagnosisHeartbeatData => cases h
    | _ => exact ⟨(Bool.and_false _).symm, (Bool.or_false _).symm⟩
  | timeout now =>
    change (monitor.handleTimeout now).2 = _ ∧ (monitor.handleTimeout now).1.reportedLost = _
    have hlate : monitor.isAlive now = !(MonitorCall.timeout (S := S) now).isLate last monitor.timeout := by
      rw [isAlive, hlast, MonitorCall.isLate, ← decide_not]
      exact decide_eq_decide.mpr Nat.not_le.symm
    rw [handleTimeout, hlate, hlast]
    cases hreported : monitor.reportedLost <;>
      cases (MonitorCall.timeout (S := S) now).isLate last monitor.timeout <;> simp [hreported]

theorem outputs_unheard {calls : List (MonitorCall S)} (hlast : monitor.last = none)
    (h : ∀ call ∈ calls, call.beat = none) : (monitoring.outputs monitor calls).count true = 0 := by
  induction calls generalizing monitor with
  | nil => rfl
  | cons call calls ih =>
    obtain ⟨hcall, hcalls⟩ := List.forall_mem_cons.mp h
    have hquiet : (monitoring.step monitor call).2 = false := by
      cases call with
      | observe now => rfl
      | observeData data now => rfl
      | timeout now => simp [monitoring, handleTimeout, hlast]
    rw [Machine.outputs_cons, hquiet, List.count_cons_of_ne (by decide)]
    exact ih (last_next.trans (by rw [hcall, hlast]; rfl)) hcalls

theorem outputs_silent {calls : List (MonitorCall S)} (hlast : monitor.last = some last)
    (h : ∀ call ∈ calls, call.beat = none) : (monitoring.outputs monitor calls).count true =
      if !monitor.reportedLost && calls.any (·.isLate last monitor.timeout) then 1 else 0 := by
  induction calls generalizing monitor with
  | nil => simp
  | cons call calls ih =>
    obtain ⟨hcall, hcalls⟩ := List.forall_mem_cons.mp h
    obtain ⟨hout, hreported⟩ := step_silent hlast hcall
    have hlastnext : (monitoring.next monitor call).last = some last := by rw [last_next, hcall, hlast]; rfl
    rw [Machine.outputs_cons, List.count_cons, ih hlastnext hcalls, hout, hreported, timeout_next, List.any_cons]
    cases monitor.reportedLost <;> cases call.isLate last monitor.timeout <;> simp

/-- A run reports each outage once: nothing before the first heartbeat, and after each heartbeat the loss
once when a call comes late before the next one. -/
def ReportsOnce (monitor : HeartbeatMonitor) (calls : List (MonitorCall S)) : Prop :=
  (∀ silent, silent <+: calls → (∀ call ∈ silent, call.beat = none) →
    (monitoring.outputs monitor silent).count true = 0) ∧
  ∀ before beat silent last, before ++ beat :: silent <+: calls → beat.beat = some last →
    (∀ call ∈ silent, call.beat = none) →
    (monitoring.outputs (monitoring.run monitor (before ++ [beat])) silent).count true =
      if silent.any (·.isLate last monitor.timeout) then 1 else 0

theorem reportsOnce (hlast : monitor.last = none) (calls : List (MonitorCall S)) :
    monitor.ReportsOnce calls := by
  refine ⟨fun silent _ h => outputs_unheard hlast h, fun before beat silent last _ hbeat h => ?_⟩
  have hnow : (monitoring.run monitor (before ++ [beat])).last = some last := by
    rw [Machine.run_append, Machine.run_cons, Machine.run_nil, last_next, hbeat]
    rfl
  have hnew : (monitoring.run monitor (before ++ [beat])).reportedLost = false := by
    rw [Machine.run_append]
    exact reportedLost_next hbeat
  rw [outputs_silent hnow h, hnew, timeout_run]
  rfl

end HeartbeatMonitor

end Eebus.Limitation

namespace Eebus.Emobility

open Eebus.Limitation (HeartbeatMonitor MonitorCall monitoring)

variable {S : Schema}

/-- Both watchdogs report the loss as they should, the monitor once for each outage. They stop asking
exactly in the runs that never record a heartbeat, and the car over its engine exactly when the car in it
does. -/
theorem watchdog_stops_iff (functions : CarFunctions S) {car : EvCharging F64} (hbuilt : Built car)
    (calls : List (ChargingCall F64)) (timeout : Nat) (beats : List (MonitorCall S)) (actor : EvActor)
    (e : Engine S) :
    let watched := charging.run car calls
    let start := HeartbeatMonitor.new.withTimeout timeout
    let monitor := monitoring.run start beats
    (EvCharging.alarm.Stops EvCharging.Lost watched ↔ ∀ call ∈ calls, ¬call.Beats) ∧
    (HeartbeatMonitor.alarm.Stops HeartbeatMonitor.Lost monitor ∧ start.ReportsOnce beats ↔
      ∀ call ∈ beats, call.beat = none) ∧
    ((EvActor.alarm functions).Stops (fun p => p.1.charging.Lost) (actor, e) ↔
      EvCharging.alarm.Stops EvCharging.Lost actor.charging) ∧
    (∀ t, watched.pollTimeout = some t → (watched.handleTimeout t).Lost t) ∧
    (∀ t, monitor.pollTimeout = some t → (monitor.handleTimeout t).1.Lost t) ∧
    start.ReportsOnce beats := by
  intro watched start monitor
  have honce : start.ReportsOnce beats := HeartbeatMonitor.reportsOnce rfl beats
  refine ⟨?_, ?_, ?_, fun _ => EvCharging.lost_handleTimeout, fun _ => HeartbeatMonitor.lost_handleTimeout, honce⟩
  · rw [EvCharging.stops_iff, lastHeartbeat_run_eq_none_iff]
    exact and_iff_right hbuilt.unheard.1
  · rw [HeartbeatMonitor.stops_iff, and_iff_left honce, HeartbeatMonitor.last_run_eq_none_iff]
    exact and_iff_right rfl
  · rw [EvActor.stops_iff, EvCharging.stops_iff]

/-- One heartbeat and one curtailment: the deadline comes back unchanged however often it is waited for. -/
theorem curtailed_car_never_stops :
    let car := charging.run (EvCharging.new (.same sixAmperes) 0)
      [.heartbeat (fromSecs 1), .limit (.same sixAmperes) (fromSecs 1)]
    ¬EvCharging.alarm.Stops EvCharging.Lost car ∧
      (EvCharging.alarm.due car).isSome = true ∧
      ∀ n, EvCharging.alarm.due (EvCharging.alarm.wait^[n] car) = EvCharging.alarm.due car :=
  ⟨fun hstops => absurd (EvCharging.stops_iff.mp hstops) nofun, rfl,
    Alarm.due_iterate_of_unmoved (fun _ _ => rfl) _⟩

/-- Nothing has been heard yet. -/
theorem watchdog_stops_iff_unheard : EvCharging.alarm.Stops EvCharging.Lost
      (charging.run (EvCharging.new (.same sixAmperes) 0) [.timeout (fromSecs 9)]) :=
  (watchdog_stops_iff Scenario.carFunctions (.new (.same sixAmperes) 0) [.timeout (fromSecs 9)] 0 []
    Scenario.plugged.actor Scenario.plugged.engine).1.mpr (by simp [ChargingCall.Beats])

end Eebus.Emobility
