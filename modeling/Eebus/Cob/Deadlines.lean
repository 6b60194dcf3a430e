import Eebus.Cob.History
import Eebus.Library.Deadlines
import Eebus.Library.Fallible
import Eebus.Limitation.State

/-!
Waiting on the deadlines of the two state machines: the deadline that is reported and the timers that
run out at it agree, so that a caller who does nothing but wait arrives at rest.
-/

open Eebus.Library

namespace Eebus.Limitation.ControllableSystem

def alarm : FallibleAlarm ControllableSystem Overflow := ⟨tryPollTimeout, handleTimeout⟩

variable {cs : ControllableSystem} {t : Nat}

/-- What is added up for the deadline is no longer than the longest `Duration`. -/
def DueFits (cs : ControllableSystem) : Prop :=
  match cs.state with
  | .limited | .unlimitedControlled => Addable cs.heardFrom heartbeatTimeout
  | .init => Addable cs.enteredStateAt settleTimeout
  | .failsafeState => Addable cs.enteredStateAt cs.config.failsafeDuration ∧
      ∀ since ∈ cs.awaitingWriteSince, Addable since settleTimeout
  | .unlimitedAutonomous => True

/-- When the silence of the guard will have begun if it stays silent: without a heartbeat it runs from the
end of a limit that ends first. -/
def silentFrom (cs : ControllableSystem) : Nat :=
  cs.lastHeartbeat.getD
    (if cs.state = .limited then
      (cs.limitExpiry.filter (· < cs.enteredStateAt + heartbeatTimeout)).getD cs.enteredStateAt
    else cs.enteredStateAt)

/-- And neither is what is added up for the deadlines that follow: out of control the system waits for the
failsafe duration. -/
def WayFits (cs : ControllableSystem) : Prop :=
  cs.DueFits ∧
    (cs.state.isControlled = true → Addable (cs.silentFrom + heartbeatTimeout) cs.config.failsafeDuration)

theorem tryPollTimeout_eq_ok_iff {due : Option Nat} :
    cs.tryPollTimeout = .ok due ↔ cs.DueFits ∧ cs.pollTimeout = due := by
  unfold tryPollTimeout DueFits pollTimeout deadlines
  cases cs.state with
  | failsafeState =>
    cases cs.awaitingWriteSince <;> simp [bind_eq_ok_iff, addDurations_eq_ok_iff, and_assoc]
  | _ => simp [bind_eq_ok_iff, addDurations_eq_ok_iff]

theorem deadlines_eq_nil_iff : cs.deadlines = [] ↔ cs.state = .unlimitedAutonomous := by
  unfold deadlines
  cases cs.state <;> simp

theorem pollTimeout_eq_none_iff : cs.pollTimeout = none ↔ cs.state = .unlimitedAutonomous := by
  rw [pollTimeout, List.min?_eq_none_iff, deadlines_eq_nil_iff]

theorem not_settled_of_mem_deadlines (h : t ∈ cs.deadlines) : ¬cs.Settled t := by
  rintro ⟨hheard, hexpiry, hinit, hfailsafe⟩
  unfold deadlines at h
  cases hs : cs.state with
  | init =>
    simp only [hs, List.mem_singleton] at h
    have := hinit hs
    omega
  | limited =>
    simp only [hs, List.mem_cons, Option.mem_toList] at h
    cases h with
    | inl h =>
      have := hheard (hs ▸ rfl)
      omega
    | inr h => exact absurd (hexpiry hs t h) (Nat.lt_irrefl t)
  | unlimitedControlled =>
    simp only [hs, List.mem_singleton] at h
    have := hheard (hs ▸ rfl)
    omega
  | failsafeState =>
    simp only [hs, List.mem_cons, Option.mem_toList, Option.map_eq_some_iff] at h
    obtain ⟨hminimum, hawaiting⟩ := hfailsafe hs
    cases h with
    | inl h => omega
    | inr h =>
      obtain ⟨since, hsince, rfl⟩ := h
      have := hawaiting since hsince
      omega
  | unlimitedAutonomous =>
    simp only [hs, List.not_mem_nil] at h

def toRest (cs : ControllableSystem) : Nat :=
  match cs.state with
  | .limited => 3
  | .unlimitedControlled => 2
  | .init | .failsafeState => 1
  | .unlimitedAutonomous => 0

theorem toRest_handleTimeout (h : cs.pollTimeout = some t) : (cs.handleTimeout t).toRest < cs.toRest := by
  have hdue := not_settled_of_mem_deadlines (List.min?_mem h)
  obtain ⟨-, hsettled⟩ | ⟨hs, -, he⟩ | ⟨hs, -, he⟩ | ⟨hs, he⟩ | ⟨hs, -, he⟩ := cs.handleTimeout_cases t
  · exact absurd hsettled hdue
  · rw [he]
    unfold toRest
    rw [enter_state]
    revert hs
    cases cs.state <;> decide
  all_goals
    rw [he]
    unfold toRest
    rw [enter_state, hs]
    decide

theorem wayFits_autonomous (hs : cs.state = .unlimitedAutonomous) : cs.WayFits := by
  simp [WayFits, DueFits, hs, LimitationState.isControlled]

theorem wayFits_enter_failsafe (hs : cs.state ≠ .failsafeState) :
    (cs.enter .failsafeState t).WayFits ↔ Addable t cs.config.failsafeDuration := by
  simp [WayFits, DueFits, enter, hs, LimitationState.isControlled]

theorem wayFits_enter_controlled (hs : cs.state = .limited) :
    (cs.enter .unlimitedControlled t).WayFits ↔
      Addable (cs.lastHeartbeat.getD t + heartbeatTimeout) cs.config.failsafeDuration := by
  have henter : cs.enter .unlimitedControlled t =
      { cs with state := .unlimitedControlled, enteredStateAt := t, awaitingWriteSince := none } := by
    simp [enter, hs, LimitationState.isFallback]
  rw [henter]
  simp only [WayFits, DueFits, heardFrom, silentFrom, LimitationState.isControlled, forall_const, Addable]
  rw [if_neg (by decide)]
  omega

theorem handleTimeout_limited_due (hs : cs.state = .limited) (h : cs.pollTimeout = some t) :
    cs.handleTimeout t = cs.enter .failsafeState t ∧ cs.silentFrom + heartbeatTimeout = t ∨
      cs.handleTimeout t = cs.enter .unlimitedControlled t ∧ cs.silentFrom = cs.lastHeartbeat.getD t := by
  have hdeadlines : ((cs.heardFrom + heartbeatTimeout) :: cs.limitExpiry.toList).min? = some t := by
    rw [← h, pollTimeout, deadlines, hs]
  have hpositive : heartbeatTimeout ≠ 0 := nofun
  rw [handleTimeout_limited hs, silentFrom, if_pos hs]
  obtain ⟨heq, hlater⟩ | ⟨hsooner, hexpiry⟩ := min?_cons_toList hdeadlines
  · refine .inl ⟨if_pos (by omega), ?_⟩
    rw [heardFrom] at heq
    cases hheard : cs.lastHeartbeat with
    | some heard => rw [heq, hheard, Option.getD_some, Option.getD_some]
    | none =>
      rw [hheard, Option.getD_none] at heq
      have hnone : cs.limitExpiry.filter (· < cs.enteredStateAt + heartbeatTimeout) = none :=
        Option.filter_eq_none_iff.mpr fun expiry hmem => by
          have hle := hlater expiry hmem
          simpa [← heq] using hle
      rw [hnone, Option.getD_none, Option.getD_none, heq]
  · refine .inr ⟨?_, ?_⟩
    · rw [if_neg (by omega), if_pos (by simp [hexpiry])]
    · rw [heardFrom] at hsooner
      cases hheard : cs.lastHeartbeat with
      | some heard => rfl
      | none =>
        rw [hheard, Option.getD_none] at hsooner
        rw [hexpiry, Option.getD_none, Option.getD_none]
        exact congrArg (fun expiry => Option.getD expiry cs.enteredStateAt) (if_pos (decide_eq_true hsooner))

theorem wayFits_handleTimeout (h : cs.pollTimeout = some t) : (cs.handleTimeout t).WayFits ↔
      (cs.state.isControlled = true → Addable (cs.silentFrom + heartbeatTimeout) cs.config.failsafeDuration) := by
  have hmem : t ∈ cs.deadlines := List.min?_mem h
  cases hs : cs.state with
  | init =>
    simp only [deadlines, hs, List.mem_singleton] at hmem
    have hrest : (cs.handleTimeout t).state = .unlimitedAutonomous := by
      rw [handleTimeout_init hs, if_pos (by omega), enter_state]
    exact iff_of_true (wayFits_autonomous hrest) fun hcontrolled => by cases hcontrolled
  | failsafeState =>
    obtain ⟨-, hsettled⟩ | ⟨hs', -⟩ | ⟨hs', -⟩ | ⟨hs', -⟩ | ⟨-, -, he⟩ := cs.handleTimeout_cases t
    · exact absurd hsettled (not_settled_of_mem_deadlines hmem)
    · simp [hs, LimitationState.isControlled] at hs'
    · simp [hs] at hs'
    · simp [hs] at hs'
    · exact iff_of_true (wayFits_autonomous (by rw [he, enter_state])) fun hcontrolled => by cases hcontrolled
  | unlimitedAutonomous => simp [deadlines, hs] at hmem
  | unlimitedControlled =>
    simp only [deadlines, hs, List.mem_singleton] at hmem
    have hsilent : cs.silentFrom + heartbeatTimeout = t := by
      rw [silentFrom, hs, if_neg (by decide), hmem, heardFrom]
    rw [handleTimeout_unlimitedControlled hs, if_pos (by omega), wayFits_enter_failsafe (by simp [hs]), hsilent]
    simp [LimitationState.isControlled]
  | limited =>
    obtain ⟨he, hsilent⟩ | ⟨he, hsilent⟩ := handleTimeout_limited_due hs h
    · rw [he, wayFits_enter_failsafe (by simp [hs]), hsilent]
      simp [LimitationState.isControlled]
    · rw [he, wayFits_enter_controlled hs, hsilent]
      simp [LimitationState.isControlled]

theorem descends : alarm.Descends state .unlimitedAutonomous toRest WayFits where
  none_iff cs := by
    refine tryPollTimeout_eq_ok_iff.trans ⟨fun h => pollTimeout_eq_none_iff.mp h.2, fun hrest => ?_⟩
    exact ⟨(wayFits_autonomous hrest).1, pollTimeout_eq_none_iff.mpr hrest⟩
  resting _ := wayFits_autonomous
  fits cs hrest := by
    obtain ⟨t, ht⟩ := Option.ne_none_iff_exists'.mp (mt pollTimeout_eq_none_iff.mp hrest)
    constructor
    · rintro ⟨hdue, hway⟩
      exact ⟨t, tryPollTimeout_eq_ok_iff.mpr ⟨hdue, ht⟩, (wayFits_handleTimeout ht).mpr hway⟩
    · rintro ⟨t', hpoll, hway⟩
      obtain ⟨hdue, ht'⟩ := tryPollTimeout_eq_ok_iff.mp hpoll
      exact ⟨hdue, (wayFits_handleTimeout ht').mp hway⟩
  lowers _ _ h := toRest_handleTimeout (tryPollTimeout_eq_ok_iff.mp h).2
  moves cs t h := by
    refine .inl fun hstate => ?_
    have hlower := toRest_handleTimeout (tryPollTimeout_eq_ok_iff.mp h).2
    rw [toRest, toRest, show (cs.handleTimeout t).state = cs.state from hstate] at hlower
    exact Nat.lt_irrefl _ hlower

theorem not_sufficient (h : cs.tryPollTimeout = .error .overflow) :
    ¬alarm.Sufficient state .unlimitedAutonomous cs :=
  FallibleAlarm.not_sufficient_of_error h

end Eebus.Limitation.ControllableSystem

namespace Eebus.Cob

namespace BatteryControl

def alarm : FallibleAlarm BatteryControl Overflow := ⟨tryPollTimeout, handleTimeout⟩

variable {bc : BatteryControl} {t : Nat}

def DueFits (bc : BatteryControl) : Prop :=
  match bc.state with
  | .powerControl | .pccControl | .autoControl => Addable bc.heardFrom heartbeatTimeout
  | .init => Addable bc.enteredStateAt settleTimeout
  | .failsafe => Addable bc.enteredStateAt bc.config.failsafeDuration ∧
      ∀ since ∈ bc.awaitingModeSince, Addable since settleTimeout
  | .autoUncontrolled => True

def WayFits (bc : BatteryControl) : Prop :=
  bc.DueFits ∧
    (bc.state.isControlled = true → Addable (bc.heardFrom + heartbeatTimeout) bc.config.failsafeDuration)

theorem tryPollTimeout_eq_ok_iff {due : Option Nat} :
    bc.tryPollTimeout = .ok due ↔ bc.DueFits ∧ bc.pollTimeout = due := by
  unfold tryPollTimeout DueFits pollTimeout deadlines
  cases bc.state with
  | failsafe =>
    cases bc.awaitingModeSince <;> simp [bind_eq_ok_iff, addDurations_eq_ok_iff, and_assoc]
  | _ => simp [bind_eq_ok_iff, addDurations_eq_ok_iff]

theorem deadlines_eq_nil_iff : bc.deadlines = [] ↔ bc.state = .autoUncontrolled := by
  unfold deadlines
  cases bc.state <;> simp

theorem pollTimeout_eq_none_iff : bc.pollTimeout = none ↔ bc.state = .autoUncontrolled := by
  rw [pollTimeout, List.min?_eq_none_iff, deadlines_eq_nil_iff]

theorem deadlines_controlled (hs : bc.state.isControlled = true) :
    bc.deadlines = (bc.heardFrom + heartbeatTimeout) ::
      (if bc.setpoint.any SetpointWrite.isActive then bc.setpointExpiry else none).toList := by
  unfold deadlines
  cases hstate : bc.state with
  | init | failsafe | autoUncontrolled =>
    rw [hstate] at hs
    cases hs
  | _ =>
    dsimp only
    split <;> rfl

theorem pollTimeout_controlled (hs : bc.state.isControlled = true) (h : bc.pollTimeout = some t) :
    t = bc.heardFrom + heartbeatTimeout ∨
      t < bc.heardFrom + heartbeatTimeout ∧ bc.setpoint.any SetpointWrite.isActive = true ∧
        bc.setpointExpiry = some t := by
  rw [pollTimeout, deadlines_controlled hs] at h
  obtain ⟨heq, -⟩ | ⟨hsooner, hexpiry⟩ := min?_cons_toList h
  · exact .inl heq
  · by_cases hactive : bc.setpoint.any SetpointWrite.isActive = true
    · rw [if_pos hactive] at hexpiry
      exact .inr ⟨hsooner, hactive, hexpiry⟩
    · rw [if_neg hactive] at hexpiry
      cases hexpiry

def toRest (bc : BatteryControl) : Nat :=
  if bc.state.isControlled then
    if bc.setpoint.any SetpointWrite.isActive then 3 else 2
  else if bc.state = .autoUncontrolled then 0 else 1

theorem handleTimeout_silent (hs : bc.state.isControlled = true) (h : heartbeatTimeout ≤ t - bc.heardFrom) :
    bc.handleTimeout t = { bc with
      setpoint := none
      setpointExpiry := none
      state := .failsafe
      enteredStateAt := t
      awaitingModeSince := none } := by
  have hother : bc.state ≠ .failsafe := fun hstate => by rw [hstate] at hs; cases hs
  rw [handleTimeout, if_pos ⟨hs, h⟩, enter, if_neg hother]

theorem handleTimeout_expired (hs : bc.state.isControlled = true) (hsooner : t < bc.heardFrom + heartbeatTimeout)
    (hexpiry : bc.setpointExpiry = some t) :
    bc.handleTimeout t =
      { bc with setpoint := bc.setpoint.map fun setpoint => { setpoint with isActive := false } } := by
  have hheard : ¬(bc.state.isControlled = true ∧ heartbeatTimeout ≤ t - bc.heardFrom) := by
    rintro ⟨-, hsilent⟩
    have hpositive : heartbeatTimeout ≠ 0 := nofun
    omega
  rw [handleTimeout, if_neg hheard, expireSetpoint, hexpiry, if_pos (by simp)]
  revert hs
  cases bc.state <;> simp [CobState.isControlled]

theorem pollTimeout_inactive (hs : bc.state.isControlled = true)
    (hoff : bc.setpoint.any SetpointWrite.isActive = false) :
    bc.pollTimeout = some (bc.heardFrom + heartbeatTimeout) := by
  rw [pollTimeout, deadlines_controlled hs, hoff, if_neg Bool.false_ne_true]
  exact List.min?_singleton

theorem any_isActive_map_off (setpoint : Option SetpointWrite) :
    (setpoint.map fun setpoint => { setpoint with isActive := false }).any SetpointWrite.isActive = false := by
  cases setpoint <;> rfl

theorem wait_over {since wait : Nat} (h : t = since + wait) : wait ≤ t - since := by omega

theorem due_of_mem_deadlines_failsafe (hs : bc.state = .failsafe) (h : t ∈ bc.deadlines) :
    bc.config.failsafeDuration ≤ t - bc.enteredStateAt ∨
      bc.awaitingModeSince.any (fun since => settleTimeout ≤ t - since) = true := by
  simp only [deadlines, hs, List.mem_cons, Option.mem_toList, Option.map_eq_some_iff] at h
  cases h with
  | inl hminimum => exact .inl (wait_over hminimum)
  | inr hawaiting =>
    obtain ⟨since, hsince, hend⟩ := hawaiting
    rw [hsince]
    exact .inr (decide_eq_true (wait_over hend.symm))

theorem handleTimeout_uncontrolled (hs : bc.state.isControlled = false) (h : bc.pollTimeout = some t) :
    (bc.handleTimeout t).state = .autoUncontrolled ∧ bc.state ≠ .autoUncontrolled := by
  have hmem : t ∈ bc.deadlines := List.min?_mem h
  have hheld : ¬(bc.state.isControlled = true ∧ heartbeatTimeout ≤ t - bc.heardFrom) := by simp [hs]
  rw [handleTimeout, if_neg hheld]
  cases hstate : bc.state with
  | init =>
    simp only [deadlines, hstate, List.mem_singleton] at hmem
    have hdue := wait_over hmem
    simp only [expireSetpoint_state, expireSetpoint_enteredStateAt, hstate, if_pos hdue, enter_state]
    exact ⟨trivial, by decide⟩
  | failsafe =>
    have hdue := due_of_mem_deadlines_failsafe hstate hmem
    simp only [expireSetpoint_state, expireSetpoint_enteredStateAt, expireSetpoint_config,
      expireSetpoint_awaitingModeSince, hstate, if_pos hdue, enter_state]
    exact ⟨trivial, by decide⟩
  | autoUncontrolled => simp [deadlines, hstate] at hmem
  | powerControl | pccControl | autoControl =>
    rw [hstate] at hs
    cases hs

theorem toRest_handleTimeout (h : bc.pollTimeout = some t) : (bc.handleTimeout t).toRest < bc.toRest := by
  by_cases hs : bc.state.isControlled = true
  · obtain heq | ⟨hsooner, hactive, hexpiry⟩ := pollTimeout_controlled hs h
    · have hone : (bc.handleTimeout t).toRest = 1 := by
        rw [handleTimeout_silent hs (by omega)]
        rfl
      rw [hone, toRest, if_pos hs]
      split <;> decide
    · have hoff := any_isActive_map_off bc.setpoint
      rw [toRest, toRest, handleTimeout_expired hs hsooner hexpiry]
      simp only [if_pos hs, hoff, hactive]
      decide
  · obtain ⟨hrest, hstate⟩ := handleTimeout_uncontrolled (Bool.eq_false_iff.mpr hs) h
    rw [toRest, toRest, hrest, if_neg hs, if_neg hstate, if_neg (by decide), if_pos rfl]
    decide

theorem wayFits_autonomous (hs : bc.state = .autoUncontrolled) : bc.WayFits := by
  simp [WayFits, DueFits, hs, CobState.isControlled]

theorem dueFits_controlled (hs : bc.state.isControlled = true) :
    bc.DueFits ↔ Addable bc.heardFrom heartbeatTimeout := by
  unfold DueFits
  revert hs
  cases bc.state <;> simp [CobState.isControlled]

theorem wayFits_failsafe (hs : bc.state = .failsafe) (hawaiting : bc.awaitingModeSince = none) :
    bc.WayFits ↔ Addable bc.enteredStateAt bc.config.failsafeDuration := by
  simp [WayFits, DueFits, hs, hawaiting, CobState.isControlled]

theorem wayFits_handleTimeout (hdue : bc.DueFits) (h : bc.pollTimeout = some t) :
    (bc.handleTimeout t).WayFits ↔
      (bc.state.isControlled = true → Addable (bc.heardFrom + heartbeatTimeout) bc.config.failsafeDuration) := by
  by_cases hs : bc.state.isControlled = true
  · obtain heq | ⟨hsooner, -, hexpiry⟩ := pollTimeout_controlled hs h
    · rw [handleTimeout_silent hs (by omega), wayFits_failsafe rfl rfl, heq]
      exact ⟨fun hfits _ => hfits, fun hfits => hfits hs⟩
    · rw [handleTimeout_expired hs hsooner hexpiry]
      exact and_iff_right ((dueFits_controlled hs).mpr ((dueFits_controlled hs).mp hdue))
  · have hrest := (handleTimeout_uncontrolled (Bool.eq_false_iff.mpr hs) h).1
    exact iff_of_true (wayFits_autonomous hrest) fun hcontrolled => absurd hcontrolled hs

theorem handleTimeout_moves (hdue : bc.DueFits) (h : bc.pollTimeout = some t) :
    (bc.handleTimeout t).state ≠ bc.state ∨
      ∃ t', (bc.handleTimeout t).tryPollTimeout = .ok (some t') ∧ t < t' := by
  by_cases hs : bc.state.isControlled = true
  · obtain heq | ⟨hsooner, -, hexpiry⟩ := pollTimeout_controlled hs h
    · left
      rw [handleTimeout_silent hs (by omega)]
      rintro hfailsafe
      rw [← hfailsafe] at hs
      cases hs
    · refine .inr ⟨bc.heardFrom + heartbeatTimeout, ?_, hsooner⟩
      rw [handleTimeout_expired hs hsooner hexpiry]
      refine tryPollTimeout_eq_ok_iff.mpr ⟨?_, ?_⟩
      · exact (dueFits_controlled hs).mpr ((dueFits_controlled hs).mp hdue)
      · exact pollTimeout_inactive hs (any_isActive_map_off bc.setpoint)
  · obtain ⟨hrest, hstate⟩ := handleTimeout_uncontrolled (Bool.eq_false_iff.mpr hs) h
    exact .inl fun hsame => hstate (hsame ▸ hrest)

theorem descends : alarm.Descends state .autoUncontrolled toRest WayFits where
  none_iff bc := by
    refine tryPollTimeout_eq_ok_iff.trans ⟨fun h => pollTimeout_eq_none_iff.mp h.2, fun hrest => ?_⟩
    exact ⟨(wayFits_autonomous hrest).1, pollTimeout_eq_none_iff.mpr hrest⟩
  resting _ := wayFits_autonomous
  fits bc hrest := by
    obtain ⟨t, ht⟩ := Option.ne_none_iff_exists'.mp (mt pollTimeout_eq_none_iff.mp hrest)
    constructor
    · rintro ⟨hdue, hway⟩
      exact ⟨t, tryPollTimeout_eq_ok_iff.mpr ⟨hdue, ht⟩, (wayFits_handleTimeout hdue ht).mpr hway⟩
    · rintro ⟨t', hpoll, hway⟩
      obtain ⟨hdue, ht'⟩ := tryPollTimeout_eq_ok_iff.mp hpoll
      exact ⟨hdue, (wayFits_handleTimeout hdue ht').mp hway⟩
  lowers _ _ h := toRest_handleTimeout (tryPollTimeout_eq_ok_iff.mp h).2
  moves _ _ h := handleTimeout_moves (tryPollTimeout_eq_ok_iff.mp h).1 (tryPollTimeout_eq_ok_iff.mp h).2

theorem not_sufficient (h : bc.tryPollTimeout = .error .overflow) :
    ¬alarm.Sufficient state .autoUncontrolled bc :=
  FallibleAlarm.not_sufficient_of_error h

end BatteryControl

/-- A caller that does nothing but wait for the deadline is led to rest, from every state of either machine
from where every deadline it meets on the way is a `Duration`, and from no other. -/
theorem waiting_is_enough_iff (cs : Limitation.ControllableSystem) (bc : BatteryControl) :
    (Limitation.ControllableSystem.alarm.Sufficient (·.state) .unlimitedAutonomous cs ↔ cs.WayFits) ∧
      (BatteryControl.alarm.Sufficient (·.state) .autoUncontrolled bc ↔ bc.WayFits) :=
  ⟨Limitation.ControllableSystem.descends.sufficient_iff cs, BatteryControl.descends.sufficient_iff bc⟩

/-- A system that is to stay in failsafe for the longest `Duration`, and whose guard has gone silent. -/
def silenced : Limitation.ControllableSystem :=
  Limitation.system.run (.new (.new (F64.ofInt 4200) durationMax) 0)
    [⟨.heartbeat, 0⟩, ⟨.limitWrite ⟨true, F64.ofInt 3000, none⟩ .apply, fromSecs 1⟩, ⟨.timeout, fromSecs 120⟩]

def silencedBattery : BatteryControl :=
  system.run (.new (.new durationMax) 0)
    [⟨.heartbeat, 0⟩, ⟨.controlMode .auto true, fromSecs 1⟩, ⟨.timeout, fromSecs 120⟩]

theorem waiting_overflows :
    silenced.state = .failsafeState ∧ silenced.tryPollTimeout = .error .overflow ∧
      ¬Limitation.ControllableSystem.alarm.Sufficient (·.state) .unlimitedAutonomous silenced ∧
    silencedBattery.state = .failsafe ∧ silencedBattery.tryPollTimeout = .error .overflow ∧
      ¬BatteryControl.alarm.Sufficient (·.state) .autoUncontrolled silencedBattery := by
  have hsystem : silenced.state = .failsafeState ∧ silenced.tryPollTimeout = .error .overflow := by
    decide +kernel
  have hbattery : silencedBattery.state = .failsafe ∧ silencedBattery.tryPollTimeout = .error .overflow := by
    decide +kernel
  exact ⟨hsystem.1, hsystem.2, Limitation.ControllableSystem.not_sufficient hsystem.2, hbattery.1, hbattery.2,
    BatteryControl.not_sufficient hbattery.2⟩

end Eebus.Cob
