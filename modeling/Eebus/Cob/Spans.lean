import Eebus.Cob.State
import Eebus.Model.Spans

/-! The instants the Inverter of Control of Battery works out. -/

namespace Eebus.Cob

open Eebus.Library Eebus.Model

variable {S : Schema} {horizon now : Nat}

namespace BatteryControl

/-- Every instant the inverter remembers is in the past of the horizon, its setpoint expires at an
instant a `Duration` holds, and its failsafe duration can be added to the clock. -/
structure Timed (horizon : Nat) (bc : BatteryControl) : Prop where
  entered : bc.enteredStateAt ≤ horizon
  heard : ∀ t, bc.lastHeartbeat = some t → t ≤ horizon
  awaiting : ∀ t, bc.awaitingModeSince = some t → t ≤ horizon
  expiry : ∀ t, bc.setpointExpiry = some t → t ≤ durationMax
  failsafe : Addable horizon bc.config.failsafeDuration

/-- The instants of the inverter: the expiry of its setpoint, and what `pollTimeout` weighs. -/
def instants (bc : BatteryControl) : List Nat := bc.setpointExpiry.toList ++ bc.deadlines

namespace Timed

variable {bc : BatteryControl}

theorem new {config : CobConfig} (hconfig : Addable horizon config.failsafeDuration)
    (hnow : now ≤ horizon) : (BatteryControl.new config now).Timed horizon :=
  ⟨hnow, nofun, nofun, nofun, hconfig⟩

section

variable (h : bc.Timed horizon)

include h

theorem heardFrom : bc.heardFrom ≤ horizon := by
  unfold BatteryControl.heardFrom
  cases hheard : bc.lastHeartbeat with
  | none => exact h.entered
  | some t => exact h.heard t hheard

theorem instants (hday : Addable horizon (fromSecs 86400)) :
    ∀ t ∈ bc.instants, t ≤ durationMax := by
  have hwait : Addable horizon heartbeatTimeout := hday.of_le (by decide)
  have hexpiry : ∀ t ∈ bc.setpointExpiry.toList, t ≤ durationMax :=
    fun t ht => h.expiry t (Option.mem_toList.mp ht)
  have hcontrolled : ∀ t ∈ (bc.heardFrom + heartbeatTimeout) ::
      (if bc.setpoint.any SetpointWrite.isActive then bc.setpointExpiry.toList else []),
      t ≤ durationMax := by
    intro t ht
    rcases List.mem_cons.mp ht with rfl | ht
    · exact hwait.sum_le h.heardFrom
    · split at ht
      · exact hexpiry t ht
      · simp at ht
  have hsettle : ∀ t ≤ horizon, t + settleTimeout ≤ durationMax := fun t ht => hwait.sum_le ht
  intro t ht
  rcases List.mem_append.mp ht with ht | ht
  · exact hexpiry t ht
  unfold deadlines at ht
  cases hstate : bc.state with
  | powerControl =>
    rw [hstate] at ht
    exact hcontrolled t ht
  | pccControl =>
    rw [hstate] at ht
    exact hcontrolled t ht
  | autoControl =>
    rw [hstate] at ht
    exact hcontrolled t ht
  | init =>
    simp only [hstate, List.mem_singleton] at ht
    exact ht ▸ hsettle _ h.entered
  | failsafe =>
    simp only [hstate, List.mem_cons, Option.mem_toList, Option.map_eq_some_iff] at ht
    rcases ht with rfl | ⟨since, hsince, rfl⟩
    · exact h.failsafe.sum_le h.entered
    · exact hsettle since (h.awaiting since hsince)
  | autoUncontrolled => simp [hstate] at ht

theorem enter (hnow : now ≤ horizon) (state : CobState) :
    (bc.enter state now).Timed horizon := by
  unfold BatteryControl.enter
  split
  · exact h
  · exact ⟨hnow, h.heard, nofun, h.expiry, h.failsafe⟩

theorem settle : { bc with awaitingModeSince := none }.Timed horizon :=
  ⟨h.entered, h.heard, nofun, h.expiry, h.failsafe⟩

theorem forget :
    { bc with setpoint := none, setpointExpiry := none }.Timed horizon :=
  ⟨h.entered, h.heard, h.awaiting, nofun, h.failsafe⟩

theorem expireSetpoint : (bc.expireSetpoint now).Timed horizon := by
  unfold BatteryControl.expireSetpoint
  split
  · exact ⟨h.entered, h.heard, h.awaiting, h.expiry, h.failsafe⟩
  · exact h

theorem handleTimeout (hnow : now ≤ horizon) : (bc.handleTimeout now).Timed horizon := by
  have hexpired : (bc.expireSetpoint now).Timed horizon := h.expireSetpoint
  unfold BatteryControl.handleTimeout
  split
  · exact h.forget.enter hnow _
  dsimp only
  split
  · split
    · exact hexpired.enter hnow _
    · exact hexpired
  · split
    · exact hexpired.enter hnow _
    · exact hexpired
  · exact hexpired

theorem onHeartbeat (hnow : now ≤ horizon) :
    (bc.onHeartbeat now).Timed horizon where
  entered := h.entered
  heard t ht := Option.some.inj ht ▸ hnow
  awaiting t ht := by
    simp only [BatteryControl.onHeartbeat] at ht
    split at ht
    · exact Option.some.inj ht ▸ hnow
    · exact h.awaiting t ht
  expiry := h.expiry
  failsafe := h.failsafe

theorem onControlMode (hnow : now ≤ horizon) (mode : ControlMode)
    (accepted : Bool) : (bc.onControlMode mode accepted now).1.Timed horizon := by
  have hticked := h.handleTimeout hnow
  unfold BatteryControl.onControlMode
  dsimp only
  split
  · exact hticked
  split
  · exact hticked.settle.enter hnow _
  · exact hticked.settle.enter hnow _

theorem goAutonomous (hnow : now ≤ horizon) : (bc.goAutonomous now).1.Timed horizon := by
  unfold BatteryControl.goAutonomous
  split
  · exact h.enter hnow _
  · exact h

theorem onSetpoint (hnow : now ≤ horizon) {write : SetpointWrite}
    (hwrite : ∀ d, write.duration = some d → Addable horizon d) (accepted : Bool) :
    (bc.onSetpoint write accepted now).1.Timed horizon := by
  have hticked := h.handleTimeout hnow
  unfold BatteryControl.onSetpoint
  dsimp only
  repeat' split
  · exact hticked
  · exact hticked
  · exact hticked
  all_goals
    refine ⟨hticked.entered, hticked.heard, hticked.awaiting, fun t ht => ?_, hticked.failsafe⟩
    obtain ⟨d, hd, rfl⟩ := Option.map_eq_some_iff.mp ht
    exact (hwrite d hd).sum_le hnow

theorem onFailsafeDuration (hday : Addable horizon (fromSecs 86400))
    (hnow : now ≤ horizon) (duration : Nat) :
    (bc.onFailsafeDuration duration now).1.Timed horizon := by
  have hticked := h.handleTimeout hnow
  unfold BatteryControl.onFailsafeDuration
  dsimp only
  split
  · exact hticked
  split
  · exact hticked
  case isFalse hrange =>
    rw [not_not] at hrange
    exact ⟨hticked.entered, hticked.heard, hticked.awaiting, hticked.expiry, hday.of_le hrange.2⟩

theorem onFailsafeSetpoint (hnow : now ≤ horizon) (watts : F64) :
    (bc.onFailsafeSetpoint watts now).1.Timed horizon := by
  have hticked := h.handleTimeout hnow
  unfold BatteryControl.onFailsafeSetpoint
  dsimp only
  repeat' split
  · exact hticked
  · exact hticked
  · exact ⟨hticked.entered, hticked.heard, hticked.awaiting, hticked.expiry, hticked.failsafe⟩

end

end Timed

end BatteryControl

/-- The setpoint a call brings lasts for a time that can be added to the clock. -/
def Op.Timed (horizon : Nat) : Op → Prop
  | .setpoint write _ => ∀ d, write.duration = some d → Addable horizon d
  | _ => True

theorem BatteryControl.Timed.next {bc : BatteryControl} (h : bc.Timed horizon)
    (hday : Addable horizon (fromSecs 86400)) {call : Call} (hcall : call.op.Timed horizon)
    (hnow : call.now ≤ horizon) : (system.next bc call).Timed horizon := by
  obtain ⟨op, now⟩ := call
  cases op with
  | heartbeat => exact h.onHeartbeat hnow
  | controlMode mode accepted => exact h.onControlMode hnow mode accepted
  | goAutonomous => exact h.goAutonomous hnow
  | setpoint write accepted => exact h.onSetpoint hnow hcall accepted
  | failsafeDuration duration => exact h.onFailsafeDuration hday hnow duration
  | failsafeSetpoint watts => exact h.onFailsafeSetpoint hnow watts
  | timeout => exact h.handleTimeout hnow

theorem readSetpointEntry_duration {entry : SetpointData} {setpoint : SetpointWrite}
    (hread : readSetpointEntry entry = some setpoint) {d : Nat} (hd : setpoint.duration = some d) :
    ∃ text, entry.timePeriod.bind TimePeriod.endTime = some text ∧
      parseIso8601Duration text = some d := by
  simp only [readSetpointEntry, Option.bind_eq_bind] at hread
  cases hend : entry.timePeriod.bind TimePeriod.endTime with
  | none => cases hvalue : entry.value <;> simp_all [Option.bind_eq_some_iff] <;> grind
  | some text => cases hvalue : entry.value <;> simp_all [Option.bind_eq_some_iff] <;> grind

theorem readSetpointWrite_lasting {P : Nat → Prop} {data : CmdData S} (h : data.Lasting P)
    {setpoint : SetpointWrite} (hread : readSetpointWrite data = some setpoint) :
    ∀ d, setpoint.duration = some d → P d := by
  intro d hd
  obtain ⟨key, list⟩ := data
  cases key with
  | setpointListData =>
    simp only [readSetpointWrite, Option.bind_eq_bind, Option.bind_eq_some_iff] at hread
    obtain ⟨entries, hentries, entry, hentry, hsetpoint⟩ := hread
    obtain ⟨text, hend, hparse⟩ := readSetpointEntry_duration hsetpoint hd
    obtain ⟨period, hperiod, htext⟩ := Option.bind_eq_some_iff.mp hend
    have hmem : entry ∈ (setpointListType.entries list).getD [] := by
      change entry ∈ list.setpointData.getD []
      rw [hentries]
      exact List.mem_of_find?_eq_some hentry
    exact h entry hmem period hperiod text d htext hparse
  | _ => simp [readSetpointWrite] at hread

end Eebus.Cob
