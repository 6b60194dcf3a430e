import Eebus.Cob.State

/-!
What one call on the inverter can do, and the history a run of calls leaves: which setpoint was
accepted last, when the present state was entered, what was heard in it. The fields of the inverter
are shown to track what the record of the run says.
-/

namespace Eebus.Cob

open Eebus.Library

section Timers

namespace BatteryControl

variable (bc : BatteryControl) (state : CobState) (now : Nat)

@[simp] theorem enter_state : (bc.enter state now).state = state := by
  unfold enter
  split
  case isTrue h => exact h
  case isFalse => rfl

@[simp] theorem enter_setpoint : (bc.enter state now).setpoint = bc.setpoint := by
  unfold enter
  split <;> rfl

@[simp] theorem enter_setpointExpiry : (bc.enter state now).setpointExpiry = bc.setpointExpiry := by
  unfold enter
  split <;> rfl

@[simp] theorem enter_lastHeartbeat : (bc.enter state now).lastHeartbeat = bc.lastHeartbeat := by
  unfold enter
  split <;> rfl

theorem enter_enteredStateAt : (bc.enter state now).enteredStateAt =
      bif bc.state == state then bc.enteredStateAt else now := by
  unfold enter
  split
  case isTrue h => simp [h]
  case isFalse h => simp [beq_false_of_ne h]

theorem enter_awaitingModeSince (h : bc.state ≠ state) :
    (bc.enter state now).awaitingModeSince = none := by
  simp [enter, h]

@[simp] theorem expireSetpoint_state : (bc.expireSetpoint now).state = bc.state := by
  unfold expireSetpoint
  split <;> rfl

@[simp] theorem expireSetpoint_setpointExpiry :
    (bc.expireSetpoint now).setpointExpiry = bc.setpointExpiry := by
  unfold expireSetpoint
  split <;> rfl

@[simp] theorem expireSetpoint_lastHeartbeat :
    (bc.expireSetpoint now).lastHeartbeat = bc.lastHeartbeat := by
  unfold expireSetpoint
  split <;> rfl

@[simp] theorem expireSetpoint_enteredStateAt :
    (bc.expireSetpoint now).enteredStateAt = bc.enteredStateAt := by
  unfold expireSetpoint
  split <;> rfl

@[simp] theorem expireSetpoint_awaitingModeSince :
    (bc.expireSetpoint now).awaitingModeSince = bc.awaitingModeSince := by
  unfold expireSetpoint
  split <;> rfl

@[simp] theorem expireSetpoint_config : (bc.expireSetpoint now).config = bc.config := by
  unfold expireSetpoint
  split <;> rfl

theorem expireSetpoint_active {setpoint : SetpointWrite} (hactive : setpoint.isActive = true)
    (h : (bc.expireSetpoint now).setpoint = some setpoint) :
    bc.setpoint = some setpoint ∧ ∀ expiry, bc.setpointExpiry = some expiry → now < expiry := by
  unfold expireSetpoint at h
  split at h
  case isTrue =>
    obtain ⟨stored, -, rfl⟩ := Option.map_eq_some_iff.mp h
    cases hactive
  case isFalse hdue =>
    refine ⟨h, fun expiry he => ?_⟩
    simpa [he] using hdue

theorem handleTimeout_cases :
    (bc.handleTimeout now = bc.expireSetpoint now ∧
      (bc.state.isControlled = true → now - bc.heardFrom < heartbeatTimeout)) ∨
    (bc.state.isControlled = true ∧ bc.handleTimeout now =
      { bc with setpoint := none, setpointExpiry := none }.enter .failsafe now) ∨
    (bc.state = .init ∧
      bc.handleTimeout now = (bc.expireSetpoint now).enter .autoUncontrolled now) ∨
    (bc.state = .failsafe ∧
      (bc.config.failsafeDuration ≤ now - bc.enteredStateAt ∨
        ∃ since, bc.awaitingModeSince = some since ∧ settleTimeout ≤ now - since) ∧
      bc.handleTimeout now = (bc.expireSetpoint now).enter .autoUncontrolled now) := by
  by_cases hlost : bc.state.isControlled = true ∧ heartbeatTimeout ≤ now - bc.heardFrom
  · exact .inr (.inl ⟨hlost.1, if_pos hlost⟩)
  have hheard : bc.state.isControlled = true → now - bc.heardFrom < heartbeatTimeout :=
    fun hc => not_le.mp fun hle => hlost ⟨hc, hle⟩
  rw [handleTimeout, if_neg hlost]
  cases hs : bc.state with
  | powerControl => exact .inl ⟨by simp [hs], hs ▸ hheard⟩
  | pccControl => exact .inl ⟨by simp [hs], hs ▸ hheard⟩
  | autoControl => exact .inl ⟨by simp [hs], hs ▸ hheard⟩
  | autoUncontrolled => exact .inl ⟨by simp [hs], hs ▸ hheard⟩
  | init =>
    simp only [expireSetpoint_state, hs]
    split
    · exact .inr (.inr (.inl ⟨trivial, rfl⟩))
    · exact .inl ⟨rfl, hs ▸ hheard⟩
  | failsafe =>
    simp only [expireSetpoint_state, hs]
    split
    case isTrue hdue =>
      refine .inr (.inr (.inr ⟨trivial, ?_, rfl⟩))
      simpa [Option.any_eq_true] using hdue
    case isFalse => exact .inl ⟨rfl, hs ▸ hheard⟩

@[simp] theorem handleTimeout_lastHeartbeat :
    (bc.handleTimeout now).lastHeartbeat = bc.lastHeartbeat := by
  rcases bc.handleTimeout_cases now with ⟨h, -⟩ | ⟨-, h⟩ | ⟨-, h⟩ | ⟨-, -, h⟩ <;> simp [h]

end BatteryControl

end Timers

def Op.ticksFirst : Op → Bool
  | .heartbeat | .goAutonomous => false
  | _ => true

def Call.ticked (c : Call) (bc : BatteryControl) : BatteryControl :=
  if c.op.ticksFirst then bc.handleTimeout c.now else bc

def Op.isSetpoint : Op → Bool
  | .setpoint .. => true
  | _ => false

def Op.isControlMode : Op → Bool
  | .controlMode .. => true
  | _ => false

namespace BatteryControl

def accept (bc : BatteryControl) (write : SetpointWrite) (now : Nat) : BatteryControl :=
  { bc with
    setpoint := if write.duration = some 0 then some { write with isActive := false } else some write
    setpointExpiry := write.duration.map (now + ·) }

/-- The gate of a control-mode write is open: control is established, or a heartbeat is recent. -/
def Evaluates (bc : BatteryControl) (now : Nat) : Prop :=
  bc.state.isControlled = true ∨ ∃ hb, bc.lastHeartbeat = some hb ∧ now - hb < writeWindow

theorem gate_open {bc : BatteryControl} {now : Nat}
    (h : ¬(bc.needsRecentHeartbeat && !bc.heartbeatIsRecent now) = true) : bc.Evaluates now := by
  by_cases hr : bc.heartbeatIsRecent now
  · right
    simpa [heartbeatIsRecent, Option.any_eq_true] using hr
  · left
    cases hs : bc.state <;> simp_all [needsRecentHeartbeat, CobState.isControlled]

end BatteryControl

/-- What a call can do, in terms of the inverter it meets once its timers are up to date. -/
inductive Effect (bc : BatteryControl) (c : Call) : BatteryControl → Option WriteOutcome → Prop
  | heard (hop : c.op = .heartbeat) : Effect bc c (bc.onHeartbeat c.now) none
  | moved {state : CobState} {outcome : WriteOutcome} (hop : c.op.isControlMode = true)
      (hgate : (c.ticked bc).Evaluates c.now) (hstate : state.isControlled = true) :
      Effect bc c ({ c.ticked bc with awaitingModeSince := none }.enter state c.now) (some outcome)
  | released (hop : c.op = .goAutonomous) (hstate : bc.state.takesSetpoint = true) :
      Effect bc c (bc.enter .autoControl c.now) none
  | accepted {write : SetpointWrite} {answer : Bool} (hop : c.op = .setpoint write answer) :
      Effect bc c ((c.ticked bc).accept write c.now) (some .accepted)
  | configured {config : CobConfig} (hbeat : c.op ≠ .heartbeat) (hop : c.op.isSetpoint = false) :
      Effect bc c { c.ticked bc with config := config } (some .accepted)
  | ticked {outcome : Option WriteOutcome} (hbeat : c.op ≠ .heartbeat)
      (hout : c.op.isSetpoint = true → outcome ≠ some .accepted) :
      Effect bc c (c.ticked bc) outcome

theorem ofMode_isControlled (mode : ControlMode) : (CobState.ofMode mode).isControlled = true := by
  cases mode <;> rfl

theorem step_effect (bc : BatteryControl) (c : Call) :
    Effect bc c (system.step bc c).1 (system.step bc c).2 := by
  obtain ⟨op, now⟩ := c
  cases op with
  | heartbeat => exact .heard rfl
  | controlMode mode answer =>
    simp only [system, BatteryControl.onControlMode]
    split
    case isTrue => exact .ticked (by simp) (by simp [Op.isSetpoint])
    case isFalse hgate =>
      cases answer
      · exact .moved rfl (BatteryControl.gate_open hgate) rfl
      · exact .moved rfl (BatteryControl.gate_open hgate) (ofMode_isControlled mode)
  | goAutonomous =>
    simp only [system, BatteryControl.goAutonomous]
    split
    case isTrue htakes => exact .released rfl htakes
    case isFalse => exact .ticked (by simp) (by simp)
  | setpoint write answer =>
    simp only [system, BatteryControl.onSetpoint]
    split
    · exact .ticked (by simp) (by simp)
    · split
      · exact .ticked (by simp) (by simp)
      · split
        · exact .ticked (by simp) (by simp)
        · exact .accepted rfl
  | failsafeDuration duration =>
    simp only [system, BatteryControl.onFailsafeDuration]
    split
    · exact .ticked (by simp) (by simp [Op.isSetpoint])
    · split
      · exact .ticked (by simp) (by simp [Op.isSetpoint])
      · exact .configured (by simp) rfl
  | failsafeSetpoint watts =>
    simp only [system, BatteryControl.onFailsafeSetpoint]
    split
    · exact .ticked (by simp) (by simp [Op.isSetpoint])
    · split
      · exact .ticked (by simp) (by simp [Op.isSetpoint])
      · exact .configured (by simp) rfl
  | timeout => exact .ticked (by simp) (by simp [Op.isSetpoint])

abbrev Step := Event BatteryControl Call (Option WriteOutcome)

namespace Step

def ticked (e : Step) : BatteryControl := e.input.ticked e.before

def moves (e : Step) : List (CobState × CobState) :=
  [(e.before.state, e.ticked.state), (e.ticked.state, e.after.state)]

def acceptedWrite (e : Step) : Option (SetpointWrite × Nat) :=
  match e.input.op, e.output with
  | .setpoint write _, some .accepted => some (write, e.input.now)
  | _, _ => none

theorem acceptedWrite_none {e : Step}
    (h : e.input.op.isSetpoint = true → e.output ≠ some .accepted) : acceptedWrite e = none := by
  unfold acceptedWrite
  split
  case h_1 hop hout => exact absurd hout (h (by simp [hop, Op.isSetpoint]))
  case h_2 => rfl

end Step

def lastAccepted (past : List Step) : Option (SetpointWrite × Nat) :=
  past.findSome? Step.acceptedWrite

def lastHeartbeat (past : List Step) : Option Nat :=
  past.findSome? fun e => if e.input.op = .heartbeat then some e.input.now else none

def enteredAt (start : Nat) : List Step → Nat
  | [] => start
  | e :: past =>
    bif e.ticked.state == e.after.state then
      (bif e.before.state == e.ticked.state then enteredAt start past else e.input.now)
    else e.input.now

def firstHeartbeat : List Step → Option Nat
  | [] => none
  | e :: past =>
    bif e.ticked.state == e.after.state && e.before.state == e.ticked.state then
      (firstHeartbeat past).or (if e.input.op = .heartbeat then some e.input.now else none)
    else none

/-- What the fields of the inverter say about the history of the run. -/
structure Tracks (bc : BatteryControl) (accepted : Option (SetpointWrite × Nat))
    (heard : Option Nat) (entered : Nat) (first : Option Nat) : Prop where
  heard : bc.lastHeartbeat = heard
  entered : bc.enteredStateAt = entered
  held : ∀ setpoint, bc.setpoint = some setpoint → setpoint.isActive = true →
    ∃ since, accepted = some (setpoint, since) ∧
      bc.setpointExpiry = setpoint.duration.map (since + ·)
  first : bc.state = .failsafe → bc.awaitingModeSince = first

section Tracking

variable {bc : BatteryControl} {accepted : Option (SetpointWrite × Nat)} {heard : Option Nat}
  {entered now : Nat} {first : Option Nat}

section

variable (h : Tracks bc accepted heard entered first)

include h

theorem Tracks.enter {state : CobState}
    (hne : bc.state ≠ state) : Tracks (bc.enter state now) accepted heard now none := by
  refine ⟨by simpa using h.heard, ?_, by simpa using h.held, fun _ => ?_⟩
  · simp [BatteryControl.enter_enteredStateAt, beq_false_of_ne hne]
  · exact bc.enter_awaitingModeSince state now hne

theorem Tracks.follow {state : CobState}
    (hstate : state ≠ .failsafe) (now : Nat) (first' : Option Nat) :
    Tracks (bc.enter state now) accepted heard (bif bc.state == state then entered else now)
      first' := by
  refine ⟨by simpa using h.heard, ?_, by simpa using h.held, fun hs => ?_⟩
  · simp [BatteryControl.enter_enteredStateAt, h.entered]
  · exact absurd (by simpa using hs) hstate

theorem Tracks.forget :
    Tracks { bc with setpoint := none, setpointExpiry := none } accepted heard entered first :=
  ⟨h.heard, h.entered, by simp, h.first⟩

theorem Tracks.expireSetpoint (now : Nat) :
    Tracks (bc.expireSetpoint now) accepted heard entered first := by
  refine ⟨by simpa using h.heard, by simpa using h.entered, fun setpoint hs hactive => ?_,
    fun hs => by simpa using h.first (by simpa using hs)⟩
  simpa using h.held setpoint (bc.expireSetpoint_active now hactive hs).1 hactive

theorem Tracks.handleTimeout : Tracks (bc.handleTimeout now) accepted heard
      (bif bc.state == (bc.handleTimeout now).state then entered else now)
      (bif bc.state == (bc.handleTimeout now).state then first else none) := by
  rcases bc.handleTimeout_cases now with ⟨he, -⟩ | ⟨hs, he⟩ | ⟨hs, he⟩ | ⟨hs, -, he⟩
  · simpa [he] using h.expireSetpoint now
  · have hne : bc.state ≠ .failsafe := by
      intro hc
      simp [hc, CobState.isControlled] at hs
    simpa [he, beq_false_of_ne hne] using h.forget.enter hne
  · have hne : bc.state ≠ .autoUncontrolled := by simp [hs]
    simpa [he, beq_false_of_ne hne] using (h.expireSetpoint now).enter (by simpa using hne)
  · have hne : bc.state ≠ .autoUncontrolled := by simp [hs]
    simpa [he, beq_false_of_ne hne] using (h.expireSetpoint now).enter (by simpa using hne)

theorem Tracks.ticked (c : Call) : Tracks (c.ticked bc) accepted heard
      (bif bc.state == (c.ticked bc).state then entered else c.now)
      (bif bc.state == (c.ticked bc).state then first else none) := by
  unfold Call.ticked
  split
  · exact h.handleTimeout
  · simpa using h

theorem Tracks.accept (write : SetpointWrite)
    (now : Nat) : Tracks (bc.accept write now) (some (write, now)) heard entered first := by
  refine ⟨h.heard, h.entered, fun setpoint hs hactive => ?_, h.first⟩
  simp only [BatteryControl.accept] at hs ⊢
  split at hs
  case isTrue =>
    -- a duration of nought leaves an inactive setpoint, which claims nothing
    cases Option.some.inj hs
    cases hactive
  case isFalse =>
    cases Option.some.inj hs
    exact ⟨now, rfl, rfl⟩

end

end Tracking

def TracksRecord (start : Nat) (p : BatteryControl × List Step) : Prop :=
  Tracks p.1 (lastAccepted p.2) (lastHeartbeat p.2) (enteredAt start p.2) (firstHeartbeat p.2)

theorem lastAccepted_cons_none {e : Step} {past : List Step} (h : Step.acceptedWrite e = none) :
    lastAccepted (e :: past) = lastAccepted past := by
  simp [lastAccepted, h]

theorem tracksRecord_of_effect {start : Nat} {bc after : BatteryControl} {past : List Step}
    {c : Call} {out : Option WriteOutcome} (h : TracksRecord start (bc, past))
    (heffect : Effect bc c after out) : TracksRecord start (after, ⟨bc, c, out, after⟩ :: past) := by
  have ht := Tracks.ticked h c
  simp only [TracksRecord] at h ht ⊢
  cases heffect with
  | heard hop =>
    have htick : c.ticked bc = bc := by simp [Call.ticked, hop, Op.ticksFirst]
    refine ⟨?_, ?_, ?_, ?_⟩
    · simp [lastHeartbeat, hop, BatteryControl.onHeartbeat]
    · simpa [enteredAt, Step.ticked, htick, BatteryControl.onHeartbeat] using h.entered
    · rw [lastAccepted_cons_none (Step.acceptedWrite_none (by simp))]
      exact h.held
    · intro hs
      have hf := h.first hs
      simp only [BatteryControl.onHeartbeat] at hs ⊢
      cases hw : bc.awaitingModeSince with
      | none => simp [firstHeartbeat, Step.ticked, htick, hs, hop, ← hf, hw]
      | some since => simp [firstHeartbeat, Step.ticked, htick, ← hf, hw]
  | @moved state outcome hop hgate hstate =>
    have hbeat : c.op ≠ .heartbeat := by
      intro he
      simp [he, Op.isControlMode] at hop
    have hplain : c.op.isSetpoint = false := by
      cases hc : c.op <;> simp_all [Op.isControlMode, Op.isSetpoint]
    have hfailsafe : state ≠ .failsafe := by
      rintro rfl
      cases hstate
    have hcalm : Tracks { c.ticked bc with awaitingModeSince := none } (lastAccepted past)
        (lastHeartbeat past) _ none := ⟨ht.heard, ht.entered, ht.held, fun _ => rfl⟩
    convert hcalm.follow hfailsafe c.now _ using 1
    · exact lastAccepted_cons_none (Step.acceptedWrite_none (by simp [hplain]))
    · simp [lastHeartbeat, hbeat]
    · simp [enteredAt, Step.ticked]
  | released hop hstate =>
    have htick : c.ticked bc = bc := by simp [Call.ticked, hop, Op.ticksFirst]
    convert h.follow (by simp : CobState.autoControl ≠ .failsafe) c.now _ using 1
    · exact lastAccepted_cons_none (Step.acceptedWrite_none (by simp))
    · simp [lastHeartbeat, hop]
    · simp [enteredAt, Step.ticked, htick]
  | @accepted write answer hop =>
    convert ht.accept write c.now using 1
    · simp [lastAccepted, Step.acceptedWrite, hop]
    · simp [lastHeartbeat, hop]
    · simp [enteredAt, Step.ticked, BatteryControl.accept]
    · simp [firstHeartbeat, Step.ticked, hop, BatteryControl.accept]
  | @configured config hbeat hop =>
    have hc : Tracks { c.ticked bc with config := config } _ _ _ _ :=
      ⟨ht.heard, ht.entered, ht.held, ht.first⟩
    convert hc using 1
    · exact lastAccepted_cons_none (Step.acceptedWrite_none (by simp [hop]))
    · simp [lastHeartbeat, hbeat]
    · simp [enteredAt, Step.ticked]
    · simp [firstHeartbeat, Step.ticked, hbeat]
  | ticked hbeat hout =>
    convert ht using 1
    · exact lastAccepted_cons_none (Step.acceptedWrite_none hout)
    · simp [lastHeartbeat, hbeat]
    · simp [enteredAt, Step.ticked]
    · simp [firstHeartbeat, Step.ticked, hbeat]

theorem tracksRecord_step {start : Nat} (p : BatteryControl × List Step) (c : Call)
    (h : TracksRecord start p) : TracksRecord start (system.recorded.next p c) :=
  tracksRecord_of_effect h (step_effect p.1 c)

theorem tracksRecord_new (config : CobConfig) (start : Nat) :
    TracksRecord start (BatteryControl.new config start, []) :=
  ⟨rfl, rfl, by simp [BatteryControl.new], by simp [BatteryControl.new]⟩

end Eebus.Cob
