import Eebus.Cob.History

/-!
Safety of the battery control machine over whole runs: what a setpoint in force rests on, who takes
control, when the failsafe state is left, and that a refused setpoint changes nothing.
-/

namespace Eebus.Cob

open Eebus.Library

/-- A setpoint that drives the inverter is the last accepted write, unexpired and heard about. -/
def SetpointSound (start : Nat) (bc : BatteryControl) (past : List Step) (now : Nat) : Prop :=
  ∀ watts, bc.effective = .setpoint watts → bc.state.takesSetpoint = true ∧
    (∃ write since, lastAccepted past = some (write, since) ∧ write.watts = watts ∧
      write.isActive = true ∧ ∀ d, write.duration = some d → now < since + d) ∧
    now - (lastHeartbeat past).getD (enteredAt start past) < heartbeatTimeout

/-- The call moves the inverter under the manager's control. -/
def TakesControl (e : Step) : Prop :=
  ∃ m ∈ Step.moves e, m.1.isControlled = false ∧ m.2.isControlled = true

/-- The call is a control-mode write inside the window a heartbeat opened. -/
def OnRecentHeartbeat (e : Step) (past : List Step) : Prop :=
  e.input.op.isControlMode = true ∧
    ∃ hb, lastHeartbeat past = some hb ∧ e.input.now - hb < writeWindow

/-- The failsafe state is left for good only when one of its two timers has run out. -/
def LeavesFailsafeOnTime (start : Nat) (e : Step) (past : List Step) : Prop :=
  (CobState.failsafe, CobState.autoUncontrolled) ∈ Step.moves e →
    e.before.config.failsafeDuration ≤ e.input.now - enteredAt start past ∨
      ∃ hb, firstHeartbeat past = some hb ∧ settleTimeout ≤ e.input.now - hb

/-- A refused setpoint write does what the timers do, and nothing else. -/
def RefusesQuietly (e : Step) : Prop :=
  e.input.op.isSetpoint = true → e.output ≠ some .accepted →
    e.after = e.before.handleTimeout e.input.now

theorem effective_setpoint {bc : BatteryControl} {watts : F64}
    (h : bc.effective = .setpoint watts) : bc.state.takesSetpoint = true ∧
      ∃ setpoint, bc.setpoint = some setpoint ∧ setpoint.isActive = true ∧
        setpoint.watts = watts := by
  unfold BatteryControl.effective at h
  cases hs : bc.state <;> cases hp : bc.setpoint <;>
    simp_all [CobState.takesSetpoint]
  all_goals
    split at h
    case isTrue hactive => exact ⟨hactive, by simpa using h⟩
    case isFalse => simp at h

theorem takesSetpoint_isControlled {state : CobState} (h : state.takesSetpoint = true) :
    state.isControlled = true := by
  cases state <;> simp_all [CobState.takesSetpoint, CobState.isControlled]

theorem setpointSound_handleTimeout {start : Nat} {bc : BatteryControl} {past : List Step}
    (h : TracksRecord start (bc, past)) (now : Nat) :
    SetpointSound start (bc.handleTimeout now) past now := by
  intro watts heffective
  obtain ⟨htakes, setpoint, hs, hactive, hwatts⟩ := effective_setpoint heffective
  rcases bc.handleTimeout_cases now with ⟨he, hheard⟩ | ⟨-, he⟩ | ⟨-, he⟩ | ⟨-, -, he⟩
  · rw [he] at htakes hs ⊢
    obtain ⟨hstored, hunexpired⟩ := bc.expireSetpoint_active now hactive hs
    obtain ⟨since, haccepted, hexpiry⟩ := h.held setpoint hstored hactive
    have hrecent := hheard (takesSetpoint_isControlled (by simpa using htakes))
    rw [BatteryControl.heardFrom, h.heard, h.entered] at hrecent
    refine ⟨htakes, ⟨setpoint, since, haccepted, hwatts, hactive, fun d hd => ?_⟩, hrecent⟩
    exact hunexpired _ (by rw [hexpiry, hd]; rfl)
  all_goals simp [he, CobState.takesSetpoint] at htakes

theorem ticked_isControlled {bc : BatteryControl} {c : Call}
    (h : bc.state.isControlled = false) : (c.ticked bc).state.isControlled = false := by
  unfold Call.ticked
  split
  · rcases bc.handleTimeout_cases c.now with ⟨he, -⟩ | ⟨hs, -⟩ | ⟨-, he⟩ | ⟨-, -, he⟩
    · simpa [he] using h
    · simp [h] at hs
    · simp [he, CobState.isControlled]
    · simp [he, CobState.isControlled]
  · exact h

@[simp] theorem Call.ticked_lastHeartbeat (bc : BatteryControl) (c : Call) :
    (c.ticked bc).lastHeartbeat = bc.lastHeartbeat := by
  unfold Call.ticked
  split <;> simp

theorem taken_of_effect {start : Nat} {bc after : BatteryControl} {past : List Step} {c : Call}
    {out : Option WriteOutcome} (h : TracksRecord start (bc, past)) (heffect : Effect bc c after out)
    (htakes : TakesControl ⟨bc, c, out, after⟩) : OnRecentHeartbeat ⟨bc, c, out, after⟩ past := by
  obtain ⟨m, hm, hfree, hcontrolled⟩ := htakes
  -- the move the timers make never takes control, so it is the call's own
  have hown : (c.ticked bc).state.isControlled = false ∧ after.state.isControlled = true := by
    simp only [Step.moves, List.mem_cons, List.not_mem_nil, or_false, Step.ticked] at hm
    rcases hm with rfl | rfl
    · simp [ticked_isControlled hfree] at hcontrolled
    · exact ⟨hfree, hcontrolled⟩
  obtain ⟨hfree, hcontrolled⟩ := hown
  cases heffect with
  | moved hop hgate hstate =>
    refine ⟨hop, ?_⟩
    rcases hgate with hc | hb
    · simp [hfree] at hc
    · rwa [Call.ticked_lastHeartbeat, h.heard] at hb
  | released hop hstate =>
    have htick : c.ticked bc = bc := by simp [Call.ticked, hop, Op.ticksFirst]
    rw [htick, takesSetpoint_isControlled hstate] at hfree
    cases hfree
  | heard hop =>
    have htick : c.ticked bc = bc := by simp [Call.ticked, hop, Op.ticksFirst]
    rw [htick] at hfree
    simp [BatteryControl.onHeartbeat, hfree] at hcontrolled
  | accepted hop => simp [BatteryControl.accept, hfree] at hcontrolled
  | configured hbeat hop => simp [hfree] at hcontrolled
  | ticked hbeat hout => simp [hfree] at hcontrolled

theorem Effect.state_cases {bc after : BatteryControl} {c : Call} {out : Option WriteOutcome}
    (heffect : Effect bc c after out) :
    after.state = (c.ticked bc).state ∨ after.state.isControlled = true := by
  cases heffect with
  | heard hop => simp [Call.ticked, hop, Op.ticksFirst, BatteryControl.onHeartbeat]
  | moved hop hgate hstate => exact Or.inr (by simpa using hstate)
  | released hop hstate => exact Or.inr (by simp [CobState.isControlled])
  | accepted hop => exact Or.inl rfl
  | configured hbeat hop => exact Or.inl rfl
  | ticked hbeat hout => exact Or.inl rfl

theorem leavesFailsafe_of_effect {start : Nat} {bc after : BatteryControl} {past : List Step}
    {c : Call} {out : Option WriteOutcome} (h : TracksRecord start (bc, past))
    (heffect : Effect bc c after out) : LeavesFailsafeOnTime start ⟨bc, c, out, after⟩ past := by
  intro hm
  simp only [Step.moves, List.mem_cons, List.not_mem_nil, or_false, Step.ticked,
    Prod.mk.injEq] at hm
  rcases hm with ⟨hbefore, hticked⟩ | ⟨hticked, hafter⟩
  · unfold Call.ticked at hticked
    split at hticked
    · rcases bc.handleTimeout_cases c.now with ⟨he, -⟩ | ⟨hs, -⟩ | ⟨hs, -⟩ | ⟨-, hdue, -⟩
      · simp [he, ← hbefore] at hticked
      · simp [← hbefore, CobState.isControlled] at hs
      · simp [← hbefore] at hs
      · rwa [h.entered, h.first hbefore.symm] at hdue
    · simp [← hbefore] at hticked
  · rcases heffect.state_cases with he | he
    · simp [he, ← hticked] at hafter
    · simp [← hafter, CobState.isControlled] at he

theorem refusesQuietly_step (bc : BatteryControl) (c : Call) :
    RefusesQuietly ⟨bc, c, (system.step bc c).2, system.next bc c⟩ := by
  obtain ⟨op, now⟩ := c
  intro hop hrefused
  cases op with
  | setpoint write answer =>
    simp only [system, Machine.next, BatteryControl.onSetpoint] at hrefused ⊢
    split <;> try rfl
    split <;> try rfl
    split <;> try rfl
    simp_all
  | _ => simp [Op.isSetpoint] at hop

/-- Safety over whole runs of a battery inverter. Whatever is called on it and in whatever order:
after a tick a setpoint in force is the last accepted write; control is taken by control-mode
writes on a recent heartbeat; the failsafe state is left on its timers; and a refused setpoint
write changes nothing. -/
theorem battery_run_safe (config : CobConfig) (start : Nat) (calls : List Call) :
    let r := system.recorded.run (BatteryControl.new config start, []) calls
    (∀ now, SetpointSound start (r.1.handleTimeout now) r.2 now) ∧
    ∀ e past, e :: past <:+ r.2 →
      (TakesControl e → OnRecentHeartbeat e past) ∧ LeavesFailsafeOnTime start e past ∧
        RefusesQuietly e := by
  have hstep : ∀ p c, TracksRecord start p → True → TracksRecord start (system.recorded.next p c) :=
    fun p c hp _ => tracksRecord_step p c hp
  have hinit := tracksRecord_new config start
  have hadmits := system.recorded.admits_of_forall (fun _ _ => trivial) calls
  intro r
  refine ⟨fun now => ?_, system.recorded_run_events hstep (fun bc past c hp _ => ?_) hinit
    (hadmits _)⟩
  · exact setpointSound_handleTimeout
      (system.recorded.run_invariant _ (TracksRecord start) hstep calls _ hinit (hadmits _)) now
  · exact ⟨taken_of_effect hp (step_effect bc c), leavesFailsafe_of_effect hp (step_effect bc c),
      refusesQuietly_step bc c⟩

end Eebus.Cob
