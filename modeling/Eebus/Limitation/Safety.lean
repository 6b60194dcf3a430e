import Eebus.Limitation.History

/-!
Safety of the limitation state machine over whole runs: what a limit in force rests on, who takes
control, when the failsafe state is left and when its values change.
-/

namespace Eebus.Limitation

open Eebus.Library

/-- A limit in force is the last accepted write, usable, unexpired and heard about. -/
def HeldLimitSound (start : Nat) (cs : ControllableSystem) (past : List Step) (now : Nat) : Prop :=
  cs.state = .limited → ∃ write since, lastAccepted past = some (write, since) ∧
    cs.limit = some write ∧ write.isActive = true ∧ write.watts.isFinite = true ∧
    write.watts.isNegative = false ∧ (∀ d, write.duration = some d → now < since + d) ∧
    now - (lastHeartbeat past).getD (enteredAt start past) < heartbeatTimeout

/-- The call is a limit write inside the window a heartbeat opened. -/
def OnRecentHeartbeat (e : Step) (past : List Step) : Prop :=
  e.input.op.isLimitWrite = true ∧
    ∃ hb, lastHeartbeat past = some hb ∧ e.input.now - hb < writeWindow

/-- The call takes back an acceptance that the call before it did not give. -/
def TakesBackNothing (e : Step) (past : List Step) : Prop :=
  e.input.op = .unstoredLimitWrite ∧ past.head?.bind Step.acceptedWrite = none

/-- The call moves the system under the Energy Guard's control. -/
def TakesControl (e : Step) : Prop :=
  ∃ m ∈ Step.moves e, m.1.isControlled = false ∧ m.2.isControlled = true

/-- The failsafe state is left for good only when one of its two timers has run out. -/
def LeavesFailsafeOnTime (start : Nat) (e : Step) (past : List Step) : Prop :=
  (LimitationState.failsafeState, LimitationState.unlimitedAutonomous) ∈ Step.moves e →
    e.before.config.failsafeDuration ≤ e.input.now - enteredAt start past ∨
      ∃ hb, firstHeartbeat past = some hb ∧ settleTimeout ≤ e.input.now - hb

/-- The failsafe values change only after a limit write evaluated since the last fallback. -/
def ConfiguresInSequence (e : Step) (past : List Step) : Prop :=
  (e.after.config.failsafeWatts ≠ e.before.config.failsafeWatts ∨
      e.after.config.failsafeDuration ≠ e.before.config.failsafeDuration) →
    fallsBack e.before.state (Step.ticked e).state = false ∧ evaluatedSince past = true

variable {after cs : ControllableSystem} {out : Option WriteOutcome}

theorem heldLimitSound_handleTimeout {start : Nat} {past : List Step}
    (h : TracksRecord start (cs, past)) (now : Nat) :
    HeldLimitSound start (cs.handleTimeout now) past now := by
  intro hs
  rcases cs.handleTimeout_cases now with
    ⟨he, hsettled⟩ | ⟨-, -, he⟩ | ⟨-, -, he⟩ | ⟨-, he⟩ | ⟨-, -, he⟩
  · rw [he] at hs ⊢
    obtain ⟨write, since, hlast, hlimit, hactive, hfinite, hpositive, hexpiry⟩ := h.held hs
    refine ⟨write, since, hlast, hlimit, hactive, hfinite, hpositive, fun d hd => ?_, ?_⟩
    · exact hsettled.2.1 hs _ (by rw [hexpiry, hd]; rfl)
    · have hheard := hsettled.1 (by simp [hs, LimitationState.isControlled])
      rwa [ControllableSystem.heardFrom, h.heard, h.entered] at hheard
  all_goals simp [he] at hs

theorem taken_of_effect {start : Nat} {past : List Step} {c : Call}
    (h : TracksRecord start (cs, past))
    (hhead : past.head?.bind Step.acceptedWrite ≠ none → cs.state.isControlled = true)
    (heffect : Effect cs c after out) (htakes : TakesControl ⟨cs, c, out, after⟩) :
    OnRecentHeartbeat ⟨cs, c, out, after⟩ past ∨ TakesBackNothing ⟨cs, c, out, after⟩ past := by
  obtain ⟨m, hm, hfree, hcontrolled⟩ := htakes
  -- the move the timers make never takes control, so it is the call's own
  have hfree : (c.ticked cs).state.isControlled = false ∧ after.state.isControlled = true := by
    simp only [Step.moves, List.mem_cons, List.not_mem_nil, or_false, Step.ticked] at hm
    rcases hm with rfl | rfl
    · simp [Call.ticked_isControlled hfree] at hcontrolled
    · exact ⟨hfree, hcontrolled⟩
  obtain ⟨hfree, hcontrolled⟩ := hfree
  have hrecent : (c.ticked cs).Evaluates c.now →
      ∃ hb, lastHeartbeat past = some hb ∧ c.now - hb < writeWindow := by
    rintro (hc | hb)
    · simp [hfree] at hc
    · rwa [Call.ticked_lastHeartbeat, h.heard] at hb
  cases heffect with
  | heard hop =>
    have htick : c.ticked cs = cs := by simp [Call.ticked, hop, Op.ticksFirst]
    rw [htick] at hfree
    simp [ControllableSystem.onHeartbeat, hfree] at hcontrolled
  | accepted hop hgate hvalid => exact Or.inl ⟨by simp [hop, Op.isLimitWrite], hrecent hgate⟩
  | refused hop hgate hreason => exact Or.inl ⟨hop, hrecent hgate⟩
  | ticked hout hbeat => simp [hfree] at hcontrolled
  | configured hop hbeat hsequence hduration => simp [hfree] at hcontrolled
  | unstored hop =>
    have htick : c.ticked cs = cs := by simp [Call.ticked, hop, Op.ticksFirst]
    refine Or.inr ⟨hop, ?_⟩
    by_contra hne
    rw [htick, hhead hne] at hfree
    cases hfree
  | interrupted hop hlimited =>
    have htick : c.ticked cs = cs := by simp [Call.ticked, hop, Op.ticksFirst]
    simp [htick, hlimited, LimitationState.isControlled] at hfree

theorem acceptedWrite_isControlled {c : Call} (heffect : Effect cs c after out)
    (h : Step.acceptedWrite ⟨cs, c, out, after⟩ ≠ none) : after.state.isControlled = true := by
  cases heffect with
  | @accepted write decision hop hgate hvalid =>
    simpa [ControllableSystem.accept] using target_isControlled write
  | heard hop => simp [Step.acceptedWrite] at h
  | refused hop hgate hreason => exact absurd (Step.acceptedWrite_none (by simp)) h
  | ticked hout hbeat =>
    refine absurd (Step.acceptedWrite_none ?_) h
    cases hl : c.op.isLimitWrite <;> simp_all
  | configured hop hbeat hsequence hduration => exact absurd (Step.acceptedWrite_none (Or.inl hop)) h
  | unstored hop => simp [Step.acceptedWrite] at h
  | interrupted hop hlimited => simp [Step.acceptedWrite] at h

theorem Effect.state_cases {c : Call} (heffect : Effect cs c after out) :
    after.state = (c.ticked cs).state ∨ after.state.isControlled = true := by
  cases heffect with
  | heard hop => simp [Call.ticked, hop, Op.ticksFirst, ControllableSystem.onHeartbeat]
  | @accepted write decision hop hgate hvalid =>
    right
    simpa [ControllableSystem.accept] using target_isControlled write
  | @refused reason hop hgate hreason => exact Or.inr (refuse_isControlled _ reason _)
  | ticked hout hbeat => exact Or.inl rfl
  | configured hop hbeat hsequence hduration => exact Or.inl rfl
  | unstored hop => simp [ControllableSystem.onUnstoredLimitWrite, LimitationState.isControlled]
  | interrupted hop hlimited => simp [LimitationState.isControlled]

theorem leavesFailsafe_of_effect {start : Nat} {past : List Step}
    {c : Call} (h : TracksRecord start (cs, past)) (heffect : Effect cs c after out) :
    LeavesFailsafeOnTime start ⟨cs, c, out, after⟩ past := by
  intro hm
  simp only [Step.moves, List.mem_cons, List.not_mem_nil, or_false, Step.ticked,
    Prod.mk.injEq] at hm
  rcases hm with ⟨hbefore, hticked⟩ | ⟨hticked, hafter⟩
  · unfold Call.ticked at hticked
    split at hticked
    · rcases cs.handleTimeout_cases c.now with
        ⟨he, -⟩ | ⟨hs, -, -⟩ | ⟨hs, -, -⟩ | ⟨hs, -⟩ | ⟨-, hdue, -⟩
      · simp [he, ← hbefore] at hticked
      · simp [← hbefore, LimitationState.isControlled] at hs
      · simp [← hbefore] at hs
      · simp [← hbefore] at hs
      · rwa [h.entered, h.first hbefore.symm] at hdue
    · simp [← hbefore] at hticked
  · rcases heffect.state_cases with he | he
    · simp [he, ← hticked] at hafter
    · simp [← hafter, LimitationState.isControlled] at he

theorem configures_of_effect {start : Nat} {past : List Step}
    {c : Call} (h : TracksRecord start (cs, past))
    (heffect : Effect cs c after out) : ConfiguresInSequence ⟨cs, c, out, after⟩ past := by
  intro hchange
  cases heffect with
  | heard hop => simp [ControllableSystem.onHeartbeat] at hchange
  | accepted hop hgate hvalid => simp [ControllableSystem.accept] at hchange
  | refused hop hgate hreason =>
    simp only [ControllableSystem.refuse] at hchange
    split at hchange <;> simp at hchange
  | ticked hout hbeat => simp at hchange
  | configured hop hbeat hsequence hduration => simpa [Step.ticked] using (Tracks.ticked h c).evaluated hsequence
  | unstored hop => simp [ControllableSystem.onUnstoredLimitWrite] at hchange
  | interrupted hop hlimited => simp at hchange

/-- Safety over whole runs of a Controllable System. Whatever is called on it and in whatever
order: after a tick a limit in force is the last accepted write; control is taken by limit writes
on a recent heartbeat, or by taking back an acceptance nobody gave; the failsafe state is left on
its timers; and the failsafe values change only in sequence. -/
theorem limitation_run_safe (config : CsConfig) (start : Nat) (calls : List Call) :
    let r := system.recorded.run (ControllableSystem.new config start, []) calls
    (∀ now, HeldLimitSound start (r.1.handleTimeout now) r.2 now) ∧
    ∀ e past, e :: past <:+ r.2 →
      (TakesControl e → OnRecentHeartbeat e past ∨ TakesBackNothing e past) ∧
      LeavesFailsafeOnTime start e past ∧ ConfiguresInSequence e past := by
  let Inv : ControllableSystem × List Step → Prop := fun p =>
    TracksRecord start p ∧ (p.2.head?.bind Step.acceptedWrite ≠ none → p.1.state.isControlled = true)
  have hinit : Inv (ControllableSystem.new config start, []) :=
    ⟨tracksRecord_new config start, by simp⟩
  have hstep : ∀ p c, Inv p → True → Inv (system.recorded.next p c) := fun p c hp _ =>
    ⟨tracksRecord_step p c hp.1, fun hne => acceptedWrite_isControlled (step_effect p.1 c) hne⟩
  have hadmits := system.recorded.admits_of_forall (fun _ _ => trivial) calls
  intro r
  refine ⟨fun now => ?_, system.recorded_run_events hstep (fun cs past c hp _ => ?_) hinit (hadmits _)⟩
  · exact heldLimitSound_handleTimeout
      (system.recorded.run_invariant _ Inv hstep calls _ hinit (hadmits _)).1 now
  · exact ⟨taken_of_effect hp.1 hp.2 (step_effect cs c),
      leavesFailsafe_of_effect hp.1 (step_effect cs c), configures_of_effect hp.1 (step_effect cs c)⟩

/-- Taking back an acceptance before any was given takes control with no heartbeat heard. -/
theorem unstored_write_takes_control_unheard :
    let config := CsConfig.new ⟨0x40b0680000000000⟩ (fromSecs 7200)
    let r := system.recorded.run (ControllableSystem.new config 0, []) [⟨.unstoredLimitWrite, 0⟩]
    ¬ ∀ e past, e :: past <:+ r.2 → TakesControl e → OnRecentHeartbeat e past := by
  intro config r h
  obtain ⟨hwrite, -⟩ := h _ [] List.suffix_rfl
    ⟨(.init, .unlimitedControlled), by decide, by decide, by decide⟩
  exact absurd hwrite (by decide)

section Undone

variable (cs : ControllableSystem) (write : LimitWrite) (now : Nat)

/-- What is left once the acceptance of a write that could not be stored has been taken back. -/
def ControllableSystem.undone : ControllableSystem :=
  (cs.onLimitWrite write .apply now).1.onUnstoredLimitWrite now

theorem undone_fields : (cs.undone write now).limit = none ∧ (cs.undone write now).limitExpiry = none ∧
    (cs.undone write now).state = .unlimitedControlled := by
  simp [ControllableSystem.undone, ControllableSystem.onUnstoredLimitWrite]

@[simp] theorem handleTimeout_limit : (cs.handleTimeout now).limit = cs.limit := by
  rcases cs.handleTimeout_cases now with ⟨h, -⟩ | ⟨-, -, h⟩ | ⟨-, -, h⟩ | ⟨-, h⟩ | ⟨-, -, h⟩ <;> simp [h]

@[simp] theorem handleTimeout_limitExpiry : (cs.handleTimeout now).limitExpiry = cs.limitExpiry := by
  rcases cs.handleTimeout_cases now with ⟨h, -⟩ | ⟨-, -, h⟩ | ⟨-, -, h⟩ | ⟨-, h⟩ | ⟨-, -, h⟩ <;> simp [h]

variable {cs write now}

theorem handleTimeout_eq_limited_iff (hexpiry : cs.limitExpiry = none) :
    (cs.handleTimeout now).state = .limited ↔
      cs.state = .limited ∧ now - cs.heardFrom < heartbeatTimeout := by
  constructor
  · intro hlimited
    rcases cs.handleTimeout_cases now with
      ⟨he, hsettled⟩ | ⟨-, -, he⟩ | ⟨-, -, he⟩ | ⟨-, he⟩ | ⟨-, -, he⟩
    · rw [he] at hlimited
      exact ⟨hlimited, hsettled.1 (by rw [hlimited]; rfl)⟩
    all_goals
      rw [he, ControllableSystem.enter_state] at hlimited
      cases hlimited
  · rintro ⟨hlimited, hheard⟩
    rw [ControllableSystem.handleTimeout_limited hlimited, if_neg (by omega), hexpiry]
    exact hlimited

theorem onLimitWrite_reject (haccepted : (cs.onLimitWrite write .apply now).2.isAccepted = true)
    (reason : RejectReason) : (cs.onLimitWrite write (.reject reason) now).1 =
      ((cs.handleTimeout now).refuse (.cannotApply reason) now).1 := by
  unfold ControllableSystem.onLimitWrite at haccepted ⊢
  dsimp only at haccepted ⊢
  split at haccepted
  · cases haccepted
  case isFalse hgate =>
    rw [if_neg hgate]
    split at haccepted
    · unfold ControllableSystem.refuse at haccepted
      cases haccepted
    case h_2 hvalid =>
      obtain ⟨hfinite, hnonneg⟩ := limitRefusal_none hvalid
      have hrefusal : limitRefusal write (.reject reason) = some (.cannotApply reason) := by
        simp [limitRefusal, hfinite, hnonneg]
      rw [hrefusal]

/-- An acceptance that is taken back leaves what a refusal of the write would have left exactly where the
system held no limit. -/
theorem unstored_as_refused_iff (haccepted : (cs.onLimitWrite write .apply now).2.isAccepted = true)
    (reason : RejectReason) :
    let refused := (cs.onLimitWrite write (.reject reason) now).1
    ((cs.undone write now).limit = refused.limit ∧
      (cs.undone write now).limitExpiry = refused.limitExpiry ∧
      (cs.undone write now).state = refused.state) ↔
    cs.limit = none ∧ cs.limitExpiry = none ∧
      (cs.state = .limited → heartbeatTimeout ≤ now - cs.heardFrom) := by
  intro refused
  have hrefused : refused = ((cs.handleTimeout now).refuse (.cannotApply reason) now).1 :=
    onLimitWrite_reject haccepted reason
  obtain ⟨hlimit, hexpiry, hstate⟩ := undone_fields cs write now
  rw [hlimit, hexpiry, hstate, hrefused]
  have hkept : ((cs.handleTimeout now).refuse (.cannotApply reason) now).1.limit = cs.limit ∧
      ((cs.handleTimeout now).refuse (.cannotApply reason) now).1.limitExpiry = cs.limitExpiry := by
    unfold ControllableSystem.refuse
    dsimp only
    split <;> simp
  have hleft : ((cs.handleTimeout now).refuse (.cannotApply reason) now).1.state = .unlimitedControlled ↔
      (cs.handleTimeout now).state ≠ .limited := by
    unfold ControllableSystem.refuse
    cases hticked : (cs.handleTimeout now).state <;> simp [hticked, LimitationState.isControlled]
  rw [hkept.1, hkept.2, @eq_comm _ none cs.limit, @eq_comm _ none cs.limitExpiry,
    @eq_comm _ LimitationState.unlimitedControlled, hleft]
  refine and_congr_right fun _ => and_congr_right fun hnone => ?_
  rw [ne_eq, handleTimeout_eq_limited_iff hnone]
  push Not
  rfl

end Undone

/-- A system under a limit of 4200 W, a second after it was given. -/
def underLimit : ControllableSystem :=
  ((((ControllableSystem.new (.new ⟨0x40b0680000000000⟩ (fromSecs 7200)) 0).onHeartbeat 0).onLimitWrite
    (.active ⟨0x40b0680000000000⟩) .apply 0).1)

theorem unstored_as_refused_iff_unlimited :
    let cs := (ControllableSystem.new (.new ⟨0x40b0680000000000⟩ (fromSecs 7200)) 0).onHeartbeat 0
    let refused := (cs.onLimitWrite .deactivated (.reject .safetyRelated) 1).1
    (cs.undone .deactivated 1).limit = refused.limit ∧
      (cs.undone .deactivated 1).limitExpiry = refused.limitExpiry ∧
      (cs.undone .deactivated 1).state = refused.state :=
  (unstored_as_refused_iff (by decide +kernel) .safetyRelated).mpr (by decide +kernel)

/-- A limit that cannot be stored takes the one before it along: the system was limited and is so no
longer, where a refusal would have left it limited. -/
theorem unstored_limit_lifts_the_one_before :
    underLimit.state = .limited ∧ (underLimit.onLimitWrite .deactivated .apply 1).2.isAccepted = true ∧
      (underLimit.undone .deactivated 1).state = .unlimitedControlled ∧
      (underLimit.undone .deactivated 1).limit = none ∧
      (underLimit.onLimitWrite .deactivated (.reject .safetyRelated) 1).1.state = .limited ∧
      (underLimit.onLimitWrite .deactivated (.reject .safetyRelated) 1).1.limit = underLimit.limit := by
  decide +kernel

end Eebus.Limitation
