import Eebus.Cob.Safety

/-!
The two frames of control. A setpoint is a number in the frame it was written for: the battery's own
power, or the power at the grid connection. The inverter keeps one slot for both, and a change of frame
leaves the slot as it is, so that a setpoint in force crosses over with the mode.
-/

namespace Eebus.Cob

open Eebus.Library

def acceptedHere : List Step → List SetpointWrite
  | [] => []
  | e :: past =>
    if e.ticked.state = e.after.state then
      (e.acceptedWrite.map Prod.fst).toList ++
        if e.before.state = e.ticked.state then acceptedHere past else []
    else []

/-- A setpoint that drives the inverter was accepted since its mode was entered. -/
def InFrame (bc : BatteryControl) (past : List Step) : Prop :=
  ∀ watts, bc.state = .powerControl ∨ bc.state = .pccControl → bc.effective = .setpoint watts →
    ∃ write ∈ acceptedHere past, write.watts = watts

/-- The call is an accepted mode write that takes a setpoint in force into another frame. -/
def CarriesOver (bc : BatteryControl) (c : Call) : Prop :=
  ∃ mode, c.op = .controlMode mode true ∧ (CobState.ofMode mode).takesSetpoint = true ∧
    (bc.handleTimeout c.now).state ≠ .ofMode mode ∧
    (bc.handleTimeout c.now).setpoint.any SetpointWrite.isActive = true

def HeldUnderControl (bc : BatteryControl) : Prop :=
  ∀ setpoint, bc.setpoint = some setpoint → setpoint.isActive = true → bc.state.isControlled = true

def AcceptedHere (bc : BatteryControl) (past : List Step) : Prop :=
  ∀ setpoint, bc.setpoint = some setpoint → setpoint.isActive = true → bc.state.takesSetpoint = true →
    setpoint ∈ acceptedHere past

variable {bc : BatteryControl} {c : Call} {past : List Step} {setpoint : SetpointWrite} {now : Nat}

theorem handleTimeout_controlled (hcontrolled : (bc.handleTimeout now).state.isControlled = true)
    (hs : (bc.handleTimeout now).setpoint = some setpoint) (hactive : setpoint.isActive = true) :
    bc.state = (bc.handleTimeout now).state ∧ bc.setpoint = some setpoint := by
  obtain ⟨he, -⟩ | ⟨-, he⟩ | ⟨-, he⟩ | ⟨-, -, he⟩ := bc.handleTimeout_cases now
  · rw [he] at hs
    exact ⟨by rw [he, BatteryControl.expireSetpoint_state], (bc.expireSetpoint_active now hactive hs).1⟩
  all_goals
    rw [he, BatteryControl.enter_state] at hcontrolled
    cases hcontrolled

theorem HeldUnderControl.handleTimeout (h : HeldUnderControl bc) (now : Nat) :
    HeldUnderControl (bc.handleTimeout now) := by
  intro setpoint hs hactive
  obtain ⟨he, -⟩ | ⟨-, he⟩ | ⟨hstate, he⟩ | ⟨hstate, -, he⟩ := bc.handleTimeout_cases now
  · rw [he] at hs ⊢
    rw [BatteryControl.expireSetpoint_state]
    exact h setpoint (bc.expireSetpoint_active now hactive hs).1 hactive
  · rw [he, BatteryControl.enter_setpoint] at hs
    cases hs
  all_goals
    rw [he, BatteryControl.enter_setpoint] at hs
    have hcontrolled := h setpoint (bc.expireSetpoint_active now hactive hs).1 hactive
    rw [hstate] at hcontrolled
    cases hcontrolled

theorem HeldUnderControl.ticked (h : HeldUnderControl bc) (c : Call) : HeldUnderControl (c.ticked bc) := by
  unfold Call.ticked
  split
  · exact h.handleTimeout c.now
  · exact h

theorem ticked_controlled (hcontrolled : (c.ticked bc).state.isControlled = true)
    (hs : (c.ticked bc).setpoint = some setpoint) (hactive : setpoint.isActive = true) :
    bc.state = (c.ticked bc).state ∧ bc.setpoint = some setpoint := by
  unfold Call.ticked at hcontrolled hs ⊢
  split at hcontrolled
  case isTrue hticks =>
    rw [if_pos hticks] at hs ⊢
    exact handleTimeout_controlled hcontrolled hs hactive
  case isFalse hticks =>
    rw [if_neg hticks] at hs ⊢
    exact ⟨rfl, hs⟩

/-- What a call does to the state and the setpoint, on top of its timers: nothing, a move to
`autoControl`, the move an accepted mode asks for, or an accepted setpoint in place of the old one. -/
theorem next_cases (bc : BatteryControl) (c : Call) :
    ((system.next bc c).setpoint = (c.ticked bc).setpoint ∧
      ((system.next bc c).state = (c.ticked bc).state ∨ (system.next bc c).state = .autoControl ∨
        ∃ mode, c.op = .controlMode mode true ∧ (system.next bc c).state = .ofMode mode)) ∨
    ∃ write answer, c.op = .setpoint write answer ∧ (system.step bc c).2 = some .accepted ∧
      (c.ticked bc).state.takesSetpoint = true ∧ (system.next bc c).state = (c.ticked bc).state ∧
      ∀ setpoint, (system.next bc c).setpoint = some setpoint → setpoint.isActive = true → setpoint = write := by
  obtain ⟨op, now⟩ := c
  cases op with
  | heartbeat => exact .inl ⟨rfl, .inl rfl⟩
  | timeout => exact .inl ⟨rfl, .inl rfl⟩
  | controlMode mode answer =>
    left
    simp only [system, Machine.next, BatteryControl.onControlMode]
    split
    · exact ⟨rfl, .inl rfl⟩
    · cases answer with
      | false => exact ⟨BatteryControl.enter_setpoint .., .inr (.inl (BatteryControl.enter_state ..))⟩
      | true =>
        exact ⟨BatteryControl.enter_setpoint .., .inr (.inr ⟨mode, rfl, BatteryControl.enter_state ..⟩)⟩
  | goAutonomous =>
    left
    simp only [system, Machine.next, BatteryControl.goAutonomous]
    split
    · exact ⟨BatteryControl.enter_setpoint .., .inr (.inl (BatteryControl.enter_state ..))⟩
    · exact ⟨rfl, .inl rfl⟩
  | setpoint write answer =>
    simp only [system, Machine.next, BatteryControl.onSetpoint]
    by_cases htakes : (bc.handleTimeout now).state.takesSetpoint = true
    · rw [if_neg (by simp [htakes])]
      split
      · exact .inl ⟨rfl, .inl rfl⟩
      · split
        · exact .inl ⟨rfl, .inl rfl⟩
        · refine .inr ⟨write, answer, rfl, rfl, htakes, rfl, fun setpoint hs hactive => ?_⟩
          dsimp only at hs
          split at hs
          · obtain rfl := Option.some.inj hs
            cases hactive
          · exact (Option.some.inj hs).symm
    · rw [if_pos (by simp [htakes])]
      exact .inl ⟨rfl, .inl rfl⟩
  | failsafeDuration duration =>
    left
    simp only [system, Machine.next, BatteryControl.onFailsafeDuration]
    split
    · exact ⟨rfl, .inl rfl⟩
    · split <;> exact ⟨rfl, .inl rfl⟩
  | failsafeSetpoint watts =>
    left
    simp only [system, Machine.next, BatteryControl.onFailsafeSetpoint]
    split
    · exact ⟨rfl, .inl rfl⟩
    · split <;> exact ⟨rfl, .inl rfl⟩

theorem HeldUnderControl.next (h : HeldUnderControl bc) (c : Call) : HeldUnderControl (system.next bc c) := by
  intro setpoint hs hactive
  obtain ⟨hsame, hstate⟩ | ⟨write, answer, -, -, htakes, hstate, -⟩ := next_cases bc c
  · obtain hstate | hstate | ⟨mode, -, hstate⟩ := hstate <;> rw [hstate]
    · exact h.ticked c setpoint (hsame ▸ hs) hactive
    · rfl
    · exact ofMode_isControlled mode
  · rw [hstate]
    exact takesSetpoint_isControlled htakes

abbrev taken (bc : BatteryControl) (c : Call) : Step :=
  ⟨bc, c, (system.step bc c).2, system.next bc c⟩

theorem acceptedHere_taken (bc : BatteryControl) (c : Call) (past : List Step) :
    acceptedHere (taken bc c :: past) =
      if (c.ticked bc).state = (system.next bc c).state then
        ((taken bc c).acceptedWrite.map Prod.fst).toList ++
          if bc.state = (c.ticked bc).state then acceptedHere past else []
      else [] := rfl

theorem mem_acceptedHere_of_stays (hbefore : bc.state = (c.ticked bc).state)
    (hafter : (c.ticked bc).state = (system.next bc c).state) (h : setpoint ∈ acceptedHere past) :
    setpoint ∈ acceptedHere (taken bc c :: past) := by
  rw [acceptedHere_taken, if_pos hafter, if_pos hbefore]
  exact List.mem_append_right _ h

theorem AcceptedHere.next (h : AcceptedHere bc past) (hspares : ¬CarriesOver bc c) :
    AcceptedHere (system.next bc c) (taken bc c :: past) := by
  intro setpoint hs hactive htakes
  obtain ⟨hsame, hstate⟩ | ⟨write, answer, hop, hout, -, hstate, hwrite⟩ := next_cases bc c
  · rw [hsame] at hs
    -- whatever moved the state, it is the one the timers left
    have hstays : (c.ticked bc).state = (system.next bc c).state := by
      obtain hstate | hstate | ⟨mode, hop, hstate⟩ := hstate
      · exact hstate.symm
      · rw [hstate] at htakes
        cases htakes
      · by_contra hmoves
        have hticks : c.ticked bc = bc.handleTimeout c.now := if_pos (by rw [hop]; rfl)
        rw [hstate, hticks] at hmoves
        rw [hticks] at hs
        exact hspares ⟨mode, hop, hstate ▸ htakes, hmoves, by rw [hs]; exact hactive⟩
    rw [← hstays] at htakes
    obtain ⟨hbefore, hheld⟩ := ticked_controlled (takesSetpoint_isControlled htakes) hs hactive
    exact mem_acceptedHere_of_stays hbefore hstays (h setpoint hheld hactive (hbefore ▸ htakes))
  · have haccepted : (taken bc c).acceptedWrite = some (write, c.now) := by
      unfold Step.acceptedWrite
      dsimp only
      rw [hop, hout]
    rw [acceptedHere_taken, if_pos hstate.symm, haccepted, hwrite setpoint hs hactive]
    exact List.mem_append_left _ (List.mem_singleton_self write)

theorem AcceptedHere.inFrame (h : AcceptedHere bc past) : InFrame bc past := by
  intro watts _ heffective
  obtain ⟨htakes, setpoint, hs, hactive, hwatts⟩ := effective_setpoint heffective
  exact ⟨setpoint, h setpoint hs hactive htakes, hwatts⟩

theorem CarriesOver.not_inFrame (h : CarriesOver bc c) (hheld : HeldUnderControl bc) :
    ¬InFrame (system.next bc c) (taken bc c :: past) := by
  obtain ⟨mode, hop, htakes, hmoves, hactive⟩ := h
  obtain ⟨setpoint, hs, hon⟩ := (Option.any_eq_true _ _).mp hactive
  have hticks : c.ticked bc = bc.handleTimeout c.now := if_pos (by rw [hop]; rfl)
  have hcontrolled := hheld.handleTimeout c.now setpoint hs hon
  have hopen : (bc.handleTimeout c.now).needsRecentHeartbeat = false := by
    unfold BatteryControl.needsRecentHeartbeat
    revert hcontrolled
    cases (bc.handleTimeout c.now).state <;> simp [CobState.isControlled]
  have hnext : system.next bc c =
      { bc.handleTimeout c.now with awaitingModeSince := none }.enter (.ofMode mode) c.now := by
    obtain ⟨op, now⟩ := c
    subst hop
    simp [system, Machine.next, BatteryControl.onControlMode, hopen]
  have hstate : (system.next bc c).state = .ofMode mode := by rw [hnext, BatteryControl.enter_state]
  have heffective : (system.next bc c).effective = .setpoint setpoint.watts := by
    have hkept : (system.next bc c).setpoint = some setpoint := by
      rw [hnext, BatteryControl.enter_setpoint]
      exact hs
    unfold BatteryControl.effective
    rw [hkept, hstate]
    cases mode with
    | auto => cases htakes
    | power | pcc => exact if_pos hon
  intro hframe
  have hmode : (system.next bc c).state = .powerControl ∨ (system.next bc c).state = .pccControl := by
    rw [hstate]
    cases mode with
    | auto => cases htakes
    | power => exact .inl rfl
    | pcc => exact .inr rfl
  obtain ⟨write, hwrite, -⟩ := hframe _ hmode heffective
  rw [acceptedHere_taken, if_neg (by rw [hstate, hticks]; exact hmoves)] at hwrite
  cases hwrite

/-- In every state a run reaches the setpoint that drives the inverter was accepted since its mode was
entered, exactly when no call of the run takes an active setpoint into another mode. -/
theorem in_frame_iff (config : CobConfig) (start : Nat) (calls : List Call) :
    (∀ before, before <+: calls →
      let r := system.recorded.run (BatteryControl.new config start, []) before
      InFrame r.1 r.2) ↔
    system.Admits (fun bc c => ¬CarriesOver bc c) (BatteryControl.new config start) calls := by
  rw [← system.admits_recorded calls (BatteryControl.new config start) []]
  have hnew : HeldUnderControl (BatteryControl.new config start) := nofun
  constructor
  · intro hframes
    refine system.recorded.admits_of_steps fun before c hprefix hcarries => ?_
    have hheld := system.recorded.run_invariant (fun _ _ => True) (fun p => HeldUnderControl p.1)
      (fun p c hp _ => hp.next c) before (BatteryControl.new config start, []) hnew
      (system.recorded.admits_of_forall (fun _ _ => trivial) before _)
    have hafter := hframes _ hprefix
    rw [system.recorded.run_append] at hafter
    exact hcarries.not_inFrame hheld hafter
  · intro hspares before hprefix
    have hkept := system.recorded.run_invariant (fun p c => ¬CarriesOver p.1 c)
      (fun p => AcceptedHere p.1 p.2) (fun p c hp hc => hp.next hc) before
      (BatteryControl.new config start, []) nofun (system.recorded.admits_prefix hspares hprefix)
    exact hkept.inFrame

/-- Three kilowatts for the battery become three kilowatts at the grid connection. -/
theorem setpoint_crosses_frames :
    let config := CobConfig.new failsafeDurationMin
    let watts := F64.ofInt 3000
    let calls : List Call := [⟨.heartbeat, 10⟩, ⟨.controlMode .power true, 11⟩, ⟨.setpoint ⟨true, watts, none⟩ true, 12⟩,
      ⟨.controlMode .pcc true, 13⟩]
    let r := system.recorded.run (BatteryControl.new config 0, []) calls
    r.1.state = .pccControl ∧ r.1.effective = .setpoint watts ∧ ¬InFrame r.1 r.2 := by
  intro config watts calls r
  have hstate : r.1.state = .pccControl := by decide +kernel
  have heffective : r.1.effective = .setpoint watts := by decide +kernel
  refine ⟨hstate, heffective, fun hframe => ?_⟩
  obtain ⟨write, hwrite, -⟩ := hframe watts (.inr hstate) heffective
  have hnone : acceptedHere r.2 = [] := by decide +kernel
  rw [hnone] at hwrite
  cases hwrite

end Eebus.Cob
