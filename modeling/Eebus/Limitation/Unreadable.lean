import Eebus.Limitation.GuardBelief

/-!
Limit writes that cannot be read. Whether a write is for this system's limit is told from the fragment
that was sent, and whether the limit can be read from the document it was merged into. A write whose address
is not the very one of the limit's feature is not looked at.
-/

namespace Eebus.Limitation

open Eebus.Library Eebus.Model Eebus.Spine

variable {S : Schema}

/-- The entry of a limit, in a payload that names it. -/
def namedEntry (data : CmdData S) (id : Nat) : Option LoadControlLimitData :=
  match data with
  | ⟨.loadControlLimitListData, list⟩ =>
    list.loadControlLimitData.bind fun entries => entries.find? fun e => e.limitId == some id
  | _ => none

theorem readLimitWrite_eq (data : CmdData S) (id : Nat) :
    readLimitWrite data id = (namedEntry data id).bind readLimitEntry := by
  obtain ⟨key, list⟩ := data
  cases key with
  | loadControlLimitListData =>
    cases h : list.loadControlLimitData <;> simp [readLimitWrite, namedEntry, h]
  | _ => rfl

/-- The payload names the limit and its entry cannot be read: a value that cannot be represented, or an
end time that is no duration. -/
def Unreadable (data : CmdData S) (id : Nat) : Prop :=
  ∃ entry, namedEntry data id = some entry ∧ readLimitEntry entry = none

theorem readLimitWrite_of_unreadable {data : CmdData S} {id : Nat} (h : Unreadable data id) :
    readLimitWrite data id = none := by
  obtain ⟨entry, hentry, hread⟩ := h
  rw [readLimitWrite_eq, hentry]
  exact hread

namespace ControllableSystem

variable {cs : ControllableSystem} {now : Nat}

theorem onUnreadableLimitWrite_controls (hstate : cs.state.isControlled = false)
    (hrecent : cs.heartbeatIsRecent now = true) :
    (cs.onUnreadableLimitWrite now).1.state = .unlimitedControlled := by
  have hstill : (cs.handleTimeout now).state.isControlled = false := handleTimeout_isControlled hstate
  have hrecent' : (cs.handleTimeout now).heartbeatIsRecent now = true := by
    rw [heartbeatIsRecent, heartbeatWithin, handleTimeout_lastHeartbeat]
    exact hrecent
  simp [onUnreadableLimitWrite, refuse, hrecent', hstill]

end ControllableSystem

/-- The address of a write is the limit feature's, by the comparison the engine makes, and not that of the
failsafe values. -/
def CsFeatures.TakesLimit (features : CsFeatures) (write : WriteRequest S) : Prop :=
  features.isLoadControl write.feature = true ∧ features.isConfiguration write.feature = false

/-- The refusal of an unreadable limit write is heard by the state machine, which comes under control if
a heartbeat is recent; a write that is not for the limit leaves it alone. -/
def RefusalHeard (features : CsFeatures) (write : WriteRequest S) : Prop :=
  ∀ (actor : ControllableSystemActor) (e : Engine S) (now : Nat), actor.features = features →
    let next := actor.handleEvent e (.writeRequested write) now
    ((namedEntry write.data limitId).isSome → Unreadable write.resolved limitId →
      next.1.system = (actor.system.onUnreadableLimitWrite now).1 ∧
      next.2.2 = some (.limitUnreadable write.request (actor.system.onUnreadableLimitWrite now).2) ∧
      (actor.system.state ∈ [.init, .failsafeState, .unlimitedAutonomous] →
        actor.system.heartbeatIsRecent now = true → next.1.system.state = .unlimitedControlled)) ∧
    (namedEntry write.data limitId = none → next.1.system = actor.system)

section Decide

variable {actor : ControllableSystemActor} {e : Engine S} {write : WriteRequest S} {now : Nat}

theorem handleEvent_unreadable (hfeature : write.feature = actor.features.loadControl)
    (hresolved : (if (readLimitWrite write.data limitId).isSome then readLimitWrite write.resolved limitId
      else none) = none) :
    actor.handleEvent e (.writeRequested write) now =
      let r := actor.refuseUnreadable e write (readLimitWrite write.data limitId).isSome now
      (r.1, r.2.1, some r.2.2) := by
  simp only [ControllableSystemActor.handleEvent, if_pos hfeature, ControllableSystemActor.decideLimit,
    hresolved]

theorem refuseUnreadable_heard (hresolved : Unreadable write.resolved limitId)
    (hfeature : write.feature = actor.features.loadControl)
    (hread : (readLimitWrite write.data limitId).isSome = true) :
    let next := actor.handleEvent e (.writeRequested write) now
    next.1.system = (actor.system.onUnreadableLimitWrite now).1 ∧
      next.2.2 = some (.limitUnreadable write.request (actor.system.onUnreadableLimitWrite now).2) := by
  have hunread := readLimitWrite_of_unreadable hresolved
  rw [handleEvent_unreadable hfeature (by rw [if_pos hread, hunread]), hread]
  exact ⟨rfl, rfl⟩

theorem handleEvent_unheard (hfeature : write.feature = actor.features.loadControl)
    (hread : readLimitWrite write.data limitId = none) :
    (actor.handleEvent e (.writeRequested write) now).1.system = actor.system := by
  rw [handleEvent_unreadable hfeature (by rw [hread]; rfl), hread]
  rfl

theorem handleEvent_elsewhere (hload : write.feature ≠ actor.features.loadControl)
    (hconfiguration : write.feature ≠ actor.features.deviceConfiguration) :
    actor.handleEvent e (.writeRequested write) now = (actor, e, none) := by
  simp only [ControllableSystemActor.handleEvent, if_neg hload, if_neg hconfiguration]

end Decide

theorem CsFeatures.TakesLimit.ne {features : CsFeatures} {write : WriteRequest S}
    (h : features.TakesLimit write) : write.feature ≠ features.deviceConfiguration := by
  intro heq
  have hother := h.2
  rw [heq, CsFeatures.isConfiguration, sameFeature_refl] at hother
  cases hother

def listening (features : CsFeatures) : ControllableSystemActor :=
  .builder ((ControllableSystem.new Scenario.config 0).onHeartbeat 0) .consumption features

theorem listening_unmoved (features : CsFeatures) :
    (listening features).system.state = .init ∧ (listening features).system.heartbeatIsRecent 0 = true :=
  ⟨rfl, rfl⟩

theorem not_refusalHeard {features : CsFeatures} {write : WriteRequest S}
    (hnamed : (namedEntry write.data limitId).isSome) (hresolved : Unreadable write.resolved limitId)
    (hunmoved : ∀ e, ((listening features).handleEvent e (.writeRequested write) 0).1.system =
      (listening features).system) : ¬RefusalHeard features write := by
  intro hheard
  obtain ⟨hinit, hrecent⟩ := listening_unmoved features
  have hpresent := hheard (listening features)
    (Engine.new (.fromAddress Scenario.heatPump "HeatGenerationSystem")) 0 rfl
  have hmoved := (hpresent.1 hnamed hresolved).2.2 (by simp [hinit]) hrecent
  rw [hunmoved, hinit] at hmoved
  nomatch hmoved

/-- The refusal of an unreadable limit is heard exactly when the write names the feature in full, and the
entry that was sent can be read by itself. -/
theorem refusal_heard_iff (features : CsFeatures) (write : WriteRequest S) (hon : features.TakesLimit write) :
    RefusalHeard features write ↔
      ((namedEntry write.data limitId).isSome → Unreadable write.resolved limitId →
        write.feature = features.loadControl ∧ (readLimitWrite write.data limitId).isSome = true) := by
  constructor
  · intro hheard hnamed hresolved
    refine ⟨?_, ?_⟩
    · by_contra hfeature
      refine not_refusalHeard hnamed hresolved (fun e => ?_) hheard
      rw [@handleEvent_elsewhere S (listening features) e write 0 hfeature hon.ne]
    · by_contra hunread
      rw [Option.not_isSome_iff_eq_none] at hunread
      refine not_refusalHeard hnamed hresolved (fun e => ?_) hheard
      by_cases hfeature : write.feature = features.loadControl
      · exact @handleEvent_unheard S (listening features) e write 0 hfeature hunread
      · rw [@handleEvent_elsewhere S (listening features) e write 0 hfeature hon.ne]
  · rintro hreadable actor e now rfl
    refine ⟨fun hnamed hresolved => ?_, fun hunnamed => ?_⟩
    · obtain ⟨hfeature, hread⟩ := hreadable hnamed hresolved
      obtain ⟨hsystem, hevent⟩ := @refuseUnreadable_heard S actor e write now hresolved hfeature hread
      refine ⟨hsystem, hevent, fun hstate hrecent => ?_⟩
      rw [hsystem]
      refine ControllableSystem.onUnreadableLimitWrite_controls ?_ hrecent
      simp only [List.mem_cons, List.not_mem_nil, or_false] at hstate
      rcases hstate with h | h | h <;> rw [h] <;> rfl
    · by_cases hfeature : write.feature = actor.features.loadControl
      · exact handleEvent_unheard hfeature (by rw [readLimitWrite_eq, hunnamed]; rfl)
      · rw [handleEvent_elsewhere hfeature hon.ne]

def untilNoon : CmdData Schema.limitsOnly :=
  ⟨.loadControlLimitListData, ⟨some [⟨some limitId, none, some true,
    some ⟨none, some "2026-09-05T12:00:00Z"⟩, some (.new 4200 0)⟩]⟩⟩

def lowered : CmdData Schema.limitsOnly :=
  ⟨.loadControlLimitListData, ⟨some [⟨some limitId, none, none, none, some (.new 4200 0)⟩]⟩⟩

def unreadableWrite (feature : FeatureAddress) (data : CmdData Schema.limitsOnly) :
    WriteRequest Schema.limitsOnly :=
  ⟨0, 1, feature, Scenario.managerClient, data, untilNoon, false, false⟩

theorem unreadable_untilNoon : Unreadable untilNoon limitId := ⟨_, rfl, by decide⟩

theorem refusal_heard_iff_lowered :
    RefusalHeard Scenario.features (unreadableWrite Scenario.features.loadControl lowered) :=
  (refusal_heard_iff Scenario.features (unreadableWrite Scenario.features.loadControl lowered)
    ⟨by decide, by decide⟩).mpr fun _ _ => ⟨rfl, by decide⟩

/-- Neither is a limit that is written whole, so that what was sent is what it was merged into, nor one
that is sent to the feature without naming the device. -/
theorem refusal_unheard :
    ¬RefusalHeard Scenario.features (unreadableWrite Scenario.features.loadControl untilNoon) ∧
      Scenario.features.TakesLimit
        (unreadableWrite { Scenario.features.loadControl with device := none } lowered) ∧
      ¬RefusalHeard Scenario.features
        (unreadableWrite { Scenario.features.loadControl with device := none } lowered) := by
  refine ⟨not_refusalHeard (by decide) unreadable_untilNoon fun e => ?_, ⟨by decide, by decide⟩,
    not_refusalHeard (by decide) unreadable_untilNoon fun e => ?_⟩
  · exact @handleEvent_unheard _ (listening Scenario.features) e _ 0 rfl (by decide)
  · rw [@handleEvent_elsewhere _ (listening Scenario.features) e _ 0 (by decide) (by decide)]

end Eebus.Limitation
