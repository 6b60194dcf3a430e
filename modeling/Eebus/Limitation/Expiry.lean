import Eebus.Limitation.Deciding
import Eebus.Limitation.Outgoing

/-!
What a Controllable System has accepted, and how long it stays limited by it: the expiry of the limit in
force is that of the limit accepted last, and every acceptance takes a limit write that was put to it.
-/

namespace Eebus.Limitation

open Eebus.Library Eebus.Model Eebus.Spine

variable {S : Schema}

/-- A system that is limited is so by the limit it accepted last, an active one, and until its expiry. -/
def ControllableSystem.Held (accepted : List (Nat × LimitWrite)) (cs : ControllableSystem) : Prop :=
  cs.state = .limited → ∃ time limit earlier, accepted = (time, limit) :: earlier ∧
    limit.isActive = true ∧ cs.limitExpiry = limit.duration.map (time + ·)

namespace ControllableSystem.Held

variable {accepted : List (Nat × LimitWrite)} {cs cs' : ControllableSystem} {now : Nat}

theorem of_free (h : cs.state ≠ .limited) : cs.Held accepted := fun hlimited => absurd hlimited h

theorem of_same (h : cs.Held accepted) (hstate : cs'.state = cs.state)
    (hexpiry : cs'.limitExpiry = cs.limitExpiry) : cs'.Held accepted := by
  unfold Held
  rw [hstate, hexpiry]
  exact h

theorem enter (state : LimitationState) (hstate : state ≠ .limited) :
    (cs.enter state now).Held accepted := of_free (by rwa [enter_state])

theorem handleTimeout (h : cs.Held accepted) (now : Nat) : (cs.handleTimeout now).Held accepted := by
  rcases cs.handleTimeout_cases now with ⟨he, -⟩ | ⟨-, -, he⟩ | ⟨-, -, he⟩ | ⟨-, he⟩ | ⟨-, -, he⟩
  · rwa [he]
  all_goals exact he ▸ enter _ nofun

theorem refuse (h : cs.Held accepted) (reason : NackReason) (now : Nat) :
    (cs.refuse reason now).1.Held accepted := by
  unfold ControllableSystem.refuse
  dsimp only
  split
  · exact h.of_same rfl rfl
  · exact of_same (enter .unlimitedControlled nofun) rfl rfl

theorem accept (cs : ControllableSystem) (write : LimitWrite) (now : Nat) :
    (cs.accept write now).Held ((now, write) :: accepted) :=
  fun hlimited => by
    refine ⟨now, write, accepted, rfl, ?_, by simp [ControllableSystem.accept]⟩
    rw [ControllableSystem.accept, enter_state, LimitWrite.target] at hlimited
    split at hlimited
    case isTrue hactive => exact hactive.1
    case isFalse => cases hlimited

theorem onLimitWrite (h : cs.Held accepted) (write : LimitWrite) (decision : LocalDecision) (now : Nat) :
    (cs.onLimitWrite write decision now).1.Held
      (if (cs.onLimitWrite write decision now).2.isAccepted then (now, write) :: accepted
        else accepted) := by
  unfold ControllableSystem.onLimitWrite
  dsimp only
  split
  · exact h.handleTimeout now
  · split
    · exact (h.handleTimeout now).refuse _ now
    · exact accept _ write now

theorem onUnreadableLimitWrite (h : cs.Held accepted) (now : Nat) :
    (cs.onUnreadableLimitWrite now).1.Held accepted := by
  unfold ControllableSystem.onUnreadableLimitWrite
  dsimp only
  split
  · exact h.handleTimeout now
  · exact (h.handleTimeout now).refuse _ now

theorem onFailsafeLimitWrite (h : cs.Held accepted) (watts : F64) (now : Nat) :
    (cs.onFailsafeLimitWrite watts now).1.Held accepted := by
  have hticked := h.handleTimeout now
  unfold ControllableSystem.onFailsafeLimitWrite
  dsimp only
  repeat' split
  all_goals exact hticked

theorem onFailsafeDurationWrite (h : cs.Held accepted) (duration now : Nat) :
    (cs.onFailsafeDurationWrite duration now).1.Held accepted := by
  have hticked := h.handleTimeout now
  unfold ControllableSystem.onFailsafeDurationWrite
  dsimp only
  repeat' split
  all_goals exact hticked

theorem interrupt (h : cs.Held accepted) (reason : RejectReason) (now : Nat) :
    (cs.interrupt reason now).1.Held accepted := by
  unfold ControllableSystem.interrupt
  repeat' split
  all_goals first | exact h | exact of_free (by rw [enter_state]; nofun)

end ControllableSystem.Held

def CsEvent.accepts : CsEvent → Option LimitWrite
  | .limitDecided _ limit .accepted => some limit
  | _ => none

def taking (accepted : List (Nat × LimitWrite)) (now : Nat) (event : Option CsEvent) :
    List (Nat × LimitWrite) :=
  match event.bind CsEvent.accepts with
  | some limit => (now, limit) :: accepted
  | none => accepted

section Actor

variable {accepted : List (Nat × LimitWrite)} {actor : ControllableSystemActor} {e : Engine S}

theorem held_decideLimit (h : actor.system.Held accepted) (write : WriteRequest S) (now : Nat) :
    (actor.decideLimit e write now).1.system.Held
      (taking accepted now (some (actor.decideLimit e write now).2.2)) := by
  unfold ControllableSystemActor.decideLimit
  dsimp only
  split
  case h_1 =>
    unfold ControllableSystemActor.refuseUnreadable
    cases (readLimitWrite write.data limitId).isSome with
    | true => exact h.onUnreadableLimitWrite now
    | false => exact h
  case h_2 limit _ =>
    have hdecided := h.onLimitWrite limit .apply now
    unfold ControllableSystemActor.answerLimit
    dsimp only
    cases houtcome : (actor.system.onLimitWrite limit .apply now).2 with
    | accepted =>
      rw [houtcome] at hdecided
      simp only [WriteOutcome.isAccepted, if_true] at hdecided ⊢
      split
      · exact hdecided
      · exact .of_free (by
          rw [ControllableSystemActor.log, ControllableSystem.onUnstoredLimitWrite,
            ControllableSystem.enter_state]
          decide)
    | rejected reason =>
      rw [houtcome] at hdecided
      exact hdecided

theorem held_decideFailsafe (h : actor.system.Held accepted) (write : WriteRequest S) (now : Nat) :
    (actor.decideFailsafe e write now).1.system.Held accepted := by
  have hkeys : ∀ (resolved : DeviceConfigurationKeyValueListData) (keys : List Nat)
      (acc : ControllableSystem × WriteOutcome), acc.1.Held accepted →
        (keys.foldl (ControllableSystemActor.decideKey resolved now) acc).1.Held accepted := by
    intro resolved keys
    induction keys with
    | nil => exact fun _ hacc => hacc
    | cons key rest ih =>
      intro acc hacc
      refine ih _ ?_
      unfold ControllableSystemActor.decideKey
      dsimp only
      split
      · exact hacc
      case h_2 system outcome heq =>
        split at heq
        · obtain ⟨rfl, rfl⟩ := Prod.mk.inj (Option.some.inj heq)
          exact hacc.onFailsafeLimitWrite _ now
        · split at heq
          · obtain ⟨rfl, rfl⟩ := Prod.mk.inj (Option.some.inj heq)
            exact hacc.onFailsafeDurationWrite _ now
          · cases heq
  unfold ControllableSystemActor.decideFailsafe
  split
  · dsimp only
    split
    · split <;> exact hkeys _ _ _ h
    · exact hkeys _ _ _ h
  · exact h

theorem accepts_onBinding (b : Belief) (features : CsFeatures) (client server : FeatureAddress) :
    (b.onBinding features client server).2.bind CsEvent.accepts = none := by
  unfold Belief.onBinding
  dsimp only
  repeat' split
  all_goals rfl

theorem accepts_onData (feature : FeatureAddress) (resolved : CmdData S) (now : Nat) :
    (actor.onData e feature resolved now).2.2.bind CsEvent.accepts = none := by
  unfold ControllableSystemActor.onData
  dsimp only
  split
  · split <;> rfl
  · rfl

theorem accepts_decideFailsafe (write : WriteRequest S) (now : Nat) :
    (some (actor.decideFailsafe e write now).2.2).bind CsEvent.accepts = none := by
  unfold ControllableSystemActor.decideFailsafe
  split
  · dsimp only
    split
    · split <;> rfl
    · rfl
  · rfl

theorem readLimitWrite_key {data : CmdData S} {id : Nat} (h : (readLimitWrite data id).isSome = true) :
    data.key = .loadControlLimitListData := by
  obtain ⟨key, value⟩ := data
  cases key with
  | loadControlLimitListData => rfl
  | _ => cases h

theorem accepts_decideLimit {write : WriteRequest S} {now : Nat} {limit : LimitWrite}
    (h : (actor.decideLimit e write now).2.2.accepts = some limit) :
    (readLimitWrite write.data limitId).isSome = true ∧ readLimitWrite write.resolved limitId = some limit := by
  unfold ControllableSystemActor.decideLimit at h
  dsimp only at h
  split at h
  case h_1 => cases h
  case h_2 read hread =>
    split at hread
    case isFalse => cases hread
    case isTrue haddressed =>
      refine ⟨haddressed, hread.trans ?_⟩
      unfold ControllableSystemActor.answerLimit at h
      dsimp only at h
      cases houtcome : (actor.system.onLimitWrite read .apply now).2 with
      | accepted =>
        rw [houtcome] at h
        simp only [WriteOutcome.isAccepted, if_true] at h
        split at h
        · exact h
        · cases h
      | rejected reason =>
        rw [houtcome] at h
        cases h

theorem handleEvent_accepts {event : SpineEvent S} {now : Nat} {limit : LimitWrite}
    (h : (actor.handleEvent e event now).2.2.bind CsEvent.accepts = some limit) :
    ∃ write, event = .writeRequested write ∧ (readLimitWrite write.data limitId).isSome = true ∧
      readLimitWrite write.resolved limitId = some limit := by
  unfold ControllableSystemActor.handleEvent at h
  cases event with
  | dataNotified feature data resolved | replyReceived feature data resolved =>
    dsimp only at h
    rw [accepts_onData feature resolved now] at h
    cases h
  | bindingGranted client server =>
    dsimp only at h
    rw [accepts_onBinding _ _ _ _] at h
    cases h
  | writeRequested write =>
    dsimp only at h
    split at h
    · exact ⟨write, rfl, accepts_decideLimit h⟩
    · split at h
      · dsimp only at h
        rw [accepts_decideFailsafe write now] at h
        cases h
      · cases h
  | _ => cases h

theorem taking_none {event : Option CsEvent} (h : event.bind CsEvent.accepts = none) (now : Nat) :
    taking accepted now event = accepted := by
  unfold taking
  rw [h]

theorem mem_taking {event : Option CsEvent} {now : Nat} {taken : Nat × LimitWrite}
    (h : taken ∈ taking accepted now event) :
    taken ∈ accepted ∨ event.bind CsEvent.accepts = some taken.2 := by
  unfold taking at h
  split at h
  case h_1 limit hlimit =>
    rcases List.mem_cons.mp h with rfl | hmem
    · exact .inr hlimit
    · exact .inl hmem
  case h_2 => exact .inl h

theorem length_taking_le (accepted : List (Nat × LimitWrite)) (event : Option CsEvent) (now : Nat) :
    (taking accepted now event).length ≤ accepted.length + 1 := by
  unfold taking
  split
  · exact le_refl _
  · exact Nat.le_succ _

theorem held_handleEvent (h : actor.system.Held accepted) (event : SpineEvent S) (now : Nat) :
    (actor.handleEvent e event now).1.system.Held
      (taking accepted now (actor.handleEvent e event now).2.2) := by
  have hdata : ∀ feature resolved, (actor.onData e feature resolved now).1.system.Held
      (taking accepted now (actor.onData e feature resolved now).2.2) := by
    intro feature resolved
    rw [taking_none (accepts_onData feature resolved now)]
    unfold ControllableSystemActor.onData
    dsimp only
    split
    · exact h.of_same rfl rfl
    · exact h
  unfold ControllableSystemActor.handleEvent
  cases event with
  | dataNotified feature data resolved => exact hdata feature resolved
  | replyReceived feature data resolved => exact hdata feature resolved
  | bindingGranted client server =>
    dsimp only
    rw [taking_none (accepts_onBinding _ _ _ _)]
    exact h
  | writeRequested write =>
    dsimp only
    split
    · exact held_decideLimit h write now
    · split
      · dsimp only
        rw [taking_none (accepts_decideFailsafe write now)]
        exact held_decideFailsafe h write now
      · exact h
  | _ => exact h

end Actor

def limitRequests (e : Engine S) : Nat :=
  (requestsIn e.events).countP fun write => write.data.key == .loadControlLimitListData

def PutsNothing (e e' : Engine S) : Prop := requestsIn e'.events = requestsIn e.events

section Puts

variable {e e' e'' : Engine S}

theorem PutsNothing.trans (h : PutsNothing e e') (h' : PutsNothing e' e'') : PutsNothing e e'' :=
  Eq.trans h' h

theorem PutsNothing.of_accounts {decided : List Nat} (h : Accounts [] decided e e') : PutsNothing e e' := by
  obtain ⟨new, hevents, hreported, -⟩ := h
  rw [PutsNothing, hevents, requestsIn_append, requestsIn_eq_nil hreported, List.append_nil]

theorem PutsNothing.of_announces (h : Announces e e') : PutsNothing e e' := congrArg requestsIn h.events

theorem putsNothing_rejectWrite (e : Engine S) (token : Nat) (error : ErrorNumber) :
    PutsNothing e (e.rejectWrite token error).1 := by
  cases hfound : e.findDeferred token with
  | none =>
    rw [Engine.rejectWrite, hfound]
    rfl
  | some write => exact .of_accounts (Engine.accounts_rejectWrite hfound error)

theorem putsNothing_acceptWrite (e : Engine S) (token : Nat) : PutsNothing e (e.acceptWrite token).1 := by
  unfold Engine.acceptWrite
  cases hfound : e.findDeferred token with
  | none =>
    rw [Engine.finishWrite, hfound]
    rfl
  | some write => exact .of_accounts (Engine.accounts_finishWrite hfound none)

theorem putsNothing_follow (b : Belief) (e : Engine S) (features : CsFeatures) (now : Nat) :
    PutsNothing e (b.follow e features now).2 := by
  unfold Belief.follow
  repeat' split
  all_goals first | rfl | exact .of_accounts (Engine.accounts_request _ _ _ _ _ _ _)

theorem putsNothing_decision {actor : ControllableSystemActor} {token : Nat}
    {result : ControllableSystemActor × Engine S × CsEvent} (h : actor.Decision e token result) :
    PutsNothing e result.2.1 := by
  rcases h.engine with ⟨error, hrejected⟩ | ⟨speaker, haccepted⟩
  · rw [hrejected]
    exact putsNothing_rejectWrite _ _ _
  · rw [haccepted]
    exact (putsNothing_acceptWrite e token).trans (.of_announces (.of_publish _ _))

theorem putsNothing_handleEvent (actor : ControllableSystemActor) (event : SpineEvent S) (now : Nat) :
    PutsNothing e (actor.handleEvent e event now).2.1 := by
  have hdata : ∀ feature resolved, PutsNothing e (actor.onData e feature resolved now).2.1 := by
    intro feature resolved
    unfold ControllableSystemActor.onData
    dsimp only
    split <;> rfl
  unfold ControllableSystemActor.handleEvent
  cases event with
  | dataNotified feature data resolved => exact hdata feature resolved
  | replyReceived feature data resolved => exact hdata feature resolved
  | bindingGranted client server => exact putsNothing_follow _ _ _ now
  | discoveryUpdated device => exact putsNothing_follow _ _ _ now
  | writeRequested write =>
    dsimp only
    split
    · exact putsNothing_decision (actor.decideLimit_decision e write now)
    · split
      · exact putsNothing_decision (actor.decideFailsafe_decision e write now)
      · rfl
  | _ => rfl

theorem isLimitWrite_of_put {e : Engine S} {datagram : Datagram S} {now : Nat} {w : DatagramWrite S}
    {put : WriteRequest S} {write : DeferredWrite S} (h : e.Deferral datagram now w put write)
    (hkey : put.data.key = .loadControlLimitListData) : isLimitWrite datagram = true := by
  obtain ⟨header, hheader, -, hclassifier, -⟩ := h.admitted.takenUp.header
  have hpayload := h.admitted.payload
  rw [h.payload] at hkey
  simp only [isLimitWrite, Datagram.isWrite, hheader, Option.bind_some, hclassifier,
    h.admitted.isWrite, h.admitted.command, List.any_cons, hpayload, Option.any_some, hkey,
    beq_self_eq_true, Bool.true_or, Bool.and_self]

theorem limitRequests_handleDatagram (e : Engine S) (datagram : Datagram S) (now : Nat) :
    limitRequests (e.handleDatagram datagram now).1 ≤
      limitRequests e + if isLimitWrite datagram then 1 else 0 := by
  obtain ⟨reported, ⟨new, hevents, -, -⟩, -⟩ := e.accounts_handleDatagram datagram now
  have hput := putBetween_of_append hevents
  rw [limitRequests, hevents, requestsIn_append, List.countP_append, ← hput, ← limitRequests]
  refine Nat.add_le_add_left ?_ _
  cases e.handleDatagram_puts datagram now with
  | inl hnone =>
    rw [hnone.1, List.countP_nil]
    exact Nat.zero_le _
  | inr hone =>
    obtain ⟨w, put, write, hdeferral⟩ := hone
    rw [hdeferral.told, List.countP_singleton]
    by_cases hkey : put.data.key = .loadControlLimitListData
    · rw [isLimitWrite_of_put hdeferral hkey, if_pos rfl]
      split <;> omega
    · rw [if_neg (by simpa using hkey)]
      exact Nat.zero_le _

end Puts

end Eebus.Limitation
