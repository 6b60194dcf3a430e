import Eebus.Ship.Scripted

/-!
From the PIN phase on a handshake keeps to its script too. Every message of the peer's script, in its
turn, and every call of the application leave it there, and no message comes as a surprise but data that
finds it locked, or the opening and the protocol handshake after its close.
-/

namespace Eebus.Ship

open Eebus.Library

variable {configs : Role → HandshakeConfig} {role : Role}

namespace Handshake

variable {base : Origin} {said heard : Progress} {hs hs' : Handshake} {now : Nat}

def posture (hs : Handshake) :
    Phase × Bool × Bool × Option MessageProtocolHandshake × PinState × Option PinState :=
  (hs.phase, hs.helloLocalReady, hs.helloRemoteReady, hs.proposed, hs.localPinState, hs.peerPinState)

theorem Stands.congr (h : hs.Stands configs role said heard) (hposture : hs'.posture = hs.posture)
    (hprolongation : hs'.timers.sendProlongation = hs.timers.sendProlongation ∨
      hs'.timers.sendProlongation = none)
    (hpenalty : hs'.timers.pinPenalty = hs.timers.pinPenalty ∨ hs'.timers.pinPenalty = none) :
    hs'.Stands configs role said heard := by
  simp only [posture, Prod.mk.injEq] at hposture
  obtain ⟨hphase, hlocal, hremote, hproposed, hpin, hpeerPin⟩ := hposture
  have hprolongation' : hs.timers.sendProlongation = none → hs'.timers.sendProlongation = none :=
    fun hnone => hprolongation.elim (·.trans hnone) id
  have hpenalty' : hs.timers.pinPenalty = none → hs'.timers.pinPenalty = none :=
    fun hnone => hpenalty.elim (·.trans hnone) id
  cases h with
  | cmi phase said_eq heard_eq waiting timers =>
    exact .cmi (hphase.trans phase) said_eq heard_eq (by rw [hlocal, hremote, hproposed]; exact waiting)
      ⟨hprolongation' timers.1, hpenalty' timers.2⟩
  | hello phase said_eq heard_eq waiting timers =>
    exact .hello (hphase.trans phase) (by rw [hlocal]; exact said_eq) (by rw [hremote]; exact heard_eq)
      (by rw [hlocal, hremote, hproposed]; exact waiting) (hpenalty' timers)
  | announced phase role_eq said_eq heard_eq timers =>
    exact .announced (hphase.trans phase) role_eq said_eq heard_eq
      ⟨hprolongation' timers.1, hpenalty' timers.2⟩
  | listening phase role_eq said_eq heard_eq proposed timers =>
    exact .listening (hphase.trans phase) role_eq said_eq heard_eq (hproposed.trans proposed)
      ⟨hprolongation' timers.1, hpenalty' timers.2⟩
  | selected phase role_eq said_eq heard_eq proposed timers =>
    exact .selected (hphase.trans phase) role_eq said_eq heard_eq (by rw [hproposed]; exact proposed)
      ⟨hprolongation' timers.1, hpenalty' timers.2⟩
  | confirmed phase said_eq heard_eq timers =>
    exact .confirmed (hphase.trans phase) said_eq heard_eq (hprolongation' timers)
  | heldUp phase said_eq heard_eq held timers =>
    exact .heldUp (hphase.trans phase) said_eq heard_eq (by rw [hpin, hpeerPin]; exact held)
      (hprolongation' timers)
  | exchanging phase said_eq heard_eq met timers =>
    exact .exchanging (hphase.trans phase) said_eq heard_eq (by rw [hpin]; exact met)
      (hprolongation' timers)
  | closing phase said_eq heard_eq => exact .closing (hphase.trans phase) said_eq heard_eq
  | ended hover => exact .ended (by rw [isOver, hphase]; exact hover)

/-- After the protocol handshake, in a connection that is not over. -/
structure InPin (configs : Role → HandshakeConfig) (role : Role) (base : Origin) (said : Progress)
    (hs : Handshake) : Prop where
  kept : hs.Kept configs role base said
  stands : (hs.phase = .pin ∨ hs.phase = .dataExchange ∧ hs.localPinState ≠ .required) ∧
      said = ⟨.pinned, false⟩ ∧ hs.timers.sendProlongation = none ∨
    hs.phase = .closing ∧ said.closing = true

theorem sendPinIfPermitted_peerPinState : hs.sendPinIfPermitted.1.peerPinState = hs.peerPinState := by
  unfold sendPinIfPermitted
  repeat' split
  all_goals rfl

namespace InPin

theorem needs_pinned (s : Stage) : (s.needs role).rank ≤ Stage.pinned.rank := by
  cases role <;> cases s <;> decide

theorem relock {base' : Origin} (h : hs.InPin configs role base said)
    (hkept : hs'.Kept configs role base' said) (hphase : hs'.phase = hs.phase)
    (htimers : hs'.timers.sendProlongation = hs.timers.sendProlongation)
    (hmet : hs.localPinState ≠ .required → hs'.localPinState ≠ .required) :
    hs'.InPin configs role base' said := by
  refine ⟨hkept, ?_⟩
  rw [hphase, htimers]
  exact h.stands.imp (fun hpin => ⟨hpin.1.imp id fun hdata => ⟨hdata.1, hmet hdata.2⟩, hpin.2⟩) id

section

variable (h : hs.InPin configs role base said)

include h

theorem set (hkept : hs'.Kept configs role base said) (hphase : hs'.phase = hs.phase)
    (htimers : hs'.timers.sendProlongation = hs.timers.sendProlongation) :
    hs'.InPin configs role base said := by
  have hstate : hs'.localPinState = hs.localPinState :=
    congrArg PinLock.state (hkept.locked.trans h.kept.locked.symm)
  refine h.relock hkept hphase htimers fun hmet => ?_
  rw [hstate]
  exact hmet

theorem scripted
    (hheld : hs.phase = .pin → hs.localPinState = .required ∧ hs.peerPinState.isSome = true) :
    hs.FollowsScript configs role base ⟨.pinned, false⟩ := by
  refine ⟨said, h.kept, needs_pinned _, ?_⟩
  obtain ⟨hphase | hphase, hsaid, htimers⟩ | ⟨hphase, hsaid⟩ := h.stands
  · exact .heldUp hphase hsaid rfl (hheld hphase) htimers
  · exact .exchanging hphase.1 hsaid rfl hphase.2 htimers
  · exact .closing hphase hsaid rfl

theorem hear_pinState {state : ConnectionPinState} (hstate : state.pinState.isSome = true) :
    said.hear configs role (.control (.connectionPinState state)) = some said := by
  obtain ⟨-, rfl, -⟩ | ⟨-, hclosing⟩ := h.stands
  · exact Progress.hear_pinState hstate (.inl rfl) rfl
  · exact Progress.hear_closing hclosing _

theorem hear_pinInput (pin : Option String) :
    said.hear configs role (.control (.connectionPinInput pin)) = some said := by
  obtain ⟨-, rfl, -⟩ | ⟨-, hclosing⟩ := h.stands
  · rfl
  · exact Progress.hear_closing hclosing _

theorem say {message : ShipMessage}
    (hsaid : said.say configs role message = some said) :
    (hs.send message).InPin configs role base said := h.set (h.kept.send hsaid) rfl rfl

theorem sendPinError (error : Option Nat) :
    (hs.send (.control (.connectionPinError error))).InPin configs role base said := by
  refine h.say ?_
  obtain ⟨-, rfl, -⟩ | ⟨-, hclosing⟩ := h.stands
  · rfl
  · exact Progress.hear_closing hclosing (.control (.connectionPinError error))

theorem sendPinState : hs.sendPinState.InPin configs role base said :=
  h.say (h.hear_pinState rfl)

theorem sendPinIfPermitted : hs.sendPinIfPermitted.1.InPin configs role base said := by
  unfold Handshake.sendPinIfPermitted
  split
  · exact h
  split
  · exact h
  split
  · exact h.set (h.kept.report nofun) rfl rfl
  split
  · exact h
  · refine say ?_ (h.hear_pinInput _)
    exact h.set (h.kept.set ⟨rfl, rfl, rfl⟩ ⟨rfl, rfl⟩ rfl rfl rfl) rfl rfl

theorem tryFinishPin (hpeer : hs.phase = .pin → hs.peerPinState.isSome = true) :
    hs.tryFinishPin.FollowsScript configs role base ⟨.pinned, false⟩ := by
  unfold Handshake.tryFinishPin
  split
  case isTrue hphase => exact h.scripted fun hpin => absurd hpin hphase
  case isFalse hphase =>
    rw [not_not] at hphase
    split
    case isTrue hready =>
      have hopened : { hs with
          phase := .dataExchange
          timers := { hs.timers with wait := none } }.InPin configs role base said := by
        refine ⟨h.kept.set ⟨rfl, rfl, rfl⟩ ⟨rfl, rfl⟩ rfl rfl rfl, ?_⟩
        obtain ⟨-, hsaid⟩ | ⟨hclosing, -⟩ := h.stands
        · exact .inl ⟨.inr ⟨rfl, hready.1⟩, hsaid⟩
        · rw [hphase] at hclosing
          cases hclosing
      dsimp only
      split
      · exact scripted (hopened.set (hopened.kept.report nofun) rfl rfl) nofun
      · exact hopened.scripted nofun
    case isFalse hready =>
      refine h.scripted fun _ => ⟨?_, hpeer hphase⟩
      by_contra hlocal
      exact hready ⟨hlocal, hpeer hphase⟩

end

end InPin

namespace Scripted

variable {heard' : Progress}

theorem inPin {stage : Stage} (h : hs.Scripted configs role base said ⟨stage, false⟩)
    (hstage : stage = .pinned ∨ stage = Stage.pinned.needs role) (hrunning : hs.isOver = false) :
    hs.InPin configs role base said := by
  refine ⟨h.kept, ?_⟩
  cases h.stands with
  | confirmed hphase said_eq _ timers => exact .inl ⟨.inl hphase, said_eq, timers⟩
  | heldUp hphase said_eq _ _ timers => exact .inl ⟨.inl hphase, said_eq, timers⟩
  | exchanging hphase said_eq _ met timers => exact .inl ⟨.inr ⟨hphase, met⟩, said_eq, timers⟩
  | closing hphase said_eq => exact .inr ⟨hphase, said_eq⟩
  | ended hover => simp [hover] at hrunning
  | hello _ _ heard_eq =>
    cases hready : hs.helloRemoteReady <;> rw [hready] at heard_eq <;> cases heard_eq <;> cases role <;>
      simp [Stage.needs] at hstage
  | selected _ role_eq _ heard_eq =>
    cases heard_eq
    cases role_eq
    simp [Stage.needs] at hstage
  | cmi _ _ heard_eq | announced _ _ _ heard_eq | listening _ _ _ heard_eq =>
    cases heard_eq
    cases role <;> simp [Stage.needs] at hstage

theorem held (h : hs.Scripted configs role base said ⟨.pinned, false⟩) (hphase : hs.phase = .pin) :
    hs.localPinState = .required ∧ hs.peerPinState.isSome = true := by
  cases h.stands with
  | heldUp _ _ _ held => exact held
  | confirmed _ _ heard_eq => cases role <;> cases heard_eq
  | ended hover => simp [isOver, hphase] at hover
  | _ => simp [*] at hphase

theorem onPinState (h : hs.Scripted configs role base said heard) (hrunning : hs.isOver = false)
    {state : ConnectionPinState}
    (hheard : heard.hear configs role.other (.control (.connectionPinState state)) = some heard') :
    (hs.onPinState state).FollowsScript configs role base heard' := by
  obtain ⟨stage, closing⟩ := heard
  obtain rfl : closing = false := h.stands.listens hrunning
  obtain ⟨stage', hstage', rfl⟩ := Option.map_eq_some_iff.mp hheard
  obtain ⟨hstate, rfl, hstage⟩ := Stage.afterPinState_iff.mp hstage'
  have hother : role.other.other = role := by cases role <;> rfl
  rw [hother] at hstage
  have hpin : hs.InPin configs role base said := h.inPin hstage hrunning
  obtain ⟨pinState, hpinState⟩ := Option.isSome_iff_exists.mp hstate
  have hnoted : ({ hs with
      timers := { hs.timers with wait := none }
      peerPinState := some pinState }.report (.peerPinState pinState)).InPin configs role base said := by
    refine hpin.set (Kept.report ?_ nofun) rfl rfl
    exact hpin.kept.set ⟨rfl, rfl, rfl⟩ ⟨rfl, rfl⟩ rfl rfl rfl
  unfold Handshake.onPinState
  rw [hpinState]
  dsimp only
  split
  · refine hnoted.sendPinIfPermitted.tryFinishPin fun _ => ?_
    rw [sendPinIfPermitted_peerPinState]
    rfl
  · exact hnoted.tryFinishPin fun _ => rfl

theorem lock_attempt (hs : Handshake) (input : Option String) : hs.lock.attempt input =
    if hs.pinPenaltyUntil.isSome then hs.lock
    else if input.isSome ∧ input = expectedPin hs.config.pin then { hs.lock with state := .pinOk }
    else { hs.lock with
      attempts := min (hs.pinAttempts + 1) (2 ^ 32 - 1)
      barred := (pinPenalty (min (hs.pinAttempts + 1) (2 ^ 32 - 1))).isSome } := rfl

theorem onPinInput (h : hs.Scripted configs role base said heard) (hrunning : hs.isOver = false)
    {input : Option String}
    (hheard : heard.hear configs role.other (.control (.connectionPinInput input)) = some heard') :
    (hs.onPinInput input now).FollowsScript configs role
      { base with lock := base.lock.attempt input } heard' := by
  obtain ⟨stage, closing⟩ := heard
  obtain rfl : closing = false := h.stands.listens hrunning
  obtain ⟨stage', hstage', rfl⟩ := Option.map_eq_some_iff.mp hheard
  simp only [Stage.after] at hstage'
  split at hstage'
  case isFalse => cases hstage'
  case isTrue hstage =>
    subst hstage
    cases hstage'
    have hpin : hs.InPin configs role base said := h.inPin (.inl rfl) hrunning
    rw [← hpin.kept.locked, lock_attempt]
    unfold Handshake.onPinInput
    split
    case isTrue =>
      rw [hpin.kept.locked]
      exact hpin.sendPinState.scripted h.held
    case isFalse hfree =>
    split
    case isTrue =>
      refine InPin.tryFinishPin (?_ : InPin configs role _ said _) fun hphase => (h.held hphase).2
      refine InPin.say ?_ (hpin.hear_pinState rfl)
      refine hpin.relock (Kept.report ?_ fun _ h => by cases h) rfl rfl fun _ h => by cases h
      exact hpin.kept.relock ⟨rfl, rfl, rfl⟩ ⟨rfl, rfl⟩ rfl rfl rfl
    case isFalse =>
      have hanswered : ({ hs with pinAttempts := min (hs.pinAttempts + 1) (2 ^ 32 - 1) }.send
          (.control (.connectionPinError (some 1)))).InPin configs role { base with
            lock := { hs.lock with attempts := min (hs.pinAttempts + 1) (2 ^ 32 - 1) } } said := by
        refine InPin.sendPinError ?_ _
        exact hpin.relock (hpin.kept.relock ⟨rfl, rfl, rfl⟩ ⟨rfl, rfl⟩ rfl rfl rfl) rfl rfl id
      dsimp only
      split
      case h_1 penalty hpenalty =>
        refine InPin.scripted (InPin.sendPinState (?_ : InPin configs role _ said _)) h.held
        refine hanswered.relock ?_ rfl rfl id
        have hbarred : (pinPenalty (min (hs.pinAttempts + 1) (2 ^ 32 - 1))).isSome = true :=
          Option.isSome_of_eq_some hpenalty
        rw [hbarred]
        exact hanswered.kept.relock ⟨rfl, rfl, rfl⟩ ⟨rfl, rfl⟩ rfl rfl rfl
      case h_2 hpenalty =>
        have hbarred : (pinPenalty (min (hs.pinAttempts + 1) (2 ^ 32 - 1))).isSome = hs.lock.barred :=
          (Option.isSome_eq_false_iff.mpr (Option.isNone_iff_eq_none.mpr hpenalty)).trans
            (Bool.not_eq_true _ ▸ hfree).symm
        rw [hbarred]
        exact hanswered.scripted h.held

theorem onData (h : hs.Scripted configs role base said heard) (hrunning : hs.isOver = false)
    (hopen : hs.phase = .pin → hs.localPinState ≠ .required)
    (hheard : heard.hear configs role.other .data = some heard') :
    hs.isReadyForData = true ∧ heard' = heard := by
  obtain ⟨stage, closing⟩ := heard
  obtain rfl : closing = false := h.stands.listens hrunning
  simp only [Progress.hear, Bool.false_eq_true, if_false] at hheard
  split at hheard
  case isFalse => cases hheard
  case isTrue hstage =>
    subst hstage
    cases hheard
    refine ⟨?_, rfl⟩
    obtain ⟨hphase | hphase, -⟩ | ⟨hphase, -⟩ := (h.inPin (.inl rfl) hrunning).stands
    · exact absurd (h.held hphase).1 (hopen hphase)
    · rw [isReadyForData, hphase.1]
    · rw [isReadyForData, hphase]

end Scripted

namespace Scripted

variable {heard' : Progress}

section

variable (h : hs.Scripted configs role base said heard)

include h

theorem set (hkept : hs'.Kept configs role base said) (hposture : hs'.posture = hs.posture)
    (hprolongation : hs'.timers.sendProlongation = hs.timers.sendProlongation)
    (hpenalty : hs'.timers.pinPenalty = hs.timers.pinPenalty) :
    hs'.Scripted configs role base said heard :=
  ⟨hkept, h.needs, h.stands.congr hposture (.inl hprolongation) (.inl hpenalty)⟩

theorem say {message : ShipMessage}
    (hsaid : said.say configs role message = some said) :
    (hs.send message).Scripted configs role base said heard := h.set (h.kept.send hsaid) rfl rfl rfl

theorem report {event : HandshakeEvent}
    (hevent : ∀ phase, event ≠ .aborted (.unexpectedMessage phase)) :
    (hs.report event).Scripted configs role base said heard := h.set (h.kept.report hevent) rfl rfl rfl

theorem sendKeyMaterial : (hs.sendKeyMaterial now).Scripted configs role base said heard := by
  unfold Handshake.sendKeyMaterial
  split
  · exact h
  split
  · exact h
  case h_2 keys _ _ =>
    have hsaid : (hs.send (.control (.keyMaterialState keys.toMessage))).Scripted configs role base said
        heard := h.say (Progress.hear_aside _ rfl)
    exact hsaid.set (hsaid.kept.set ⟨rfl, rfl, rfl⟩ ⟨rfl, rfl⟩ rfl rfl rfl) rfl rfl rfl

theorem onAside {control : ControlMessage}
    (haside : control.isAside = true) : (hs.onControl control now).FollowsScript configs role base heard := by
  cases control with
  | messageProtocolHandshakeError error => exact h.kept.aborted nofun h.needs
  | connectionPinError error => exact h.follows
  | accessMethodsRequest => exact ⟨said, h.say (Progress.hear_aside _ rfl)⟩
  | accessMethods methods => exact ⟨said, h.report nofun⟩
  | keyMaterialState state =>
    refine ⟨said, Scripted.report ?_ nofun⟩
    exact h.say (Progress.hear_aside _ rfl)
  | keyMaterialStateResponse accept =>
    exact ⟨said, h.set (h.kept.set ⟨rfl, rfl, rfl⟩ ⟨rfl, rfl⟩ rfl rfl rfl) rfl rfl rfl⟩
  | keyMaterialStateRequest known =>
    refine ⟨said, Scripted.report ?_ nofun⟩
    split
    · exact h.sendKeyMaterial
    · exact h
  | commissioning => exact h.follows
  | connectionHello _ | messageProtocolHandshake _ | connectionPinState _ | connectionPinInput _ =>
    cases haside

theorem onControl
    (hmajor : ∀ role, 1 ≤ (configs role).maxVersion.major) (hrunning : hs.isOver = false)
    {control : ControlMessage}
    (hclosing : ∀ msg, control = .messageProtocolHandshake msg → hs.phase ≠ .closing)
    (hheard : heard.hear configs role.other (.control control) = some heard')
    (hturn : (heard'.stage.needs role.other).rank ≤ said.stage.rank) :
    (hs.onControl control now).FollowsScript configs role
      { base with lock := base.lock.hear (.control control) } heard' := by
  cases haside : control.isAside with
  | true =>
    rw [Progress.hear_aside heard haside] at hheard
    cases hheard
    have hlock : base.lock.hear (.control control) = base.lock := by
      cases control <;> first | rfl | cases haside
    rw [hlock]
    exact h.onAside haside
  | false =>
    cases control with
    | connectionHello hello => exact h.onHello hrunning hheard
    | messageProtocolHandshake msg =>
      exact h.onProtocolHandshake hmajor hrunning (hclosing msg rfl) hheard hturn
    | connectionPinState state => exact h.onPinState hrunning hheard
    | connectionPinInput input => exact h.onPinInput hrunning hheard
    | _ => cases haside

theorem onClose (hrunning : hs.isOver = false) {close : ConnectionClose}
    (hheard : heard.hear configs role.other (.connectionClose close) = some heard') :
    (hs.onClose close).FollowsScript configs role base heard' := by
  obtain ⟨stage, closing⟩ := heard
  obtain rfl : closing = false := h.stands.listens hrunning
  obtain ⟨phase, maxTime, reason⟩ := close
  cases phase with
  | none => cases hheard
  | some phase =>
    cases phase with
    | announce =>
      cases hheard
      have hneeds : (said.stage.needs role).rank ≤ stage.rank := h.needs
      refine Kept.finished (h.kept.send ?_) _ hneeds
      obtain ⟨stage, closing⟩ := said
      cases closing <;> rfl
    | confirm =>
      cases hheard
      exact h.kept.finished _ h.needs

theorem handleMessage (now : Nat)
    (hmajor : ∀ role, 1 ≤ (configs role).maxVersion.major) (hrunning : hs.isOver = false)
    {message : ShipMessage} (hclosing : message.opens = true → hs.phase ≠ .closing)
    (hopen : message.isData = true → hs.phase = .pin → hs.localPinState ≠ .required)
    (hheard : heard.hear configs role.other message = some heard')
    (hturn : (heard'.stage.needs role.other).rank ≤ said.stage.rank) :
    ((hs.handleMessage message now).getD hs).FollowsScript configs role
      { base with lock := base.lock.hear message } heard' := by
  unfold Handshake.handleMessage
  simp only [hrunning, Bool.false_eq_true, if_false]
  cases message with
  | cmi => exact h.onCmi hrunning (hclosing rfl) hheard
  | control control =>
    refine h.onControl hmajor hrunning (fun msg hmsg => ?_) hheard hturn
    subst hmsg
    exact hclosing rfl
  | data =>
    obtain ⟨hready, rfl⟩ := h.onData hrunning (hopen rfl) hheard
    simp only [hready, if_true]
    exact h.follows
  | connectionClose close => exact h.onClose hrunning hheard

theorem setTrust (level : TrustLevel) :
    ((hs.setTrust (.trusted level) now).getD hs).FollowsScript configs role base heard := by
  unfold Handshake.setTrust
  split
  · exact h.follows
  case isFalse hrunning =>
    have htrusted : ({ hs with trust := .trusted level } : Handshake).Scripted configs role base said
        heard := h.set (h.kept.set ⟨rfl, rfl, rfl⟩ ⟨rfl, rfl⟩ rfl rfl rfl) rfl rfl rfl
    dsimp only
    split
    case isFalse => exact htrusted.follows
    case isTrue hphase =>
      cases htrusted.stands with
      | hello _ said_eq heard_eq waiting timers =>
        have hgreets : ({ hs with trust := .trusted level } : Handshake).InHello configs role base said
            heard := ⟨htrusted.kept, hphase, said_eq, heard_eq, waiting.2, timers⟩
        obtain ⟨said', hsaid⟩ | ⟨hrefused, -, hlocal, hremote⟩ := hgreets.announceHello now nofun
        · exact hsaid.finished
        · have hstays : ({ hs with trust := .trusted level }.announceHello now).tryFinishHello now =
              { hs with trust := .trusted level }.announceHello now := by
            unfold Handshake.tryFinishHello
            rw [hlocal, hremote, waiting.1, if_neg Bool.false_ne_true]
          rw [Option.getD_some, hstays]
          exact hrefused
      | ended hover => exact absurd hover hrunning
      | cmi phase | announced phase | listening phase | selected phase | confirmed phase | heldUp phase
      | exchanging phase | closing phase => cases hphase.symm.trans phase

theorem close (reason : ConnectionCloseReason)
    (maxTime : Nat) : (hs.close reason maxTime now).FollowsScript configs role base heard := by
  unfold Handshake.close
  split
  · exact h.follows
  case isFalse hphase =>
    have hrunning : hs.isOver = false := by
      unfold isOver
      split <;> simp_all
    refine ⟨⟨said.stage, true⟩, Kept.send (?_ : Kept configs role base said _) ?_, h.needs,
      .closing rfl rfl (h.stands.listens hrunning)⟩
    · exact h.kept.set ⟨rfl, rfl, rfl⟩ ⟨rfl, rfl⟩ rfl rfl rfl
    · obtain ⟨stage, closing⟩ := said
      cases closing <;> rfl

theorem sendPinIfPermitted : hs.sendPinIfPermitted.1.Scripted configs role base said heard := by
  unfold Handshake.sendPinIfPermitted
  split
  · exact h
  case isFalse hphase =>
    split
    · exact h
    split
    · exact h.report nofun
    split
    · exact h
    · refine Scripted.say ?_ ?_
      · exact h.set (h.kept.set ⟨rfl, rfl, rfl⟩ ⟨rfl, rfl⟩ rfl rfl rfl) rfl rfl rfl
      · rw [not_and_or, not_not, not_not] at hphase
        cases h.stands with
        | confirmed _ said_eq | heldUp _ said_eq | exchanging _ said_eq =>
          subst said_eq
          rfl
        | ended hover => cases hphase <;> simp [*, isOver] at hover
        | _ => simp [*] at hphase

theorem sendPin (pin : String) : (hs.sendPin pin).1.Scripted configs role base said heard := by
  refine sendPinIfPermitted ?_
  exact h.set (h.kept.set ⟨rfl, rfl, rfl⟩ ⟨rfl, rfl⟩ rfl rfl rfl) rfl rfl rfl

theorem requestKeyMaterial (known : Nat) :
    (hs.requestKeyMaterial known).Scripted configs role base said heard := by
  unfold Handshake.requestKeyMaterial
  split
  · exact h.say (Progress.hear_aside _ rfl)
  · exact h

theorem requestAccessMethods :
    hs.requestAccessMethods.Scripted configs role base said heard := by
  unfold Handshake.requestAccessMethods
  split
  · exact h.say (Progress.hear_aside _ rfl)
  · exact h

theorem pollEvent :
    ({ hs with events := hs.events.tail } : Handshake).Scripted configs role base said heard := by
  refine h.set ?_ rfl rfl rfl
  exact ⟨h.kept.role_eq, h.kept.opened, h.kept.version, h.kept.formats, h.kept.settled,
    fun phase hmem => h.kept.unsurprised phase (List.mem_of_mem_tail hmem), h.kept.locked,
    h.kept.grown, h.kept.queued⟩

end

theorem stop {base' : Origin} (h : hs.Scripted configs role base said heard)
    (hkept : hs'.Kept configs role base' said) (hposture : hs'.posture = hs.posture)
    (hprolongation : hs'.timers.sendProlongation = hs.timers.sendProlongation ∨
      hs'.timers.sendProlongation = none)
    (hpenalty : hs'.timers.pinPenalty = hs.timers.pinPenalty ∨ hs'.timers.pinPenalty = none) :
    hs'.Scripted configs role base' said heard :=
  ⟨hkept, h.needs, h.stands.congr hposture hprolongation hpenalty⟩

section

variable (h : hs.Scripted configs role base said heard)

include h

theorem abort (hkept : hs'.Kept configs role base said)
    {reason : AbortReason} (hreason : ∀ phase, reason ≠ .unexpectedMessage phase) :
    (hs'.abort reason).FollowsScript configs role base heard := hkept.aborted hreason h.needs

theorem hear_penalty (hrunning : hs.isOver = false)
    (hpenalty : hs.timers.pinPenalty.isSome = true) {state : ConnectionPinState}
    (hstate : state.pinState.isSome = true) :
    said.hear configs role (.control (.connectionPinState state)) = some said := by
  cases h.stands with
  | confirmed _ said_eq | heldUp _ said_eq | exchanging _ said_eq =>
    subst said_eq
    exact Progress.hear_pinState hstate (.inl rfl) rfl
  | closing _ said_eq => exact Progress.hear_closing said_eq _
  | ended hover => simp [hover] at hrunning
  | hello _ _ _ _ timers => simp [timers] at hpenalty
  | cmi _ _ _ _ timers | announced _ _ _ _ timers | listening _ _ _ _ _ timers
  | selected _ _ _ _ _ timers => simp [timers.2] at hpenalty

theorem servePinAndReady (hrunning : hs.isOver = false) :
    (hs.servePinAndReady now).FollowsEased configs role base heard := by
  have hready : ∀ {base : Origin} {hs : Handshake}, hs.Scripted configs role base said heard →
      (if expired hs.timers.waitForReady now then
        { hs with timers := { hs.timers with waitForReady := none } }.abort (.timeout .hello)
      else hs).FollowsScript configs role base heard := by
    intro base hs h
    split
    · refine h.abort ?_ nofun
      exact h.kept.set ⟨rfl, rfl, rfl⟩ ⟨rfl, rfl⟩ rfl rfl rfl
    · exact h.follows
  unfold Handshake.servePinAndReady
  dsimp only
  split
  case isTrue hexpired =>
    have hpenalty : hs.timers.pinPenalty.isSome = true := by
      cases hslot : hs.timers.pinPenalty <;> simp [expired, hslot] at hexpired ⊢
    refine ⟨{ base.lock with barred := false }, .inr rfl, hready ?_⟩
    refine Scripted.say ?_ (h.hear_penalty hrunning hpenalty rfl)
    refine h.stop (h.kept.relock ⟨rfl, rfl, ?_⟩ ⟨rfl, rfl⟩ rfl rfl rfl) rfl (.inl rfl) (.inr rfl)
    rw [← h.kept.locked]
    rfl
  case isFalse => exact FollowsScript.steady (hready h)

theorem serveKeyMaterial (hrunning : hs.isOver = false) :
    (hs.serveKeyMaterial now).FollowsEased configs role base heard := by
  unfold Handshake.serveKeyMaterial
  split
  case isFalse => exact h.servePinAndReady hrunning
  case isTrue =>
    dsimp only
    split
    · refine FollowsScript.steady (h.abort ?_ nofun)
      exact h.kept.set ⟨rfl, rfl, rfl⟩ ⟨rfl, rfl⟩ rfl rfl rfl
    · split
      case h_1 keys _ =>
        have hresent : ({ hs with
            timers := { hs.timers with keyMaterial := none }
            keyMaterialResent := true }.send (.control (.keyMaterialState keys.toMessage))).Scripted configs
            role base said heard := by
          refine Scripted.say ?_ (Progress.hear_aside _ rfl)
          exact h.set (h.kept.set ⟨rfl, rfl, rfl⟩ ⟨rfl, rfl⟩ rfl rfl rfl) rfl rfl rfl
        refine servePinAndReady (?_ : Scripted configs role base said heard _) hrunning
        exact hresent.set (hresent.kept.set ⟨rfl, rfl, rfl⟩ ⟨rfl, rfl⟩ rfl rfl rfl) rfl rfl rfl
      case h_2 =>
        refine servePinAndReady (?_ : Scripted configs role base said heard _) hrunning
        exact h.set (h.kept.set ⟨rfl, rfl, rfl⟩ ⟨rfl, rfl⟩ rfl rfl rfl) rfl rfl rfl

theorem sendProlongationRequest
    (hrunning : hs.isOver = false) (hasking : hs.timers.sendProlongation.isSome = true) :
    ({ hs with timers := { hs.timers with sendProlongation := none } }.sendProlongationRequest
      now).Scripted configs role base said heard := by
  have hhears : said.say configs role (.control (.connectionHello
      { phase := some hs.helloPhase, waiting := some (millis hs.config.helloInit),
        prolongationRequest := some true })) = some said := by
    cases h.stands with
    | hello hphase said_eq heard_eq waiting timers =>
      have hgreets : hs.InHello configs role base said heard :=
        ⟨h.kept, hphase, said_eq, heard_eq, waiting.2, timers⟩
      exact hgreets.say_again rfl rfl
    | closing _ said_eq =>
      exact Progress.hear_closing said_eq (.control (.connectionHello
        { phase := some hs.helloPhase, waiting := some (millis hs.config.helloInit),
          prolongationRequest := some true }))
    | ended hover => simp [hover] at hrunning
    | cmi _ _ _ _ timers | announced _ _ _ _ timers | listening _ _ _ _ _ timers
    | selected _ _ _ _ _ timers => simp [timers.1] at hasking
    | confirmed _ _ _ timers | heldUp _ _ _ _ timers | exchanging _ _ _ _ timers => simp [timers] at hasking
  have hquiet : ({ hs with timers := { hs.timers with sendProlongation := none } } :
      Handshake).Kept configs role base said := h.kept.set ⟨rfl, rfl, rfl⟩ ⟨rfl, rfl⟩ rfl rfl rfl
  unfold Handshake.sendProlongationRequest
  exact h.stop ((hquiet.send hhears).set ⟨rfl, rfl, rfl⟩ ⟨rfl, rfl⟩ rfl rfl rfl) rfl (.inr rfl) (.inl rfl)

theorem serveTimers (hrunning : hs.isOver = false) :
    (hs.serveTimers now).FollowsEased configs role base heard := by
  have hrest : ∀ {hs : Handshake}, hs.isOver = false → hs.Scripted configs role base said heard →
      (if expired hs.timers.prolongationReply now then
        { hs with timers := { hs.timers with prolongationReply := none } }.abort (.timeout .hello)
      else if expired hs.timers.close now then
        { hs with timers := { hs.timers with close := none } }.finish
          (.closed "no confirmation within maxTime")
      else hs.serveKeyMaterial now).FollowsEased configs role base heard := by
    intro hs hrunning h
    split
    · refine FollowsScript.steady (h.abort ?_ nofun)
      exact h.kept.set ⟨rfl, rfl, rfl⟩ ⟨rfl, rfl⟩ rfl rfl rfl
    split
    · refine FollowsScript.steady (Kept.finished ?_ _ h.needs)
      exact h.kept.set ⟨rfl, rfl, rfl⟩ ⟨rfl, rfl⟩ rfl rfl rfl
    · exact h.serveKeyMaterial hrunning
  unfold Handshake.serveTimers
  split
  · refine FollowsScript.steady (h.abort ?_ nofun)
    exact h.kept.set ⟨rfl, rfl, rfl⟩ ⟨rfl, rfl⟩ rfl rfl rfl
  split
  · have hstopped : ({ hs with timers := { hs.timers with wait := none } } : Handshake).Kept configs role
        base said := h.kept.set ⟨rfl, rfl, rfl⟩ ⟨rfl, rfl⟩ rfl rfl rfl
    unfold Handshake.failProtocol Handshake.sendProtocolError
    split
    · have hsays : said.say configs role (.control (.messageProtocolHandshakeError (some 1))) = some said :=
        Progress.hear_aside said rfl
      exact FollowsScript.steady (h.abort (hstopped.send hsays) nofun)
    · exact FollowsScript.steady (h.abort hstopped nofun)
  · dsimp only
    split
    case isTrue hexpired =>
      have hasking : hs.timers.sendProlongation.isSome = true := by
        cases hslot : hs.timers.sendProlongation <;> simp [expired, hslot] at hexpired ⊢
      exact hrest hrunning (h.sendProlongationRequest hrunning hasking)
    case isFalse => exact hrest hrunning h

theorem handleTimeout :
    ((hs.handleTimeout now).getD hs).FollowsEased configs role base heard := by
  unfold Handshake.handleTimeout
  split
  · exact FollowsScript.steady h.follows
  case isFalse hrunning => exact h.serveTimers (Bool.not_eq_true _ ▸ hrunning)

end

theorem transmit {message : ShipMessage} {rest queue : List ShipMessage}
    (h : hs.Scripted configs role base said heard) (hout : hs.outbox = message :: rest)
    (hqueue : queue <+: rest) :
    ∃ sent, base.sent.say configs role message = some sent ∧
      ({ hs with outbox := rest } : Handshake).Scripted configs role ⟨sent, queue, base.lock⟩ said
        heard := by
  have hqueued := h.kept.queued
  rw [hout] at hqueued
  obtain ⟨sent, hsent, hrest⟩ := Option.bind_eq_some_iff.mp hqueued
  refine ⟨sent, hsent, ⟨?_, h.needs, h.stands.congr rfl (.inl rfl) (.inl rfl)⟩⟩
  exact ⟨h.kept.role_eq, h.kept.opened, h.kept.version, h.kept.formats, h.kept.settled,
    h.kept.unsurprised, h.kept.locked, hqueue, hrest⟩

theorem flush (h : hs.Scripted configs role base said heard) :
    ({ hs with outbox := [] } : Handshake).Scripted configs role ⟨said, [], base.lock⟩ said heard := by
  refine ⟨?_, h.needs, h.stands.congr rfl (.inl rfl) (.inl rfl)⟩
  exact ⟨h.kept.role_eq, h.kept.opened, h.kept.version, h.kept.formats, h.kept.settled,
    h.kept.unsurprised, h.kept.locked, List.nil_prefix, rfl⟩

theorem hear_data (h : hs.Scripted configs role base said heard) (hready : hs.isReadyForData = true) :
    said.hear configs role .data = some said := by
  cases h.stands with
  | exchanging _ said_eq =>
    rw [said_eq]
    rfl
  | closing _ said_eq => exact Progress.hear_closing said_eq _
  | cmi phase | hello phase | announced phase | listening phase | selected phase | confirmed phase
  | heldUp phase => simp [isReadyForData, phase] at hready
  | ended hover =>
    unfold isOver at hover
    unfold isReadyForData at hready
    split at hready <;> simp_all

end Scripted

theorem scripted_new (configs : Role → HandshakeConfig) (role : Role) (trust : Trust) (now : Nat) :
    (new role (configs role) trust now).Scripted configs role
      ⟨⟨.silent, false⟩, [], (new role (configs role) trust now).lock⟩ ⟨.opened, false⟩
      ⟨.silent, false⟩ := by
  refine ⟨⟨rfl, rfl, rfl, rfl, .inl rfl, nofun, rfl, List.nil_prefix, rfl⟩, ?_, ?_⟩
  · cases role <;> exact le_rfl
  · exact .cmi rfl rfl rfl ⟨rfl, rfl, rfl⟩ ⟨rfl, rfl⟩

end Handshake

end Eebus.Ship
