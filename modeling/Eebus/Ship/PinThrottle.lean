import Eebus.Library.Ledger
import Eebus.Ship.Handshake

/-!
A peer cannot guess PINs faster than the penalties allow. A penalty ends with its own timer and with
nothing else; until then no PIN is compared.
-/

namespace Eebus.Ship

open Eebus.Library

def ShipMessage.isPinError : ShipMessage → Bool
  | .control (.connectionPinError _) => true
  | _ => false

def HandshakeEvent.isPinProof : HandshakeEvent → Bool
  | .peerPinVerified => true
  | _ => false

namespace Handshake

variable {start hs hs' : Handshake} {now : Nat}

def wrongPins (hs : Handshake) : Nat := hs.outbox.countP ShipMessage.isPinError

def rightPins (hs : Handshake) : Nat := hs.events.countP HandshakeEvent.isPinProof

/-- On the way from `start` to here no PIN was found right or wrong: nothing has been said of one,
counted or recorded. -/
structure Unjudged (start hs : Handshake) : Prop where
  attempts : hs.pinAttempts = start.pinAttempts
  state : hs.localPinState = start.localPinState
  wrong : hs.wrongPins ≤ start.wrongPins
  right : hs.rightPins ≤ start.rightPins

namespace Unjudged

theorem refl (hs : Handshake) : Unjudged hs hs := ⟨rfl, rfl, le_rfl, le_rfl⟩

theorem trans {middle : Handshake} (h : Unjudged start middle) (h' : Unjudged middle hs) :
    Unjudged start hs :=
  ⟨h'.attempts.trans h.attempts, h'.state.trans h.state, h'.wrong.trans h.wrong, h'.right.trans h.right⟩

section

variable (hattempts : hs.pinAttempts = start.pinAttempts) (hstate : hs.localPinState = start.localPinState)

include hattempts hstate

theorem of_same (hout : hs.outbox = start.outbox) (hevents : hs.events = start.events) :
    Unjudged start hs :=
  ⟨hattempts, hstate, by rw [wrongPins, wrongPins, hout], by rw [rightPins, rightPins, hevents]⟩

theorem said {message : ShipMessage} (hout : hs.outbox = start.outbox ++ [message])
    (hevents : hs.events = start.events) (hmessage : message.isPinError = false) : Unjudged start hs :=
  ⟨hattempts, hstate, by simp [wrongPins, hout, hmessage], by rw [rightPins, rightPins, hevents]⟩

theorem reported {event : HandshakeEvent} (hout : hs.outbox = start.outbox)
    (hevents : hs.events = start.events ++ [event]) (hevent : event.isPinProof = false) :
    Unjudged start hs :=
  ⟨hattempts, hstate, by rw [wrongPins, wrongPins, hout], by simp [rightPins, hevents, hevent]⟩

end

end Unjudged

/-- On the way from `start` to here no PIN was found right or wrong, and no penalty ended. The timer of
the penalty may be gone with the connection. -/
structure KeepsBar (start hs : Handshake) : Prop where
  barred : hs.pinPenaltyUntil = start.pinPenaltyUntil
  timer : hs.timers.pinPenalty = start.timers.pinPenalty ∨ hs.timers.pinPenalty = none
  unjudged : Unjudged start hs

namespace KeepsBar

theorem refl (hs : Handshake) : KeepsBar hs hs := ⟨rfl, .inl rfl, .refl hs⟩

section

variable (h : KeepsBar start hs)

include h

theorem set (hbarred : hs'.pinPenaltyUntil = hs.pinPenaltyUntil)
    (htimer : hs'.timers.pinPenalty = hs.timers.pinPenalty)
    (hunjudged : Unjudged hs hs') : KeepsBar start hs' :=
  ⟨hbarred.trans h.barred, htimer ▸ h.timer, h.unjudged.trans hunjudged⟩

theorem send (message : ShipMessage)
    (hmessage : message.isPinError = false) : KeepsBar start (hs.send message) :=
  h.set rfl rfl (.said rfl rfl rfl rfl hmessage)

theorem report (event : HandshakeEvent)
    (hevent : event.isPinProof = false) : KeepsBar start (hs.report event) :=
  h.set rfl rfl (.reported rfl rfl rfl rfl hevent)

theorem abort (reason : AbortReason) : KeepsBar start (hs.abort reason) := by
  unfold Handshake.abort
  split
  · exact h
  · exact ⟨h.barred, .inr rfl, h.unjudged.trans (.reported rfl rfl rfl rfl rfl)⟩

theorem finish (reason : AbortReason) : KeepsBar start (hs.finish reason) := by
  unfold Handshake.finish
  split
  · exact h
  · exact ⟨h.barred, .inr rfl, h.unjudged.trans (.reported rfl rfl rfl rfl rfl)⟩

theorem armProlongation : KeepsBar start (hs.armProlongation now) := by
  unfold Handshake.armProlongation
  dsimp only
  repeat' split
  all_goals exact h.set rfl rfl (.of_same rfl rfl rfl rfl)

theorem announceHelloAs (phase : ConnectionHelloPhase) :
    KeepsBar start (hs.announceHelloAs phase now) := by
  unfold Handshake.announceHelloAs
  refine armProlongation ?_
  exact h.set rfl rfl (.said rfl rfl rfl rfl rfl)

theorem announceHello : KeepsBar start (hs.announceHello now) := by
  have hrefused : KeepsBar start hs.refuseHello := (h.send _ rfl).abort _
  unfold Handshake.announceHello
  split
  · split
    · exact hrefused
    · refine announceHelloAs ?_ _
      exact h.set rfl rfl (.of_same rfl rfl rfl rfl)
  · refine announceHelloAs ?_ _
    split
    · exact h
    · exact h.set rfl rfl (.reported rfl rfl rfl rfl rfl)
  · exact hrefused

theorem onCmi : KeepsBar start (hs.onCmi now) := by
  unfold Handshake.onCmi
  split
  · exact h.abort _
  · dsimp only
    split
    · refine announceHello ?_
      exact h.set rfl rfl (.of_same rfl rfl rfl rfl)
    · exact h.set rfl rfl (.of_same rfl rfl rfl rfl)

theorem tryFinishHello : KeepsBar start (hs.tryFinishHello now) := by
  unfold Handshake.tryFinishHello Handshake.enterProtocolHandshake
  split
  · dsimp only
    split
    · exact h.set rfl rfl (.said rfl rfl rfl rfl rfl)
    · exact h.set rfl rfl (.of_same rfl rfl rfl rfl)
  · exact h

theorem noteHello (hello : ConnectionHello) : KeepsBar start (hs.noteHello hello now) := by
  have hwaited : ∀ waiting deadline, KeepsBar start
      { hs with helloPeerWaiting := waiting, helloPeerDeadline := deadline } := fun _ _ =>
    h.set rfl rfl (.of_same rfl rfl rfl rfl)
  unfold Handshake.noteHello
  dsimp only
  split
  · split
    · exact (hwaited _ _).report _ rfl
    · exact h.report _ rfl
  · split
    · exact hwaited _ _
    · exact h

theorem continueHello (hello : ConnectionHello) :
    KeepsBar start (hs.continueHello hello now) := by
  have harmed : ∀ {hs : Handshake}, KeepsBar start hs →
      KeepsBar start (if hs.phase = .hello then hs.armProlongation now else hs) := by
    intro hs h
    split
    · exact h.armProlongation
    · exact h
  unfold Handshake.continueHello Handshake.acceptProlongation
  refine harmed ?_
  split
  · exact h.set rfl rfl (.said rfl rfl rfl rfl rfl)
  · exact h

theorem onHello (hello : ConnectionHello) : KeepsBar start (hs.onHello hello now) := by
  unfold Handshake.onHello
  split
  · exact h
  · have hnoted : KeepsBar start (hs.noteHello hello now) := h.noteHello hello
    dsimp only
    split
    · split
      · exact hnoted.abort _
      · refine continueHello (tryFinishHello ?_) _
        exact hnoted.set rfl rfl (.of_same rfl rfl rfl rfl)
    · refine continueHello ?_ _
      split
      · exact hnoted.set rfl rfl (.reported rfl rfl rfl rfl rfl)
      · exact hnoted.set rfl rfl (.of_same rfl rfl rfl rfl)
    · exact hnoted.abort _
    · exact hnoted.abort _

theorem failProtocol (error : Nat) (reason : AbortReason) :
    KeepsBar start (hs.failProtocol error reason) := by
  refine abort ?_ reason
  unfold sendProtocolError
  split
  · exact h.send _ rfl
  · exact h

theorem sendPinState : KeepsBar start hs.sendPinState := h.send _ rfl

theorem enterPin : KeepsBar start (hs.enterPin now) :=
  h.set rfl rfl (.said rfl rfl rfl rfl rfl)

theorem proposeProtocol (msg : MessageProtocolHandshake) :
    KeepsBar start (hs.proposeProtocol msg now) := by
  unfold Handshake.proposeProtocol
  split
  · exact h.failProtocol _ _
  · split
    · exact h.set rfl rfl (.said rfl rfl rfl rfl rfl)
    · exact h.failProtocol _ _

theorem confirmProtocol (msg : MessageProtocolHandshake) :
    KeepsBar start (hs.confirmProtocol msg now) := by
  unfold Handshake.confirmProtocol
  split
  · exact h.failProtocol _ _
  · split
    · split
      · exact h.failProtocol _ _
      · refine enterPin ?_
        exact h.set rfl rfl (.said rfl rfl rfl rfl rfl)
    · exact h.failProtocol _ _

theorem onProtocolHandshake (msg : MessageProtocolHandshake) :
    KeepsBar start (hs.onProtocolHandshake msg now) := by
  unfold Handshake.onProtocolHandshake
  split
  · exact h.abort _
  · have hwaited : KeepsBar start { hs with timers := { hs.timers with wait := none } } :=
      h.set rfl rfl (.of_same rfl rfl rfl rfl)
    dsimp only
    split
    · split
      · exact hwaited.proposeProtocol msg
      · split
        · exact hwaited.failProtocol _ _
        · exact hwaited.enterPin
    · exact hwaited.confirmProtocol msg

theorem sendPinIfPermitted : KeepsBar start hs.sendPinIfPermitted.1 := by
  unfold Handshake.sendPinIfPermitted
  split
  · exact h
  · split
    · exact h
    · split
      · exact h.report _ rfl
      · split
        · exact h
        · exact h.set rfl rfl (.said rfl rfl rfl rfl rfl)

theorem tryFinishPin : KeepsBar start hs.tryFinishPin := by
  unfold Handshake.tryFinishPin
  split
  · exact h
  · split
    · dsimp only
      split
      · exact h.set rfl rfl (.reported rfl rfl rfl rfl rfl)
      · exact h.set rfl rfl (.of_same rfl rfl rfl rfl)
    · exact h

theorem onPinState (state : ConnectionPinState) : KeepsBar start (hs.onPinState state) := by
  unfold Handshake.onPinState
  split
  · exact h.abort _
  · dsimp only
    refine tryFinishPin ?_
    split
    · refine sendPinIfPermitted ?_
      exact h.set rfl rfl (.reported rfl rfl rfl rfl rfl)
    · exact h.set rfl rfl (.reported rfl rfl rfl rfl rfl)

theorem sendKeyMaterial : KeepsBar start (hs.sendKeyMaterial now) := by
  unfold Handshake.sendKeyMaterial
  split
  · exact h
  · split
    · exact h
    · exact h.set rfl rfl (.said rfl rfl rfl rfl rfl)

theorem onControl {control : ControlMessage}
    (hpin : ∀ pin, control ≠ .connectionPinInput pin) : KeepsBar start (hs.onControl control now) := by
  cases control with
  | connectionHello hello => exact h.onHello hello
  | messageProtocolHandshake msg => exact h.onProtocolHandshake msg
  | messageProtocolHandshakeError error => exact h.abort _
  | connectionPinState state => exact h.onPinState state
  | connectionPinInput pin => exact absurd rfl (hpin pin)
  | connectionPinError error => exact h
  | accessMethodsRequest => exact h.send _ rfl
  | accessMethods methods => exact h.report _ rfl
  | keyMaterialState state => exact (h.send _ rfl).report _ rfl
  | keyMaterialStateResponse accept => exact h.set rfl rfl (.of_same rfl rfl rfl rfl)
  | keyMaterialStateRequest known =>
    unfold Handshake.onControl onKeyMaterialStateRequest
    dsimp only
    split
    · exact h.sendKeyMaterial.report _ rfl
    · exact h.report _ rfl
  | commissioning => exact h

theorem onClose (close : ConnectionClose) : KeepsBar start (hs.onClose close) := by
  unfold Handshake.onClose
  split
  · exact (h.send _ rfl).finish _
  · exact h.finish _
  · exact h.abort _

theorem setTrust (trust : Trust) : KeepsBar start ((hs.setTrust trust now).getD hs) := by
  have htrusted : KeepsBar start { hs with trust := trust } := h.set rfl rfl (.of_same rfl rfl rfl rfl)
  unfold Handshake.setTrust
  split
  · exact h
  · dsimp only
    split
    · exact htrusted.announceHello.tryFinishHello
    · exact htrusted

theorem close (reason : ConnectionCloseReason) (maxTime : Nat) :
    KeepsBar start (hs.close reason maxTime now) := by
  unfold Handshake.close
  split
  · exact h
  · exact h.set rfl rfl (.said rfl rfl rfl rfl rfl)

end

end KeepsBar

/-- A call at `now` leaves the penalty as it was, or its timer was due and it is over. -/
structure Eases (now : Nat) (start hs : Handshake) : Prop where
  unjudged : Unjudged start hs
  bar : KeepsBar start hs ∨
    hs.pinPenaltyUntil = none ∧ hs.timers.pinPenalty = none ∧
      ∃ due, start.timers.pinPenalty = some due ∧ due ≤ now

theorem KeepsBar.eases (h : KeepsBar start hs) : Eases now start hs := ⟨h.unjudged, .inl h⟩

theorem Eases.abort (h : Eases now start hs) (reason : AbortReason) : Eases now start (hs.abort reason) := by
  have haborted : KeepsBar hs (hs.abort reason) := (KeepsBar.refl hs).abort reason
  refine ⟨h.unjudged.trans haborted.unjudged, ?_⟩
  cases h.bar with
  | inl hkeeps => exact .inl (hkeeps.abort reason)
  | inr hover =>
    obtain ⟨hbarred, htimer, hdue⟩ := hover
    refine .inr ⟨haborted.barred.trans hbarred, ?_, hdue⟩
    exact haborted.timer.elim (fun heq => heq.trans htimer) id

theorem due_of_expired {slot : Option Nat} (h : expired slot now = true) :
    ∃ due, slot = some due ∧ due ≤ now := by
  cases slot with
  | none => nomatch h
  | some due => exact ⟨due, rfl, of_decide_eq_true h⟩

theorem KeepsBar.servePinAndReady (h : KeepsBar start hs) :
    Eases now start (hs.servePinAndReady now) := by
  have hready : ∀ {served : Handshake}, Eases now start served →
      Eases now start (if expired served.timers.waitForReady now then
        { served with timers := { served.timers with waitForReady := none } }.abort (.timeout .hello)
        else served) := by
    intro served hserved
    split
    · refine Eases.abort ?_ _
      exact ⟨hserved.unjudged.trans (.of_same rfl rfl rfl rfl),
        hserved.bar.imp (fun hkeeps => hkeeps.set rfl rfl (.of_same rfl rfl rfl rfl)) id⟩
    · exact hserved
  unfold Handshake.servePinAndReady
  refine hready ?_
  split
  case isTrue hexpired =>
    obtain ⟨due, hslot, hdue⟩ := due_of_expired hexpired
    have hstart : start.timers.pinPenalty = some due := by
      cases h.timer with
      | inl hsame => exact hsame.symm.trans hslot
      | inr hnone => exact nomatch hnone.symm.trans hslot
    exact ⟨h.unjudged.trans (.said rfl rfl rfl rfl rfl), .inr ⟨rfl, rfl, due, hstart, hdue⟩⟩
  case isFalse => exact h.eases

theorem KeepsBar.serveKeyMaterial (h : KeepsBar start hs) :
    Eases now start (hs.serveKeyMaterial now) := by
  unfold Handshake.serveKeyMaterial
  split
  · dsimp only
    split
    · refine (KeepsBar.abort ?_ _).eases
      exact h.set rfl rfl (.of_same rfl rfl rfl rfl)
    · split
      · refine KeepsBar.servePinAndReady ?_
        exact h.set rfl rfl (.said rfl rfl rfl rfl rfl)
      · refine KeepsBar.servePinAndReady ?_
        exact h.set rfl rfl (.of_same rfl rfl rfl rfl)
  · exact h.servePinAndReady

theorem KeepsBar.serveTimers (h : KeepsBar start hs) : Eases now start (hs.serveTimers now) := by
  unfold Handshake.serveTimers
  split
  · refine (KeepsBar.abort ?_ _).eases
    exact h.set rfl rfl (.of_same rfl rfl rfl rfl)
  · split
    · refine (KeepsBar.failProtocol ?_ _ _).eases
      exact h.set rfl rfl (.of_same rfl rfl rfl rfl)
    · generalize hserved : (if expired hs.timers.sendProlongation now = true then
        { hs with timers := { hs.timers with sendProlongation := none } }.sendProlongationRequest now
        else hs) = asked
      have hasked : KeepsBar start asked := by
        rw [← hserved]
        split
        · exact h.set rfl rfl (.said rfl rfl rfl rfl rfl)
        · exact h
      dsimp only
      split
      · refine (KeepsBar.abort ?_ _).eases
        exact hasked.set rfl rfl (.of_same rfl rfl rfl rfl)
      · split
        · refine (KeepsBar.finish ?_ _).eases
          exact hasked.set rfl rfl (.of_same rfl rfl rfl rfl)
        · exact hasked.serveKeyMaterial

end Handshake

namespace HandshakeOp

def time : HandshakeOp → Option Nat
  | .handleMessage _ now => some now
  | .handleTimeout now => some now
  | .setTrust _ now => some now
  | .close _ _ now => some now
  | .sendKeyMaterial now => some now
  | .sendPin _ | .sendPinIfPermitted | .requestKeyMaterial _ | .requestAccessMethods | .pollTransmit
  | .pollEvent => none

/-- The call finds a PIN wrong: it says so, or counts it. -/
def misses (hs : Handshake) (op : HandshakeOp) : Bool :=
  hs.wrongPins < (handshake.next hs op).wrongPins ∨ hs.pinAttempts < (handshake.next hs op).pinAttempts

/-- The call compares a PIN: it finds it wrong, or it reports or records that it is right. -/
def compares (hs : Handshake) (op : HandshakeOp) : Bool :=
  op.misses hs ∨ hs.rightPins < (handshake.next hs op).rightPins ∨
    (handshake.next hs op).localPinState ≠ hs.localPinState

def missedAt (hs : Handshake) (op : HandshakeOp) : List Nat :=
  if op.misses hs then op.time.toList else []

end HandshakeOp

namespace Handshake

variable {hs hs' : Handshake} {op : HandshakeOp} {now : Nat}

structure Costs (now : Nat) (hs hs' : Handshake) : Prop where
  open_ : hs.pinPenaltyUntil = none
  attempts : hs'.pinAttempts = min (hs.pinAttempts + 1) (2 ^ 32 - 1)
  barred : hs'.pinPenaltyUntil = (pinPenalty hs'.pinAttempts).map fun penalty => now + penalty
  timer : hs'.timers.pinPenalty = hs'.pinPenaltyUntil ∨ hs'.timers.pinPenalty = hs.timers.pinPenalty
  wrong : hs.wrongPins < hs'.wrongPins

/-- The right PIN costs nothing, and is taken only where no penalty runs. -/
structure Proves (hs hs' : Handshake) : Prop where
  open_ : hs.pinPenaltyUntil = none
  attempts : hs'.pinAttempts = hs.pinAttempts
  barred : hs'.pinPenaltyUntil = hs.pinPenaltyUntil
  timer : hs'.timers.pinPenalty = hs.timers.pinPenalty ∨ hs'.timers.pinPenalty = none
  wrong : hs'.wrongPins ≤ hs.wrongPins

theorem onPinInput_barred {pin : Option String} (hbar : hs.pinPenaltyUntil.isSome = true) :
    KeepsBar hs (hs.onPinInput pin now) := by
  rw [onPinInput, if_pos hbar]
  exact (KeepsBar.refl hs).sendPinState

theorem onPinInput_right {pin : Option String} (hopen : hs.pinPenaltyUntil = none)
    (hright : pin.isSome = true ∧ pin = expectedPin hs.config.pin) :
    Proves hs (hs.onPinInput pin now) := by
  rw [onPinInput, if_neg (by simp [hopen]), if_pos hright]
  generalize hanswered : (({ hs with localPinState := .pinOk }.report .peerPinVerified).send
    (.control (.connectionPinState ⟨some .pinOk, none⟩))) = answered
  have hfinished : KeepsBar answered answered.tryFinishPin := (KeepsBar.refl answered).tryFinishPin
  have hsaid : answered.wrongPins ≤ hs.wrongPins := by
    rw [← hanswered]
    simp [wrongPins, send, report, ShipMessage.isPinError]
  subst hanswered
  exact ⟨hopen, hfinished.unjudged.attempts, hfinished.barred, hfinished.timer,
    hfinished.unjudged.wrong.trans hsaid⟩

theorem onPinInput_wrong {pin : Option String} (hopen : hs.pinPenaltyUntil = none)
    (hwrong : ¬(pin.isSome = true ∧ pin = expectedPin hs.config.pin)) :
    Costs now hs (hs.onPinInput pin now) := by
  have hsaid : ∀ {answered : Handshake}, answered.outbox = hs.outbox ++
      [.control (.connectionPinError (some 1))] → hs.wrongPins < answered.wrongPins := by
    intro answered hout
    simp [wrongPins, hout, ShipMessage.isPinError]
  rw [onPinInput, if_neg (by simp [hopen]), if_neg hwrong]
  dsimp only
  split
  case h_1 penalty hpenalty =>
    refine ⟨hopen, rfl, (congrArg (Option.map _) hpenalty).symm, .inl rfl, ?_⟩
    simp [wrongPins, sendPinState, send, ShipMessage.isPinError]
  case h_2 hpenalty =>
    exact ⟨hopen, rfl, hopen.trans (congrArg (Option.map _) hpenalty).symm, .inr rfl, hsaid rfl⟩

/-- What a call does to the bar: a miss puts one up, a PIN that is right finds none, and nothing but its
time takes one down. -/
theorem next_cases (hs : Handshake) (op : HandshakeOp) :
    (∃ now, op.time = some now ∧ Costs now hs (handshake.next hs op)) ∨
      Proves hs (handshake.next hs op) ∨ KeepsBar hs (handshake.next hs op) ∨
        ∃ now, op.time = some now ∧ Eases now hs (handshake.next hs op) := by
  have hkeep : KeepsBar hs hs := .refl hs
  cases op with
  | handleMessage message now =>
    simp only [Machine.next, handshake, handleMessage]
    split
    case isTrue => exact .inr (.inr (.inl hkeep))
    case isFalse =>
      cases message with
      | cmi => exact .inr (.inr (.inl hkeep.onCmi))
      | connectionClose close => exact .inr (.inr (.inl (hkeep.onClose close)))
      | data =>
        dsimp only [Option.getD_some]
        split
        · exact .inr (.inr (.inl hkeep))
        · exact .inr (.inr (.inl (hkeep.abort _)))
      | control control =>
        by_cases hinput : ∃ pin, control = .connectionPinInput pin
        · obtain ⟨pin, rfl⟩ := hinput
          cases hbar : hs.pinPenaltyUntil with
          | some due => exact .inr (.inr (.inl (onPinInput_barred (by simp [hbar]))))
          | none =>
            by_cases hright : pin.isSome = true ∧ pin = expectedPin hs.config.pin
            · exact .inr (.inl (onPinInput_right hbar hright))
            · exact .inl ⟨now, rfl, onPinInput_wrong hbar hright⟩
        · exact .inr (.inr (.inl (hkeep.onControl fun pin hpin => hinput ⟨pin, hpin⟩)))
  | handleTimeout now =>
    simp only [Machine.next, handshake, handleTimeout]
    split
    · exact .inr (.inr (.inl hkeep))
    · exact .inr (.inr (.inr ⟨now, rfl, hkeep.serveTimers⟩))
  | setTrust trust now => exact .inr (.inr (.inl (hkeep.setTrust trust)))
  | close reason maxTime now => exact .inr (.inr (.inl (hkeep.close reason maxTime)))
  | sendPin pin =>
    have hentered : KeepsBar hs { hs with config := { hs.config with peerPin := some pin } } :=
      hkeep.set rfl rfl (.of_same rfl rfl rfl rfl)
    exact .inr (.inr (.inl hentered.sendPinIfPermitted))
  | sendPinIfPermitted => exact .inr (.inr (.inl hkeep.sendPinIfPermitted))
  | sendKeyMaterial now => exact .inr (.inr (.inl hkeep.sendKeyMaterial))
  | requestKeyMaterial known =>
    refine .inr (.inr (.inl ?_))
    simp only [Machine.next, handshake, requestKeyMaterial]
    split
    · exact hkeep.send _ rfl
    · exact hkeep
  | requestAccessMethods =>
    refine .inr (.inr (.inl ?_))
    simp only [Machine.next, handshake, requestAccessMethods]
    split
    · exact hkeep.send _ rfl
    · exact hkeep
  | pollTransmit =>
    have htaken : Unjudged hs { hs with outbox := hs.outbox.tail } :=
      ⟨rfl, rfl, (List.tail_sublist hs.outbox).countP_le, le_rfl⟩
    exact .inr (.inr (.inl (hkeep.set rfl rfl htaken)))
  | pollEvent =>
    have htaken : Unjudged hs { hs with events := hs.events.tail } :=
      ⟨rfl, rfl, le_rfl, (List.tail_sublist hs.events).countP_le⟩
    exact .inr (.inr (.inl (hkeep.set rfl rfl htaken)))

theorem misses_eq_false (hattempts : (handshake.next hs op).pinAttempts = hs.pinAttempts)
    (hwrong : (handshake.next hs op).wrongPins ≤ hs.wrongPins) : op.misses hs = false :=
  decide_eq_false (not_or.mpr ⟨Nat.not_lt.mpr hwrong, Nat.not_lt.mpr hattempts.le⟩)

theorem misses_of_unjudged (h : Unjudged hs (handshake.next hs op)) : op.misses hs = false :=
  misses_eq_false h.attempts h.wrong

theorem compares_of_unjudged (h : Unjudged hs (handshake.next hs op)) : op.compares hs = false := by
  simp [HandshakeOp.compares, misses_of_unjudged h, h.right, h.state]

theorem open_of_compares (h : op.compares hs = true) : hs.pinPenaltyUntil = none := by
  rcases next_cases hs op with ⟨_, _, hcosts⟩ | hproves | hkeeps | ⟨_, _, heases⟩
  · exact hcosts.open_
  · exact hproves.open_
  · exact absurd h (by rw [compares_of_unjudged hkeeps.unjudged]; decide)
  · exact absurd h (by rw [compares_of_unjudged heases.unjudged]; decide)

/-- The misses of a run are counted; each of them has been paid for when its penalty is over, and until
then the bar is up. -/
structure Throttled (past : List HandshakeOp) (misses : List Nat) (hs : Handshake) : Prop where
  counted : hs.pinAttempts = min misses.length (2 ^ 32 - 1)
  timed : ∀ due, hs.timers.pinPenalty = some due → hs.pinPenaltyUntil = some due
  paid : ∀ (k t penalty : Nat), misses[k]? = some t → pinPenalty (k + 1) = some penalty →
    (∃ now ∈ past.filterMap HandshakeOp.time, t + penalty ≤ now) ∨
      ∃ due, hs.pinPenaltyUntil = some due ∧ t + penalty ≤ due

theorem throttled_new (role : Role) (config : HandshakeConfig) (trust : Trust) :
    Throttled [] [] (new role config trust now) where
  counted := rfl
  timed := nofun
  paid := nofun

theorem pinPenalty_counted (n : Nat) : pinPenalty (min n (2 ^ 32 - 1)) = pinPenalty n := by
  have hlong : 6 ≤ min n (2 ^ 32 - 1) ↔ 6 ≤ n := by omega
  have hshort : 3 ≤ min n (2 ^ 32 - 1) ↔ 3 ≤ n := by omega
  simp only [pinPenalty, hlong, hshort]

variable {past : List HandshakeOp} {misses : List Nat}

theorem paid_mono {due : Nat} (h : ∃ now ∈ past.filterMap HandshakeOp.time, due ≤ now) (op : HandshakeOp) :
    ∃ now ∈ (past ++ [op]).filterMap HandshakeOp.time, due ≤ now := by
  obtain ⟨now, hmem, hdue⟩ := h
  refine ⟨now, ?_, hdue⟩
  rw [List.filterMap_append]
  exact List.mem_append_left _ hmem

theorem Throttled.keep (h : Throttled past misses hs) (hattempts : hs'.pinAttempts = hs.pinAttempts)
    (hbarred : hs'.pinPenaltyUntil = hs.pinPenaltyUntil)
    (htimer : hs'.timers.pinPenalty = hs.timers.pinPenalty ∨ hs'.timers.pinPenalty = none)
    (op : HandshakeOp) : Throttled (past ++ [op]) misses hs' where
  counted := hattempts.trans h.counted
  timed due hdue := by
    cases htimer with
    | inl hsame => exact hbarred.trans (h.timed due (hsame.symm.trans hdue))
    | inr hnone => exact nomatch hnone.symm.trans hdue
  paid k t penalty hk hpenalty := by
    rw [hbarred]
    exact (h.paid k t penalty hk hpenalty).imp_left fun hpaid => paid_mono hpaid op

theorem Throttled.ease (h : Throttled past misses hs) (heases : Eases now hs hs') (htime : op.time = some now) :
    Throttled (past ++ [op]) misses hs' := by
  cases heases.bar with
  | inl hkeeps => exact h.keep hkeeps.unjudged.attempts hkeeps.barred hkeeps.timer op
  | inr hover =>
    obtain ⟨hbarred, htimer, due, hdue, hnow⟩ := hover
    refine ⟨heases.unjudged.attempts.trans h.counted, fun due' hdue' => (nomatch htimer.symm.trans hdue'), ?_⟩
    intro k t penalty hk hpenalty
    refine .inl ?_
    cases h.paid k t penalty hk hpenalty with
    | inl hpaid => exact paid_mono hpaid op
    | inr hbar =>
      -- the timer that has run out was the one of the bar
      obtain ⟨due', hbar, hle⟩ := hbar
      obtain rfl : due = due' := Option.some.inj ((h.timed due hdue).symm.trans hbar)
      refine ⟨now, ?_, hle.trans hnow⟩
      rw [List.filterMap_append]
      exact List.mem_append_right _ (by simp [htime])

theorem Throttled.miss (h : Throttled past misses hs) (hcosts : Costs now hs hs') (op : HandshakeOp) :
    Throttled (past ++ [op]) (misses ++ [now]) hs' := by
  have hcounted : hs'.pinAttempts = min (misses ++ [now]).length (2 ^ 32 - 1) := by
    rw [hcosts.attempts, h.counted, List.length_append, List.length_singleton]
    omega
  refine ⟨hcounted, fun due hdue => ?_, fun k t penalty hk hpenalty => ?_⟩
  · cases hcosts.timer with
    | inl hsame => exact hsame.symm.trans hdue
    | inr hsame => exact nomatch hcosts.open_.symm.trans (h.timed due (hsame.symm.trans hdue))
  · by_cases hlast : k < misses.length
    · rw [List.getElem?_append_left hlast] at hk
      cases h.paid k t penalty hk hpenalty with
      | inl hpaid => exact .inl (paid_mono hpaid op)
      | inr hbar =>
        obtain ⟨due, hbar, -⟩ := hbar
        exact nomatch hcosts.open_.symm.trans hbar
    · have hlength := (List.getElem?_eq_some_iff.mp hk).1
      rw [List.length_append, List.length_singleton] at hlength
      obtain rfl : k = misses.length := by omega
      rw [List.getElem?_concat_length, Option.some.injEq] at hk
      subst hk
      have hpaid : pinPenalty hs'.pinAttempts = some penalty := by
        rw [hcounted, pinPenalty_counted, List.length_append, List.length_singleton]
        exact hpenalty
      exact .inr ⟨now + penalty, by rw [hcosts.barred, hpaid]; rfl, le_rfl⟩

theorem Throttled.next (h : Throttled past misses hs) (op : HandshakeOp) :
    Throttled (past ++ [op]) (misses ++ op.missedAt hs) (handshake.next hs op) := by
  rcases next_cases hs op with ⟨now, htime, hcosts⟩ | hproves | hkeeps | ⟨now, htime, heases⟩
  · have hmisses : op.misses hs = true := decide_eq_true (.inl hcosts.wrong)
    rw [HandshakeOp.missedAt, if_pos hmisses, htime]
    exact h.miss hcosts op
  · have hmisses : op.misses hs = false := misses_eq_false hproves.attempts hproves.wrong
    rw [HandshakeOp.missedAt, hmisses, if_neg Bool.false_ne_true, List.append_nil]
    exact h.keep hproves.attempts hproves.barred hproves.timer op
  · rw [HandshakeOp.missedAt, misses_of_unjudged hkeeps.unjudged, if_neg Bool.false_ne_true, List.append_nil]
    exact h.keep hkeeps.unjudged.attempts hkeeps.barred hkeeps.timer op
  · rw [HandshakeOp.missedAt, misses_of_unjudged heases.unjudged, if_neg Bool.false_ne_true, List.append_nil]
    exact h.ease heases htime

def missesOf (start : Handshake) (ops : List HandshakeOp) : List Nat :=
  handshake.collect (fun hs op => op.missedAt hs) start ops

theorem throttled_run (role : Role) (config : HandshakeConfig) (trust : Trust) (opened : Nat)
    (ops : List HandshakeOp) : Throttled ops (missesOf (new role config trust opened) ops)
      (handshake.run (new role config trust opened) ops) := by
  induction ops using List.reverseRecOn with
  | nil => exact throttled_new role config trust
  | append_singleton ops op ih =>
    rw [missesOf, Machine.collect_append, Machine.run_append]
    simp only [Machine.collect, List.append_nil]
    exact ih.next op

/-- No PIN input is compared while the penalty of an earlier miss runs, whatever else is called. -/
theorem pin_guesses_throttled (role : Role) (config : HandshakeConfig) (trust : Trust) (opened : Nat)
    (ops : List HandshakeOp) (htimes : (ops.filterMap HandshakeOp.time).Pairwise (· ≤ ·))
    {before between : List HandshakeOp} {miss next : HandshakeOp} {t t' : Nat}
    (hops : before ++ miss :: (between ++ [next]) <+: ops)
    (hmiss : miss.misses (handshake.run (new role config trust opened) before) = true)
    (hnext : next.compares (handshake.run (new role config trust opened) (before ++ miss :: between)) = true)
    (ht : miss.time = some t) (ht' : next.time = some t') :
    (3 ≤ (missesOf (new role config trust opened) before).length + 1 → t + fromSecs 15 ≤ t') ∧
      (6 ≤ (missesOf (new role config trust opened) before).length + 1 → t + fromSecs 90 ≤ t') := by
  have hthrottled := throttled_run role config trust opened (before ++ miss :: between)
  generalize hk : (missesOf (new role config trust opened) before).length = k
  have hmissed : (missesOf (new role config trust opened) (before ++ miss :: between))[k]? = some t := by
    rw [missesOf, Machine.collect_append, ← missesOf, List.getElem?_append_right (Nat.le_of_eq hk), hk,
      Nat.sub_self]
    simp only [Machine.collect, HandshakeOp.missedAt, hmiss, ht, if_true, Option.toList_some,
      List.cons_append, List.getElem?_cons_zero]
  -- whatever the penalty was, it is over at the next comparison
  have hover : ∀ penalty, pinPenalty (k + 1) = some penalty → t + penalty ≤ t' := by
    intro penalty hpenalty
    cases hthrottled.paid k t penalty hmissed hpenalty with
    | inl hpaid =>
      obtain ⟨now, hnow, hle⟩ := hpaid
      have hordered := htimes.sublist (hops.filterMap HandshakeOp.time).sublist
      rw [← List.cons_append, ← List.append_assoc, List.filterMap_append, List.pairwise_append] at hordered
      exact hle.trans (hordered.2.2 now hnow t' (by simp [ht']))
    | inr hbar =>
      obtain ⟨due, hbar, -⟩ := hbar
      cases (open_of_compares hnext).symm.trans hbar
  have hmono : ∀ penalty penalty', pinPenalty (k + 1) = some penalty → penalty' ≤ penalty → t + penalty' ≤ t' :=
    fun penalty penalty' hpenalty hle => le_trans (Nat.add_le_add_left hle t) (hover penalty hpenalty)
  refine ⟨fun hthree => ?_, fun hsix => hover _ (by rw [pinPenalty, if_pos hsix])⟩
  by_cases hsix : 6 ≤ k + 1
  · exact hmono _ _ (by rw [pinPenalty, if_pos hsix]) (by decide)
  · exact hover _ (by rw [pinPenalty, if_neg hsix, if_pos hthree])

def wrongGuess (secs : Nat) : HandshakeOp :=
  .handleMessage (.control (.connectionPinInput (some "00000000"))) (fromSecs secs)

/-- Three wrong PINs two seconds apart, the end of the penalty, and the next guess. -/
def guesses : List HandshakeOp :=
  [wrongGuess 0, wrongGuess 2, wrongGuess 4, .handleTimeout (fromSecs 19), wrongGuess 19]

theorem pin_guesses_throttled_third :
    (missesOf (new .server { pin := .required "5555AAAA" } .pending 0) (guesses.take 2)).length = 2 ∧
      fromSecs 4 + fromSecs 15 ≤ fromSecs 19 := by
  have hops : guesses.take 2 ++ wrongGuess 4 :: ([.handleTimeout (fromSecs 19)] ++ [wrongGuess 19]) <+:
      guesses := List.prefix_rfl
  refine ⟨rfl, ?_⟩
  exact (pin_guesses_throttled .server { pin := .required "5555AAAA" } .pending 0 guesses (by decide)
    hops rfl rfl rfl rfl).1 (by decide)

end Handshake

end Eebus.Ship
