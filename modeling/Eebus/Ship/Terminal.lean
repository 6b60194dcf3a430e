import Eebus.Library.Ledger
import Eebus.Ship.DataPhase

/-!
The end of a handshake. Every way into `closed` or `aborted` stops the timers and reports the end
once; no way leads out, because a hello that has ended is never complete.
-/

namespace Eebus.Ship

open Eebus.Library

namespace Handshake

variable {hs hs' : Handshake} {now ended : Nat}

/-- An end stops the timers, and has been reported once, among the `ended` ends that the application
has fetched already and those still queued. -/
structure Reported (ended : Nat) (hs : Handshake) : Prop where
  stopped : hs.isOver = true → hs.timers = {}
  count : ended + hs.events.countP HandshakeEvent.isAborted = if hs.isOver then 1 else 0

/-- Until both sides are ready the hello goes on, and before the hello no one is. -/
structure Unfinished (hs : Handshake) : Prop where
  cmi : hs.phase = .cmi → hs.helloRemoteReady = false
  hello : hs.phase = .hello → (hs.helloLocalReady && hs.helloRemoteReady) = false

structure Orderly (ended : Nat) (hs : Handshake) : Prop where
  reported : hs.Reported ended
  unfinished : hs.Unfinished

theorem isOver_congr (h : hs'.phase = hs.phase) : hs'.isOver = hs.isOver := by
  rw [isOver, isOver, h]

theorem isOver_of_phase {phase : Phase} (h : hs.phase = phase)
    (hrunning : phase ≠ .closed ∧ phase ≠ .aborted) : hs.isOver = false := by
  rw [isOver, h]
  cases phase <;> simp_all

theorem Reported.congr (h : hs.Reported ended) (hphase : hs'.phase = hs.phase)
    (htimers : hs.isOver = true → hs'.timers = hs.timers)
    (hevents : hs'.events.countP HandshakeEvent.isAborted =
      hs.events.countP HandshakeEvent.isAborted) : hs'.Reported ended where
  stopped hover := by
    rw [isOver_congr hphase] at hover
    rw [htimers hover, h.stopped hover]
  count := by rw [hevents, isOver_congr hphase, h.count]

theorem Unfinished.congr (h : hs.Unfinished) (hphase : hs'.phase = hs.phase)
    (hlocal : hs'.helloLocalReady = hs.helloLocalReady)
    (hremote : hs'.helloRemoteReady = hs.helloRemoteReady) : hs'.Unfinished := by
  refine ⟨fun hp => ?_, fun hp => ?_⟩
  · rw [hremote]
    exact h.cmi (hphase ▸ hp)
  · rw [hlocal, hremote]
    exact h.hello (hphase ▸ hp)

theorem Unfinished.past (h : hs.phase ≠ .cmi ∧ hs.phase ≠ .hello) : hs.Unfinished :=
  ⟨fun hp => absurd hp h.1, fun hp => absurd hp h.2⟩

theorem Orderly.congr (h : hs.Orderly ended) (hcore : hs'.core = hs.core)
    (htimers : hs.isOver = true → hs'.timers = hs.timers)
    (hevents : hs'.events.countP HandshakeEvent.isAborted =
      hs.events.countP HandshakeEvent.isAborted) : hs'.Orderly ended :=
  ⟨h.reported.congr (congrArg Core.phase hcore) htimers hevents,
    h.unfinished.congr (congrArg Core.phase hcore) (congrArg Core.localReady hcore)
      (congrArg Core.remoteReady hcore)⟩

theorem Orderly.send (h : hs.Orderly ended) (message : ShipMessage) :
    (hs.send message).Orderly ended := h.congr rfl (fun _ => rfl) rfl

theorem Orderly.report (h : hs.Orderly ended) {event : HandshakeEvent}
    (hevent : event.isAborted = false) : (hs.report event).Orderly ended := by
  refine h.congr rfl (fun _ => rfl) ?_
  simp [Handshake.report, hevent]

theorem Orderly.live (h : hs.Orderly ended) (hrunning : hs.isOver = false) (hcore : hs'.core = hs.core)
    (hevents : hs'.events.countP HandshakeEvent.isAborted =
      hs.events.countP HandshakeEvent.isAborted) : hs'.Orderly ended :=
  h.congr hcore (fun hover => by simp [hover] at hrunning) hevents

theorem Reported.enter (h : hs.Reported ended) (hrunning : hs.isOver = false)
    (hrunning' : hs'.isOver = false) (hevents : hs'.events.countP HandshakeEvent.isAborted =
      hs.events.countP HandshakeEvent.isAborted) : hs'.Reported ended := by
  refine ⟨fun hover => by simp [hover] at hrunning', ?_⟩
  rw [hevents, h.count, hrunning, hrunning']

theorem Reported.stop (h : hs.Reported ended) (reason : AbortReason) {phase : Phase}
    (hphase : phase = .aborted ∨ phase = .closed) :
    Orderly ended (if hs.isOver then hs
      else { hs with phase := phase, timers := {} }.report (.aborted reason)) := by
  split
  case isTrue hover =>
    refine ⟨h, .past ?_⟩
    cases hphase : hs.phase <;> simp_all [isOver]
  case isFalse hover =>
    have hcount := h.count
    rw [Bool.not_eq_true] at hover
    rw [hover] at hcount
    rcases hphase with rfl | rfl
    all_goals
      refine ⟨⟨fun _ => rfl, ?_⟩, .past ⟨(fun h => by cases h), fun h => by cases h⟩⟩
      simpa [Handshake.report, HandshakeEvent.isAborted, isOver, ← Nat.add_assoc] using hcount

theorem Reported.abort (h : hs.Reported ended) (reason : AbortReason) :
    (hs.abort reason).Orderly ended :=
  h.stop reason (.inl rfl)

theorem Reported.finish (h : hs.Reported ended) (reason : AbortReason) :
    (hs.finish reason).Orderly ended :=
  h.stop reason (.inr rfl)

/-- The hello is said, or refused: it may yet be completed in the first case only. -/
def Greeting (ended : Nat) (hs : Handshake) : Prop :=
  hs.Reported ended ∧ (hs.phase = .hello ∨
    hs.phase = .aborted ∧ (hs.helloLocalReady && hs.helloRemoteReady) = false)

theorem enterProtocolHandshake_events : (hs.enterProtocolHandshake now).events = hs.events := by
  unfold enterProtocolHandshake
  dsimp only
  split
  · rfl
  · rfl

theorem Greeting.tryFinishHello (h : hs.Greeting ended) : (hs.tryFinishHello now).Orderly ended := by
  obtain ⟨hreported, hhello⟩ := h
  unfold Handshake.tryFinishHello
  split
  case isTrue hboth =>
    have hphase : hs.phase = .hello := hhello.resolve_right fun habort => by
      simp [habort.2] at hboth
    generalize hended : { hs with timers := { hs.timers with
      waitForReady := none, sendProlongation := none, prolongationReply := none } } = ended'
    have hentered : (ended'.enterProtocolHandshake now).phase = .protocolHandshake :=
      congrArg Core.phase enterProtocolHandshake_core
    refine ⟨hreported.enter (isOver_of_phase hphase (by decide)) (isOver_of_phase hentered (by decide)) ?_,
      .past (by simp [hentered])⟩
    rw [enterProtocolHandshake_events, ← hended]
  case isFalse hboth =>
    refine ⟨hreported, fun hp => ?_, fun _ => by simpa using hboth⟩
    cases hhello with
    | inl hphase => simp [hphase] at hp
    | inr habort => simp [habort.1] at hp

theorem armProlongation_events : (hs.armProlongation now).events = hs.events := by
  unfold armProlongation
  dsimp only
  repeat' split
  all_goals rfl

section

variable (h : hs.Orderly ended)

include h

theorem Orderly.armProlongation (hrunning : hs.isOver = false) :
    (hs.armProlongation now).Orderly ended :=
  h.live hrunning armProlongation_core (by rw [armProlongation_events])

theorem Orderly.refuseHello (hphase : hs.phase = .hello) : hs.refuseHello.Greeting ended := by
  have hcore := refuseHello_core hphase
  have hlocal : hs.refuseHello.helloLocalReady = hs.helloLocalReady := congrArg Core.localReady hcore
  have hremote : hs.refuseHello.helloRemoteReady = hs.helloRemoteReady := congrArg Core.remoteReady hcore
  refine ⟨((h.send _).reported.abort _).reported, .inr ⟨congrArg Core.phase hcore, ?_⟩⟩
  rw [hlocal, hremote]
  exact h.unfinished.hello hphase

theorem Orderly.announceHello (hphase : hs.phase = .hello) :
    (hs.announceHello now).Greeting ended := by
  have hsaid : ∀ {hs' : Handshake} {said : ConnectionHelloPhase}, hs'.phase = .hello →
      hs'.events.countP HandshakeEvent.isAborted = hs.events.countP HandshakeEvent.isAborted →
      (hs'.announceHelloAs said now).Greeting ended := by
    intro hs' said hp hevents
    have hp' : (hs'.announceHelloAs said now).phase = .hello :=
      (congrArg Core.phase (announceHelloAs_core said)).trans hp
    refine ⟨h.reported.enter (isOver_of_phase hphase (by decide)) (isOver_of_phase hp' (by decide)) ?_,
      .inl hp'⟩
    rw [announceHelloAs, armProlongation_events]
    exact hevents
  unfold Handshake.announceHello
  split
  · split
    · exact h.refuseHello hphase
    · exact hsaid hphase rfl
  · dsimp only
    split
    · exact hsaid hphase rfl
    · refine hsaid hphase ?_
      simp [Handshake.report, HandshakeEvent.isAborted]
  · exact h.refuseHello hphase

theorem Orderly.onCmi : (hs.onCmi now).Orderly ended := by
  unfold Handshake.onCmi
  split
  case isTrue => exact h.reported.abort _
  case isFalse hphase =>
    rw [not_not] at hphase
    have hrunning : hs.isOver = false := isOver_of_phase hphase (by decide)
    have hremote : hs.helloRemoteReady = false := h.unfinished.cmi hphase
    dsimp only
    split
    case isTrue =>
      unfold enterHello
      generalize hentered : { hs with
        cmiReceived := true
        timers := { hs.timers with cmi := none }
        phase := Phase.hello } = entered
      have horderly : entered.Orderly ended := by
        subst hentered
        refine ⟨h.reported.enter hrunning rfl rfl, nofun, fun _ => ?_⟩
        simp [hremote]
      have hphase' : entered.phase = .hello := hentered ▸ rfl
      have hremote' : (entered.announceHello now).helloRemoteReady = false := by
        rw [announceHello_remoteReady, ← hentered]
        exact hremote
      have hsame : (entered.announceHello now).tryFinishHello now = entered.announceHello now := by
        simp [Handshake.tryFinishHello, hremote']
      rw [← hsame]
      exact (horderly.announceHello hphase').tryFinishHello
    case isFalse => exact ⟨h.reported.congr rfl (fun _ => rfl) rfl, h.unfinished.congr rfl rfl rfl⟩

theorem Orderly.noteHello (hello : ConnectionHello) :
    (hs.noteHello hello now).Orderly ended := by
  unfold Handshake.noteHello
  cases hello.waiting with
  | none =>
    dsimp only
    split
    · exact h.report rfl
    · exact h
  | some ms =>
    have hwaits : Orderly ended { hs with
        helloPeerWaiting := some (ms * 1000000)
        helloPeerDeadline := some (now + ms * 1000000) } := h.congr rfl (fun _ => rfl) rfl
    dsimp only
    split
    · exact hwaits.report rfl
    · exact hwaits

theorem Orderly.continueHello (hello : ConnectionHello) :
    (hs.continueHello hello now).Orderly ended := by
  have harmed : ∀ {hs : Handshake}, hs.Orderly ended →
      (if hs.phase = .hello then hs.armProlongation now else hs).Orderly ended := by
    intro hs h
    split
    case isTrue hphase => exact h.armProlongation (isOver_of_phase hphase (by decide))
    case isFalse => exact h
  unfold Handshake.continueHello
  refine harmed ?_
  split
  case isTrue hrequest => exact h.live (isOver_of_phase hrequest.1 (by decide)) rfl rfl
  case isFalse => exact h

theorem Orderly.onHello (hello : ConnectionHello) : (hs.onHello hello now).Orderly ended := by
  unfold Handshake.onHello
  split
  · exact h
  case isFalse hphase =>
    rw [not_not] at hphase
    have hnoted : Orderly ended (hs.noteHello hello now) := h.noteHello hello
    have hphase' : (hs.noteHello hello now).phase = .hello :=
      (congrArg Core.phase (noteHello_core hello)).trans hphase
    generalize hs.noteHello hello now = noted at hnoted hphase' ⊢
    have hrunning := isOver_of_phase hphase' (by decide)
    dsimp only
    split
    · split
      · exact hnoted.reported.abort _
      · refine Orderly.continueHello ?_ hello
        exact Greeting.tryFinishHello ⟨hnoted.reported.enter hrunning hrunning rfl, .inl hphase'⟩
    · refine Orderly.continueHello ?_ hello
      have hpending : Orderly ended { noted with
          helloRemoteReady := false
          timers := { noted.timers with prolongationReply := none } } :=
        ⟨hnoted.reported.enter hrunning hrunning rfl, fun _ => rfl, fun _ => Bool.and_false _⟩
      split
      · exact hpending.report rfl
      · exact hpending
    · exact hnoted.reported.abort _
    · exact hnoted.reported.abort _

theorem Orderly.failProtocol (error : Nat) (reason : AbortReason) :
    (hs.failProtocol error reason).Orderly ended := by
  refine Reported.abort ?_ reason
  unfold sendProtocolError
  split
  · exact (h.send _).reported
  · exact h.reported

theorem Orderly.enterPin (hphase : hs.phase = .protocolHandshake) :
    (hs.enterPin now).Orderly ended :=
  ⟨h.reported.enter (isOver_of_phase hphase (by decide)) rfl rfl, .past ⟨nofun, nofun⟩⟩

theorem Orderly.proposeProtocol (hphase : hs.phase = .protocolHandshake)
    (msg : MessageProtocolHandshake) : (hs.proposeProtocol msg now).Orderly ended := by
  have hrunning : hs.isOver = false := isOver_of_phase hphase (by decide)
  unfold Handshake.proposeProtocol
  split
  · exact h.failProtocol _ _
  · split
    · exact ⟨h.reported.enter hrunning hrunning rfl, .past (by simp [Handshake.send, hphase])⟩
    · exact h.failProtocol _ _

theorem Orderly.confirmProtocol (hphase : hs.phase = .protocolHandshake)
    (msg : MessageProtocolHandshake) : (hs.confirmProtocol msg now).Orderly ended := by
  have hrunning : hs.isOver = false := isOver_of_phase hphase (by decide)
  unfold Handshake.confirmProtocol
  split
  · exact h.failProtocol _ _
  · split
    case h_1 version only hversion hformats =>
      split
      · exact h.failProtocol _ _
      · have hechoed : Orderly ended ({ hs with negotiated := some (version, only) }.send
            (.control (.messageProtocolHandshake msg))) :=
          ⟨h.reported.enter hrunning hrunning rfl, .past (by simp [Handshake.send, hphase])⟩
        exact hechoed.enterPin hphase
    case h_2 => exact h.failProtocol _ _

theorem Orderly.onProtocolHandshake (msg : MessageProtocolHandshake) :
    (hs.onProtocolHandshake msg now).Orderly ended := by
  unfold Handshake.onProtocolHandshake
  split
  · exact h.reported.abort _
  case isFalse hphase =>
    rw [not_not] at hphase
    have hwaited : Orderly ended { hs with timers := { hs.timers with wait := none } } :=
      h.live (isOver_of_phase hphase (by decide)) rfl rfl
    dsimp only
    split
    · split
      · exact hwaited.proposeProtocol hphase msg
      · split
        · exact hwaited.failProtocol _ _
        · exact hwaited.enterPin hphase
    · exact hwaited.confirmProtocol hphase msg

theorem Orderly.sendPinIfPermitted : hs.sendPinIfPermitted.1.Orderly ended := by
  unfold Handshake.sendPinIfPermitted
  split
  · exact h
  · split
    · exact h
    · split
      · exact h.report rfl
      · split
        · exact h
        · exact h.congr rfl (fun _ => rfl) rfl

theorem Orderly.tryFinishPin : hs.tryFinishPin.Orderly ended := by
  unfold Handshake.tryFinishPin
  split
  · exact h
  case isFalse hphase =>
    rw [not_not] at hphase
    split
    · have hopened : Orderly ended { hs with
          timers := { hs.timers with wait := none }, phase := .dataExchange } :=
        ⟨h.reported.enter (isOver_of_phase hphase (by decide)) rfl rfl, .past ⟨nofun, nofun⟩⟩
      dsimp only
      split
      · exact hopened.report rfl
      · exact hopened
    · exact h

theorem Orderly.onPinState (hrunning : hs.isOver = false)
    (state : ConnectionPinState) : (hs.onPinState state).Orderly ended := by
  unfold Handshake.onPinState
  split
  · exact h.reported.abort _
  case h_2 pinState hstate =>
    have hstored : Orderly ended { hs with
        timers := { hs.timers with wait := none }
        peerPinState := some pinState } := h.live hrunning rfl rfl
    have hnoted : Orderly ended (Handshake.report _ (.peerPinState pinState)) := hstored.report rfl
    dsimp only
    refine Orderly.tryFinishPin ?_
    split
    · exact hnoted.sendPinIfPermitted
    · exact hnoted

theorem Orderly.sendPinState : hs.sendPinState.Orderly ended := h.send _

theorem Orderly.onPinInput (hrunning : hs.isOver = false)
    (input : Option String) : (hs.onPinInput input now).Orderly ended := by
  unfold Handshake.onPinInput
  split
  · exact h.sendPinState
  · split
    · refine Orderly.tryFinishPin (Orderly.send (Orderly.report ?_ rfl) _)
      exact ⟨h.reported.congr rfl (fun _ => rfl) rfl, h.unfinished.congr rfl rfl rfl⟩
    · have hcounted : Orderly ended ({ hs with
          pinAttempts := min (hs.pinAttempts + 1) (2 ^ 32 - 1) }.send
          (.control (.connectionPinError (some 1)))) := h.congr rfl (fun _ => rfl) rfl
      dsimp only
      split
      · exact Orderly.sendPinState (hcounted.live hrunning rfl rfl)
      · exact hcounted

theorem Orderly.sendKeyMaterial : (hs.sendKeyMaterial now).Orderly ended := by
  unfold Handshake.sendKeyMaterial
  split
  · exact h
  · split
    · exact h
    case isFalse hready =>
      refine h.live ?_ rfl rfl
      unfold isReadyForData at hready
      cases hphase : hs.phase <;> simp_all [isOver]

theorem Orderly.onControl (hrunning : hs.isOver = false)
    (control : ControlMessage) : (hs.onControl control now).Orderly ended := by
  cases control with
  | connectionHello hello => exact h.onHello hello
  | messageProtocolHandshake msg => exact h.onProtocolHandshake msg
  | messageProtocolHandshakeError error => exact h.reported.abort _
  | connectionPinState state => exact h.onPinState hrunning state
  | connectionPinInput pin => exact h.onPinInput hrunning pin
  | connectionPinError error => exact h
  | accessMethodsRequest => exact h.send _
  | accessMethods methods => exact h.report rfl
  | keyMaterialState state => exact (h.send _).report rfl
  | keyMaterialStateResponse accept => exact h.live hrunning rfl rfl
  | keyMaterialStateRequest known =>
    unfold Handshake.onControl onKeyMaterialStateRequest
    dsimp only
    split
    · exact h.sendKeyMaterial.report rfl
    · exact h.report rfl
  | commissioning => exact h

theorem Orderly.onClose (close : ConnectionClose) : (hs.onClose close).Orderly ended := by
  unfold Handshake.onClose
  split
  · exact (h.send _).reported.finish _
  · exact h.reported.finish _
  · exact h.reported.abort _

theorem Orderly.servePinAndReady (hrunning : hs.isOver = false) :
    (hs.servePinAndReady now).Orderly ended := by
  unfold Handshake.servePinAndReady
  dsimp only
  split
  · have hpermitted : Orderly ended { hs with
        timers := { hs.timers with pinPenalty := none }, pinPenaltyUntil := none } :=
      h.live hrunning rfl rfl
    have hserved := hpermitted.sendPinState
    split
    · refine Reported.abort (Orderly.reported ?_) _
      exact hserved.live hrunning rfl rfl
    · exact hserved
  · split
    · refine Reported.abort (Orderly.reported ?_) _
      exact h.live hrunning rfl rfl
    · exact h

theorem Orderly.serveKeyMaterial (hrunning : hs.isOver = false) :
    (hs.serveKeyMaterial now).Orderly ended := by
  unfold Handshake.serveKeyMaterial
  split
  · dsimp only
    split
    · refine Reported.abort (Orderly.reported ?_) _
      exact h.live hrunning rfl rfl
    · split
      · exact Orderly.servePinAndReady (h.live hrunning rfl rfl) hrunning
      · exact Orderly.servePinAndReady (h.live hrunning rfl rfl) hrunning
  · exact h.servePinAndReady hrunning

theorem Orderly.serveTimers (hrunning : hs.isOver = false) :
    (hs.serveTimers now).Orderly ended := by
  unfold Handshake.serveTimers
  split
  · refine Reported.abort (Orderly.reported ?_) _
    exact h.live hrunning rfl rfl
  · split
    · refine Orderly.failProtocol ?_ _ _
      exact h.live hrunning rfl rfl
    · generalize hasked : (if expired hs.timers.sendProlongation now = true then
        { hs with timers := { hs.timers with sendProlongation := none } }.sendProlongationRequest now
        else hs) = asked
      have horderly : asked.Orderly ended ∧ asked.isOver = false := by
        rw [← hasked]
        split
        · exact ⟨h.live hrunning rfl rfl, hrunning⟩
        · exact ⟨h, hrunning⟩
      dsimp only
      split
      · refine Reported.abort (Orderly.reported ?_) _
        exact horderly.1.live horderly.2 rfl rfl
      · split
        · refine Reported.finish (Orderly.reported ?_) _
          exact horderly.1.live horderly.2 rfl rfl
        · exact horderly.1.serveKeyMaterial horderly.2

theorem Orderly.handleMessage (message : ShipMessage) :
    ((hs.handleMessage message now).getD hs).Orderly ended := by
  unfold Handshake.handleMessage
  split
  case isTrue => exact h
  case isFalse hrunning =>
    cases message with
    | cmi => exact h.onCmi
    | control control => exact h.onControl (Bool.not_eq_true _ ▸ hrunning) control
    | connectionClose close => exact h.onClose close
    | data =>
      dsimp only [Option.getD_some]
      split
      · exact h
      · exact h.reported.abort _

theorem Orderly.handleTimeout : ((hs.handleTimeout now).getD hs).Orderly ended := by
  unfold Handshake.handleTimeout
  split
  case isTrue => exact h
  case isFalse hrunning => exact h.serveTimers (Bool.not_eq_true _ ▸ hrunning)

theorem Orderly.setTrust (trust : Trust) : ((hs.setTrust trust now).getD hs).Orderly ended := by
  have htrusted : Orderly ended { hs with trust := trust } :=
    ⟨h.reported.congr rfl (fun _ => rfl) rfl, h.unfinished.congr rfl rfl rfl⟩
  unfold Handshake.setTrust
  split
  case isTrue => exact h
  case isFalse =>
    dsimp only
    split
    case isTrue hphase => exact (htrusted.announceHello hphase).tryFinishHello
    case isFalse => exact htrusted

theorem Orderly.close (reason : ConnectionCloseReason) (maxTime : Nat) :
    (hs.close reason maxTime now).Orderly ended := by
  unfold Handshake.close
  split
  · exact h
  case isFalse hopen =>
    have hrunning : hs.isOver = false := by
      cases hphase : hs.phase <;> simp_all [isOver]
    exact ⟨h.reported.enter hrunning rfl rfl, .past ⟨(fun h => by cases h), fun h => by cases h⟩⟩

end

end Handshake

/-- The events a call hands to the application. -/
def HandshakeOp.fetched (hs : Handshake) : HandshakeOp → List HandshakeEvent
  | .pollEvent => hs.events.take 1
  | _ => []

namespace Handshake

variable {hs : Handshake} {ended : Nat}

theorem Orderly.step (h : hs.Orderly ended) (op : HandshakeOp) :
    (handshake.next hs op).Orderly (ended + (op.fetched hs).countP HandshakeEvent.isAborted) := by
  cases op with
  | handleMessage message now => exact h.handleMessage message
  | handleTimeout now => exact h.handleTimeout
  | setTrust trust now => exact h.setTrust trust
  | close reason maxTime now => exact h.close reason maxTime
  | sendPin pin =>
    have hentered : Orderly ended { hs with config := { hs.config with peerPin := some pin } } :=
      h.congr rfl (fun _ => rfl) rfl
    exact hentered.sendPinIfPermitted
  | sendPinIfPermitted => exact h.sendPinIfPermitted
  | sendKeyMaterial now => exact h.sendKeyMaterial
  | requestKeyMaterial known =>
    simp only [Machine.next, handshake, requestKeyMaterial]
    split
    · exact h.send _
    · exact h
  | requestAccessMethods =>
    simp only [Machine.next, handshake, requestAccessMethods]
    split
    · exact h.send _
    · exact h
  | pollTransmit => exact h.congr rfl (fun _ => rfl) rfl
  | pollEvent =>
    refine ⟨⟨h.reported.stopped, ?_⟩, h.unfinished.cmi, h.unfinished.hello⟩
    -- the event fetched and those left are those there were
    have hsplit : (hs.events.take 1).countP HandshakeEvent.isAborted +
        hs.events.tail.countP HandshakeEvent.isAborted = hs.events.countP HandshakeEvent.isAborted := by
      rw [← List.countP_append, ← List.drop_one, List.take_append_drop]
    have hcount := h.reported.count
    rw [← hsplit, ← Nat.add_assoc] at hcount
    exact hcount

theorem Orderly.run (h : hs.Orderly ended) (ops : List HandshakeOp) :
    (handshake.run hs ops).Orderly
      (ended + (handshake.collect (fun hs op => op.fetched hs) hs ops).countP HandshakeEvent.isAborted) := by
  induction ops generalizing hs ended with
  | nil => exact h
  | cons op ops ih =>
    rw [Machine.collect, List.countP_append, ← Nat.add_assoc]
    exact ih (h.step op)

theorem orderly_new (role : Role) (config : HandshakeConfig) (trust : Trust) (now : Nat) :
    (new role config trust now).Orderly 0 :=
  ⟨⟨nofun, rfl⟩, fun _ => rfl, nofun⟩

theorem over_idle (hover : hs.isOver = true) (op : HandshakeOp) :
    (handshake.next hs op).phase = hs.phase ∧ (op ≠ .pollTransmit → op ≠ .pollEvent →
      (handshake.next hs op).outbox = hs.outbox ∧ (handshake.next hs op).events = hs.events) := by
  have hphase : hs.phase = .closed ∨ hs.phase = .aborted := by
    unfold isOver at hover
    cases hp : hs.phase <;> simp_all
  have hready : hs.isReadyForData = false := by
    unfold isReadyForData
    cases hphase with
    | inl hp => rw [hp]
    | inr hp => rw [hp]
  have hwithheld : ∀ {hs' : Handshake}, hs'.phase = hs.phase → hs'.sendPinIfPermitted.1 = hs' := by
    intro hs' hp
    have hpast : hs'.phase ≠ .pin ∧ hs'.phase ≠ .dataExchange := by
      rw [hp]
      cases hphase with
      | inl hp => simp [hp]
      | inr hp => simp [hp]
    rw [sendPinIfPermitted, if_pos hpast]
  cases op with
  | handleMessage message now => simp [Machine.next, handshake, handleMessage, hover]
  | handleTimeout now => simp [Machine.next, handshake, handleTimeout, hover]
  | setTrust trust now => simp [Machine.next, handshake, setTrust, hover]
  | close reason maxTime now =>
    have hclosed : hs.phase = .closed ∨ hs.phase = .aborted ∨ hs.phase = .closing :=
      hphase.imp_right .inl
    simp [Machine.next, handshake, close, hclosed]
  | sendPin pin => simp [Machine.next, handshake, sendPin, hwithheld]
  | sendPinIfPermitted => simp [Machine.next, handshake, hwithheld]
  | sendKeyMaterial now =>
    simp only [Machine.next, handshake, sendKeyMaterial, hready]
    split <;> simp
  | requestKeyMaterial known => simp [Machine.next, handshake, requestKeyMaterial, hready]
  | requestAccessMethods => simp [Machine.next, handshake, requestAccessMethods, hready]
  | pollTransmit => exact ⟨rfl, fun h => absurd rfl h⟩
  | pollEvent => exact ⟨rfl, fun _ h => absurd rfl h⟩

theorem over_run (hover : hs.isOver = true) (ops : List HandshakeOp) :
    (handshake.run hs ops).phase = hs.phase := by
  induction ops generalizing hs with
  | nil => rfl
  | cons op ops ih =>
    have hphase := (over_idle hover op).1
    rw [Machine.run_cons, ih (isOver_congr hphase ▸ hover), hphase]

end Handshake

/-- Once a handshake is closed or aborted it stays so, its end has been reported once, no timer runs,
and nothing more is queued. -/
theorem terminal_phases_absorbing (role : Role) (config : HandshakeConfig) (trust : Trust) (now : Nat)
    (ops later : List HandshakeOp) :
    let start := Handshake.new role config trust now
    let ended := handshake.run start ops
    let hs := handshake.run start (ops ++ later)
    let fetched := handshake.collect (fun hs op => op.fetched hs) start (ops ++ later)
    ended.phase = .closed ∨ ended.phase = .aborted →
      hs.phase = ended.phase ∧ (fetched ++ hs.events).countP HandshakeEvent.isAborted = 1 ∧
        hs.pollTimeout = none ∧ ∀ op, op ≠ .pollTransmit → op ≠ .pollEvent →
          (handshake.next hs op).outbox = hs.outbox ∧ (handshake.next hs op).events = hs.events := by
  intro start ended hs fetched hphase
  have hover : ended.isOver = true := by
    rw [Handshake.isOver]
    cases hphase with
    | inl hp => rw [hp]
    | inr hp => rw [hp]
  have hsame : hs.phase = ended.phase := by
    have hlater := Handshake.over_run hover later
    rwa [← Machine.run_append] at hlater
  have hover' : hs.isOver = true := Handshake.isOver_congr hsame ▸ hover
  have horderly : hs.Orderly (0 + fetched.countP HandshakeEvent.isAborted) :=
    (Handshake.orderly_new role config trust now).run (ops ++ later)
  have hcount := horderly.reported.count
  refine ⟨hsame, ?_, ?_, fun op => (Handshake.over_idle hover' op).2⟩
  · rw [List.countP_append]
    simpa [hover'] using hcount
  · rw [Handshake.pollTimeout, horderly.reported.stopped hover']
    rfl

/-- Data before the hello ends the connection for good; the peer's hello comes too late. -/
theorem terminal_phases_absorbing_data :
    let start := Handshake.new .server {} .pending 0
    let hello : ShipMessage := .control (.connectionHello { phase := some .ready, waiting := some 60000 })
    let ops : List HandshakeOp := [.handleMessage .cmi 1, .handleMessage .data 2]
    let hs := handshake.run start (ops ++ [.handleMessage hello 3])
    hs.phase = .aborted ∧ hs.pollTimeout = none := by
  intro start hello ops hs
  have hended : (handshake.run start ops).phase = .aborted := by decide +kernel
  obtain ⟨hphase, -, htimeout, -⟩ := terminal_phases_absorbing .server {} .pending 0 ops
    [.handleMessage hello 3] (.inr hended)
  exact ⟨hphase.trans hended, htimeout⟩

end Eebus.Ship
