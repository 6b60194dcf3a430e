import Eebus.Ship.Handshake

/-!
No handshake waits for ever. While it is neither in data exchange nor over, a timer runs that ends
it when nothing more arrives; the other timers run out a bounded number of times before that.
-/

namespace Eebus.Ship

open Eebus.Library

namespace Handshake

variable {hs : Handshake} {now : Nat}

/-- A timer runs that ends the phase, if the phase is one that has to end. -/
def Attended (hs : Handshake) : Prop :=
  match hs.phase with
  | .cmi => hs.timers.cmi.isSome
  | .hello => hs.timers.waitForReady.isSome ∨ hs.helloLocalReady = false ∧
    (hs.timers.sendProlongation.isSome ∨ hs.timers.prolongationReply.isSome)
  | .protocolHandshake => hs.timers.wait.isSome
  | .closing => hs.timers.close.isSome
  | .pin | .dataExchange | .closed | .aborted => True

theorem attended_of_isOver (h : hs.isOver = true) : hs.Attended := by
  unfold Attended
  unfold isOver at h
  cases hphase : hs.phase <;> simp_all

theorem abort_isOver (reason : AbortReason) : (hs.abort reason).isOver = true := by
  unfold abort
  split
  · assumption
  · rfl

theorem finish_isOver (reason : AbortReason) : (hs.finish reason).isOver = true := by
  unfold finish
  split
  · assumption
  · rfl

theorem attended_abort (reason : AbortReason) : (hs.abort reason).Attended :=
  attended_of_isOver (abort_isOver reason)

theorem attended_finish (reason : AbortReason) : (hs.finish reason).Attended :=
  attended_of_isOver (finish_isOver reason)

theorem armProlongation_spec : ∃ slot, hs.armProlongation now =
    { hs with timers := { hs.timers with sendProlongation := slot } } ∧
      (hs.helloLocalReady = false →
        helloProlongThrInc ≤ hs.helloPeerWaiting.getD hs.config.helloInit → slot.isSome) := by
  unfold armProlongation
  dsimp only
  split
  case isTrue hlocal => exact ⟨none, rfl, fun h => by simp [hlocal] at h⟩
  split
  case isTrue hshort => exact ⟨none, rfl, fun _ h => absurd hshort (Nat.not_lt.mpr h)⟩
  split
  · exact ⟨_, rfl, fun _ _ => rfl⟩
  · exact ⟨_, rfl, fun _ _ => rfl⟩

theorem attended_armProlongation (hphase : hs.phase = .hello)
    (h : hs.timers.waitForReady.isSome ∨ hs.helloLocalReady = false ∧
      helloProlongThrInc ≤ hs.helloPeerWaiting.getD hs.config.helloInit) :
    (hs.armProlongation now).Attended := by
  obtain ⟨slot, harm, hslot⟩ : ∃ slot, hs.armProlongation now = _ ∧ _ := armProlongation_spec
  rw [harm]
  unfold Attended
  simp only [hphase]
  cases h with
  | inl hready => exact .inl hready
  | inr hlong => exact .inr ⟨hlong.1, .inl (hslot hlong.1 hlong.2)⟩

theorem attended_announceHelloAs (hphase : hs.phase = .hello) (phase : ConnectionHelloPhase) :
    (hs.announceHelloAs phase now).Attended :=
  attended_armProlongation hphase (.inl rfl)

theorem attended_refuseHello : hs.refuseHello.Attended := attended_abort _

theorem attended_announceHello (hphase : hs.phase = .hello) : (hs.announceHello now).Attended := by
  have hannounced : ∀ {hs' : Handshake} {phase : ConnectionHelloPhase}, hs'.phase = hs.phase →
      (hs'.announceHelloAs phase now).Attended := fun h => attended_announceHelloAs (h.trans hphase) _
  unfold announceHello
  split
  · split
    · exact attended_refuseHello
    · exact hannounced rfl
  · dsimp only
    split
    · exact hannounced rfl
    · exact hannounced rfl
  · exact attended_refuseHello

theorem attended_onCmi (h : hs.Attended) : (hs.onCmi now).Attended := by
  unfold onCmi
  split
  case isTrue => exact attended_abort _
  case isFalse hphase =>
    dsimp only
    split
    · exact attended_announceHello rfl
    · exact h

theorem attended_enterProtocolHandshake : (hs.enterProtocolHandshake now).Attended := by
  unfold enterProtocolHandshake
  dsimp only
  split
  · rfl
  · rfl

theorem enterProtocolHandshake_phase : (hs.enterProtocolHandshake now).phase = .protocolHandshake := by
  unfold enterProtocolHandshake
  dsimp only
  split
  · rfl
  · rfl

theorem attended_tryFinishHello (h : hs.Attended) : (hs.tryFinishHello now).Attended := by
  unfold tryFinishHello
  split
  · exact attended_enterProtocolHandshake
  · exact h

theorem tryFinishHello_ready (h : hs.helloLocalReady = true) (h' : hs.helloRemoteReady = true) :
    (hs.tryFinishHello now).phase = .protocolHandshake ∧ (hs.tryFinishHello now).Attended := by
  rw [tryFinishHello, h, h', Bool.and_self, if_pos rfl]
  exact ⟨enterProtocolHandshake_phase, attended_enterProtocolHandshake⟩

theorem tryFinishHello_pending (h : hs.helloLocalReady = false) : hs.tryFinishHello now = hs := by
  rw [tryFinishHello, h, Bool.false_and, if_neg Bool.false_ne_true]

def announcedWait (hs : Handshake) (hello : ConnectionHello) : Nat :=
  ((hello.waiting.map (· * 1000000)).or hs.helloPeerWaiting).getD hs.config.helloInit

/-- The hello leaves a node that is still to be trusted with no timer of its own: it waits for no
one any more, and does not ask a peer that waits so briefly to wait longer. -/
def Strands (hs : Handshake) (hello : ConnectionHello) : Prop :=
  hs.phase = .hello ∧ hs.helloLocalReady = false ∧ hello.prolongationRequest ≠ some true ∧
    hs.announcedWait hello < helloProlongThrInc ∧
    (hello.phase = some .ready ∧ hello.waiting.isSome ∨
      hello.phase = some .pending ∧ hs.timers.waitForReady = none)

theorem noteHello_spec (hello : ConnectionHello) :
    (hs.noteHello hello now).phase = hs.phase ∧ (hs.noteHello hello now).timers = hs.timers ∧
      (hs.noteHello hello now).helloLocalReady = hs.helloLocalReady ∧
      (hs.noteHello hello now).helloPeerWaiting.getD (hs.noteHello hello now).config.helloInit =
        hs.announcedWait hello := by
  unfold noteHello announcedWait
  cases hello.waiting <;> dsimp only <;> split <;> exact ⟨rfl, rfl, rfl, rfl⟩

theorem attended_continueHello {hello : ConnectionHello} (hpast : hs.phase ≠ .hello → hs.Attended)
    (hwait : hs.phase = .hello → hs.timers.waitForReady.isSome ∨
      hello.prolongationRequest = some true ∨ hs.helloLocalReady = false ∧
        helloProlongThrInc ≤ hs.helloPeerWaiting.getD hs.config.helloInit) :
    (hs.continueHello hello now).Attended := by
  by_cases hphase : hs.phase = .hello
  · by_cases hrequest : hello.prolongationRequest = some true
    · have harm : hs.continueHello hello now = (hs.acceptProlongation now).armProlongation now := by
        have hstill : (hs.acceptProlongation now).phase = .hello := hphase
        simp only [continueHello, hphase, hrequest, hstill, and_self, if_true]
      rw [harm]
      exact attended_armProlongation hphase (.inl rfl)
    · have harm : hs.continueHello hello now = hs.armProlongation now := by
        simp only [continueHello, hphase, hrequest, and_false, if_false, if_true]
      rw [harm]
      refine attended_armProlongation hphase ?_
      have hrest := hwait hphase
      simpa only [hrequest, false_or] using hrest
  · have hsame : hs.continueHello hello now = hs := by
      simp only [continueHello, hphase, false_and, if_false]
    rw [hsame]
    exact hpast hphase

theorem attended_onHello (h : hs.Attended) {hello : ConnectionHello} (hstrands : ¬hs.Strands hello) :
    (hs.onHello hello now).Attended := by
  by_cases hphase : hs.phase = .hello
  case neg => simpa only [onHello, ne_eq, hphase, not_false_eq_true, if_true] using h
  obtain ⟨hphase', htimers, hlocal, hwait⟩ : (hs.noteHello hello now).phase = _ ∧ _ :=
    noteHello_spec hello
  -- this node waits for the peer still, or it is the one that is waited for
  have hours : hs.timers.waitForReady.isSome ∨ hs.helloLocalReady = false := by
    unfold Attended at h
    rw [hphase] at h
    exact h.imp_right And.left
  simp only [onHello, hphase, ne_eq, not_true_eq_false, if_false]
  generalize hs.noteHello hello now = noted at hphase' htimers hlocal hwait ⊢
  have hin : noted.phase = .hello := hphase'.trans hphase
  split
  case h_1 hready =>
    split
    · exact attended_abort _
    case isFalse hnamed =>
      rw [hlocal] at hnamed ⊢
      cases hown : hs.helloLocalReady with
      | true =>
        refine attended_continueHello (fun _ => (tryFinishHello_ready rfl rfl).2) fun hback => ?_
        rw [(tryFinishHello_ready rfl rfl).1] at hback
        cases hback
      | false =>
        rw [tryFinishHello_pending rfl]
        have hwaiting : hello.waiting.isSome := by
          simpa [hown, Option.isSome_iff_ne_none] using hnamed
        refine attended_continueHello (fun h => absurd hin h) fun _ => .inr ?_
        by_cases hrequest : hello.prolongationRequest = some true
        · exact .inl hrequest
        · refine .inr ⟨rfl, Nat.le_of_not_lt fun hshort => hstrands ?_⟩
          exact ⟨hphase, hown, hrequest, hwait ▸ hshort, .inl ⟨hready, hwaiting⟩⟩
  case h_2 hpending =>
    have hlong : hs.timers.waitForReady.isSome ∨ hello.prolongationRequest = some true ∨
        hs.helloLocalReady = false ∧ helloProlongThrInc ≤ hs.announcedWait hello := by
      by_cases hrunning : hs.timers.waitForReady = none
      · have hown := hours.resolve_left (by simp [hrunning])
        by_cases hrequest : hello.prolongationRequest = some true
        · exact .inr (.inl hrequest)
        · refine .inr (.inr ⟨hown, Nat.le_of_not_lt fun hshort => hstrands ?_⟩)
          exact ⟨hphase, hown, hrequest, hshort, .inr ⟨hpending, hrunning⟩⟩
      · exact .inl (Option.isSome_iff_ne_none.mpr hrunning)
    rw [← htimers, ← hlocal, ← hwait] at hlong
    split
    · exact attended_continueHello (fun h => absurd hin h) fun _ => hlong
    · exact attended_continueHello (fun h => absurd hin h) fun _ => hlong
  case h_3 => exact attended_abort _
  case h_4 => exact attended_abort _

theorem attended_failProtocol (error : Nat) (reason : AbortReason) :
    (hs.failProtocol error reason).Attended := attended_abort reason

theorem attended_proposeProtocol (msg : MessageProtocolHandshake)
    (hphase : hs.phase = .protocolHandshake) : (hs.proposeProtocol msg now).Attended := by
  unfold proposeProtocol
  split
  · exact attended_failProtocol _ _
  split
  · simp [Attended, send, hphase]
  · exact attended_failProtocol _ _

theorem attended_enterPin : (hs.enterPin now).Attended := trivial

theorem attended_confirmProtocol (msg : MessageProtocolHandshake) :
    (hs.confirmProtocol msg now).Attended := by
  unfold confirmProtocol
  split
  · exact attended_failProtocol _ _
  split
  · split
    · exact attended_failProtocol _ _
    · exact attended_enterPin
  · exact attended_failProtocol _ _

theorem attended_onProtocolHandshake (msg : MessageProtocolHandshake) :
    (hs.onProtocolHandshake msg now).Attended := by
  unfold onProtocolHandshake
  split
  case isTrue => exact attended_abort _
  case isFalse hphase =>
    rw [not_not] at hphase
    dsimp only
    split
    · split
      · exact attended_proposeProtocol msg hphase
      split
      · exact attended_failProtocol _ _
      · exact attended_enterPin
    · exact attended_confirmProtocol msg

theorem attended_sendPinIfPermitted (h : hs.Attended) : hs.sendPinIfPermitted.1.Attended := by
  unfold sendPinIfPermitted
  split
  · exact h
  split
  · exact h
  split
  · exact h
  split
  · exact h
  · exact h

theorem attended_tryFinishPin (h : hs.Attended) : hs.tryFinishPin.Attended := by
  unfold tryFinishPin
  split
  · exact h
  split
  · dsimp only
    split
    · exact trivial
    · exact trivial
  · exact h

theorem attended_onPinState (h : hs.Attended) {state : ConnectionPinState}
    (hphase : hs.phase = .protocolHandshake → state.pinState = none) :
    (hs.onPinState state).Attended := by
  unfold onPinState
  split
  case h_1 => exact attended_abort _
  case h_2 pinState hstate =>
    have hnoted : ({ hs with
        timers := { hs.timers with wait := none }
        peerPinState := some pinState }.report (.peerPinState pinState)).Attended := by
      unfold Attended at h ⊢
      cases hp : hs.phase with
      | protocolHandshake => simp [hphase hp] at hstate
      | cmi | hello | closing => simpa only [report, hp] using h
      | pin | dataExchange | closed | aborted => simp only [report]
    dsimp only
    split
    · exact attended_tryFinishPin (attended_sendPinIfPermitted hnoted)
    · exact attended_tryFinishPin hnoted

theorem attended_onPinInput (h : hs.Attended) (input : Option String) :
    (hs.onPinInput input now).Attended := by
  unfold onPinInput
  split
  · exact h
  split
  · exact attended_tryFinishPin h
  · dsimp only
    split
    · exact h
    · exact h

theorem attended_sendKeyMaterial (h : hs.Attended) : (hs.sendKeyMaterial now).Attended := by
  unfold sendKeyMaterial
  split
  · exact h
  split
  · exact h
  · exact h

theorem attended_requestKeyMaterial (h : hs.Attended) (known : Nat) :
    (hs.requestKeyMaterial known).Attended := by
  unfold requestKeyMaterial
  split
  · exact h
  · exact h

theorem attended_requestAccessMethods (h : hs.Attended) : hs.requestAccessMethods.Attended := by
  unfold requestAccessMethods
  split
  · exact h
  · exact h

theorem attended_onKeyMaterialStateRequest (h : hs.Attended) (known : Option Nat) :
    (hs.onKeyMaterialStateRequest known now).Attended := by
  unfold onKeyMaterialStateRequest
  dsimp only
  split
  · exact attended_sendKeyMaterial h
  · exact h

theorem attended_onClose (close : ConnectionClose) : (hs.onClose close).Attended := by
  unfold onClose
  split
  · exact attended_finish _
  · exact attended_finish _
  · exact attended_abort _

theorem attended_close (h : hs.Attended) (reason : ConnectionCloseReason) (maxTime : Nat) :
    (hs.close reason maxTime now).Attended := by
  unfold close
  split
  · exact h
  · rfl

/-- The call does not take the last timer away: no hello that strands this node, and no PIN
requirement in the middle of the protocol handshake. -/
def Spares (hs : Handshake) : HandshakeOp → Prop
  | .handleMessage (.control (.connectionHello hello)) _ => ¬hs.Strands hello
  | .handleMessage (.control (.connectionPinState state)) _ =>
    hs.phase = .protocolHandshake → state.pinState = none
  | _ => True

theorem attended_handleMessage (h : hs.Attended) {message : ShipMessage}
    (hspares : hs.Spares (.handleMessage message now)) :
    ((hs.handleMessage message now).getD hs).Attended := by
  unfold handleMessage
  split
  · exact h
  cases message with
  | cmi => exact attended_onCmi h
  | connectionClose close => exact attended_onClose close
  | data =>
    dsimp only
    split
    · exact h
    · exact attended_abort _
  | control control =>
    cases control with
    | connectionHello hello => exact attended_onHello h hspares
    | messageProtocolHandshake msg => exact attended_onProtocolHandshake msg
    | messageProtocolHandshakeError error => exact attended_abort _
    | connectionPinState state => exact attended_onPinState h hspares
    | connectionPinInput pin => exact attended_onPinInput h pin
    | keyMaterialStateRequest known => exact attended_onKeyMaterialStateRequest h known
    | keyMaterialStateResponse accept => exact h
    | _ => exact h

theorem attended_setTrust (h : hs.Attended) (trust : Trust) :
    ((hs.setTrust trust now).getD hs).Attended := by
  unfold setTrust
  split
  · exact h
  dsimp only
  split
  case isTrue hphase => exact attended_tryFinishHello (attended_announceHello hphase)
  case isFalse => exact h

/-- How often a timer that does not end the handshake can still run out: a request for more time is
followed by the wait for its answer, and key material goes out twice. -/
def turns (hs : Handshake) : Nat :=
  2 * hs.timers.sendProlongation.isSome.toNat + hs.timers.prolongationReply.isSome.toNat +
    hs.timers.pinPenalty.isSome.toNat +
    (if hs.keyMaterialResent then 1 else 2) * hs.timers.keyMaterial.isSome.toNat

/-- What a turn that does not end the handshake does in so many expiries. -/
structure Outlasts (expiries : Nat) (hs hs' : Handshake) : Prop where
  phase : hs'.phase = hs.phase
  localReady : hs'.helloLocalReady = hs.helloLocalReady
  cmi : hs'.timers.cmi = hs.timers.cmi
  waitForReady : hs'.timers.waitForReady = hs.timers.waitForReady
  wait : hs'.timers.wait = hs.timers.wait
  close : hs'.timers.close = hs.timers.close
  prolongation : hs.timers.sendProlongation.isSome ∨ hs.timers.prolongationReply.isSome →
    hs'.timers.sendProlongation.isSome ∨ hs'.timers.prolongationReply.isSome
  turns : hs'.turns + expiries ≤ hs.turns

theorem Outlasts.refl (hs : Handshake) : Outlasts 0 hs hs :=
  ⟨rfl, rfl, rfl, rfl, rfl, rfl, id, Nat.le_refl _⟩

theorem Outlasts.trans {hs' hs'' : Handshake} {k k' : Nat} (h : Outlasts k hs hs')
    (h' : Outlasts k' hs' hs'') : Outlasts (k + k') hs hs'' where
  phase := h'.phase.trans h.phase
  localReady := h'.localReady.trans h.localReady
  cmi := h'.cmi.trans h.cmi
  waitForReady := h'.waitForReady.trans h.waitForReady
  wait := h'.wait.trans h.wait
  close := h'.close.trans h.close
  prolongation := fun hs => h'.prolongation (h.prolongation hs)
  turns := by
    have hfirst := h.turns
    have hsecond := h'.turns
    omega

theorem Outlasts.attended {hs' : Handshake} {k : Nat} (h : Outlasts k hs hs') (ha : hs.Attended) :
    hs'.Attended := by
  unfold Attended at ha ⊢
  rw [h.phase, h.localReady, h.cmi, h.waitForReady, h.wait, h.close]
  cases hphase : hs.phase with
  | hello =>
    rw [hphase] at ha
    exact ha.imp_right fun hp => ⟨hp.1, h.prolongation hp.2⟩
  | cmi | protocolHandshake | closing => simpa only [hphase] using ha
  | pin | dataExchange | closed | aborted => exact trivial

theorem isSome_of_expired {slot : Option Nat} (h : expired slot now = true) : slot.isSome = true := by
  cases slot with
  | none => cases h
  | some at' => rfl

theorem servePinAndReady_outlasts : (hs.servePinAndReady now).isOver = true ∨
    expired hs.timers.waitForReady now = false ∧
      Outlasts (expired hs.timers.pinPenalty now).toNat hs (hs.servePinAndReady now) := by
  obtain ⟨served, hserved, houtlasts⟩ : ∃ served, (if expired hs.timers.pinPenalty now then
      { hs with timers := { hs.timers with pinPenalty := none }, pinPenaltyUntil := none }.sendPinState
      else hs) = served ∧ Outlasts (expired hs.timers.pinPenalty now).toNat hs served := by
    refine ⟨_, rfl, ?_⟩
    cases hexpired : expired hs.timers.pinPenalty now with
    | false => exact Outlasts.refl hs
    | true =>
      have hsome := isSome_of_expired hexpired
      refine ⟨rfl, rfl, rfl, rfl, rfl, rfl, id, ?_⟩
      simp only [turns, sendPinState, send, hsome, Option.isSome_none, Bool.toNat_false, Bool.toNat_true, if_true]
      omega
  unfold servePinAndReady
  rw [hserved]
  dsimp only
  split
  case isTrue => exact .inl (abort_isOver _)
  case isFalse hrunning =>
    rw [houtlasts.waitForReady, Bool.not_eq_true] at hrunning
    exact .inr ⟨hrunning, houtlasts⟩

theorem serveKeyMaterial_outlasts : (hs.serveKeyMaterial now).isOver = true ∨
    expired hs.timers.waitForReady now = false ∧
      Outlasts ((expired hs.timers.keyMaterial now).toNat + (expired hs.timers.pinPenalty now).toNat)
        hs (hs.serveKeyMaterial now) := by
  -- what is served after the key material, in a state with the same other timers
  have hrest : ∀ {hs' : Handshake}, Outlasts 1 hs hs' →
      hs'.timers.pinPenalty = hs.timers.pinPenalty → (hs'.servePinAndReady now).isOver = true ∨
        expired hs.timers.waitForReady now = false ∧
          Outlasts (1 + (expired hs.timers.pinPenalty now).toNat) hs (hs'.servePinAndReady now) := by
    intro hs' h hpenalty
    have hserved : (hs'.servePinAndReady now).isOver = true ∨ _ := servePinAndReady_outlasts
    rw [h.waitForReady, hpenalty] at hserved
    exact hserved.imp_right (And.imp_right h.trans)
  unfold serveKeyMaterial
  cases hexpired : expired hs.timers.keyMaterial now with
  | false =>
    simp only [Bool.false_eq_true, if_false, Bool.toNat_false, Nat.zero_add]
    exact servePinAndReady_outlasts
  | true =>
    have hsome := isSome_of_expired hexpired
    simp only [if_true, Bool.toNat_true]
    split
    case isTrue => exact .inl (abort_isOver _)
    case isFalse hfirst =>
      split
      · refine hrest ⟨rfl, rfl, rfl, rfl, rfl, rfl, id, ?_⟩ rfl
        simp [turns, send, hsome, hfirst]
      · refine hrest ⟨rfl, rfl, rfl, rfl, rfl, rfl, id, ?_⟩ rfl
        simp [turns, hsome, hfirst]

theorem sendProlongation_outlasts : ∃ asked, (if expired hs.timers.sendProlongation now then
    { hs with timers := { hs.timers with sendProlongation := none } }.sendProlongationRequest now
    else hs) = asked ∧ Outlasts (expired hs.timers.sendProlongation now).toNat hs asked ∧
      asked.timers.keyMaterial = hs.timers.keyMaterial ∧
      asked.timers.pinPenalty = hs.timers.pinPenalty ∧
      (expired hs.timers.sendProlongation now = false →
        asked.timers.prolongationReply = hs.timers.prolongationReply) := by
  refine ⟨_, rfl, ?_⟩
  cases hexpired : expired hs.timers.sendProlongation now with
  | false => exact ⟨Outlasts.refl hs, rfl, rfl, fun _ => rfl⟩
  | true =>
    have hsome := isSome_of_expired hexpired
    refine ⟨⟨rfl, rfl, rfl, rfl, rfl, rfl, fun _ => .inr rfl, ?_⟩, rfl, rfl, nofun⟩
    simp only [turns, sendProlongationRequest, send, hsome, if_true, Option.isSome_none,
      Option.isSome_some, Bool.toNat_true, Bool.toNat_false]
    omega

theorem serveTimers_outlasts : (hs.serveTimers now).isOver = true ∨
    (expired hs.timers.cmi now = false ∧ expired hs.timers.wait now = false ∧
      (expired hs.timers.sendProlongation now = false →
        expired hs.timers.prolongationReply now = false) ∧
      expired hs.timers.close now = false ∧ expired hs.timers.waitForReady now = false) ∧
    Outlasts ((expired hs.timers.sendProlongation now).toNat +
        ((expired hs.timers.keyMaterial now).toNat + (expired hs.timers.pinPenalty now).toNat))
      hs (hs.serveTimers now) := by
  obtain ⟨asked, hasked, houtlasts, hkeys, hpenalty, hreply⟩ : ∃ asked, _ = asked ∧ _ :=
    sendProlongation_outlasts
  unfold serveTimers
  rw [hasked]
  dsimp only
  split
  case isTrue => exact .inl (abort_isOver _)
  case isFalse hcmi =>
  split
  case isTrue => exact .inl (abort_isOver _)
  case isFalse hwait =>
  split
  case isTrue => exact .inl (abort_isOver _)
  case isFalse hanswer =>
  split
  case isTrue => exact .inl (finish_isOver _)
  case isFalse hclose =>
    rw [Bool.not_eq_true] at hcmi hwait hanswer hclose
    rw [houtlasts.close] at hclose
    have hserved : (asked.serveKeyMaterial now).isOver = true ∨ _ := serveKeyMaterial_outlasts
    rw [houtlasts.waitForReady, hkeys, hpenalty] at hserved
    refine hserved.imp_right fun hrest => ?_
    exact ⟨⟨hcmi, hwait, fun h => hreply h ▸ hanswer, hclose, hrest.1⟩, houtlasts.trans hrest.2⟩

theorem attended_handleTimeout (h : hs.Attended) : ((hs.handleTimeout now).getD hs).Attended := by
  unfold handleTimeout
  split
  · exact h
  · have hserved : (hs.serveTimers now).isOver = true ∨ _ := serveTimers_outlasts
    cases hserved with
    | inl hover => exact attended_of_isOver hover
    | inr hserved => exact hserved.2.attended h

/-- The next deadline passes, and nothing else happens. -/
def waitOut (hs : Handshake) : Handshake :=
  match hs.pollTimeout with
  | some at' => (hs.handleTimeout at').getD hs
  | none => hs

def hasToEnd (hs : Handshake) : Bool :=
  match hs.phase with
  | .cmi | .hello | .protocolHandshake | .closing => true
  | _ => false

theorem pollTimeout_eq_some {at' : Nat} (h : hs.pollTimeout = some at') :
    some at' ∈ [hs.timers.cmi, hs.timers.waitForReady, hs.timers.sendProlongation,
      hs.timers.prolongationReply, hs.timers.wait, hs.timers.pinPenalty, hs.timers.close,
      hs.timers.keyMaterial] := by
  obtain ⟨slot, hslot, rfl⟩ := List.mem_filterMap.mp (List.min?_mem h)
  exact hslot

theorem pollTimeout_isSome (h : hs.Attended) (hphase : hs.hasToEnd = true) :
    hs.pollTimeout.isSome = true := by
  have hruns : ∀ slot ∈ [hs.timers.cmi, hs.timers.waitForReady, hs.timers.sendProlongation,
      hs.timers.prolongationReply, hs.timers.wait, hs.timers.pinPenalty, hs.timers.close,
      hs.timers.keyMaterial], slot.isSome = true → hs.pollTimeout.isSome = true := by
    intro slot hslot hsome
    obtain ⟨at', rfl⟩ := Option.isSome_iff_exists.mp hsome
    exact List.isSome_min?_of_mem (List.mem_filterMap.mpr ⟨some at', hslot, rfl⟩)
  unfold Attended at h
  unfold hasToEnd at hphase
  cases hp : hs.phase with
  | cmi => exact hruns hs.timers.cmi (by simp) (by simpa only [hp] using h)
  | hello =>
    rw [hp] at h
    rcases h with hready | ⟨-, hasks | hreply⟩
    · exact hruns _ (by simp) hready
    · exact hruns _ (by simp) hasks
    · exact hruns _ (by simp) hreply
  | protocolHandshake => exact hruns hs.timers.wait (by simp) (by simpa only [hp] using h)
  | closing => exact hruns hs.timers.close (by simp) (by simpa only [hp] using h)
  | pin | dataExchange | closed | aborted => simp [hp] at hphase

theorem waitOut_ends (h : hs.Attended ∧ hs.hasToEnd = true) (hrunning : ¬hs.isOver = true) :
    hs.waitOut.isOver = true ∨
      (hs.waitOut.Attended ∧ hs.waitOut.hasToEnd = true) ∧ hs.waitOut.turns < hs.turns := by
  obtain ⟨at', hat⟩ := Option.isSome_iff_exists.mp (pollTimeout_isSome h.1 h.2)
  have hturn : hs.waitOut = hs.serveTimers at' := by
    simp only [waitOut, hat, handleTimeout, hrunning, Bool.false_eq_true, if_false, Option.getD_some]
  rw [hturn]
  have hserved : (hs.serveTimers at').isOver = true ∨ _ := serveTimers_outlasts
  refine hserved.imp_right fun ⟨⟨hcmi, hwait, hreply, hclose, hready⟩, houtlasts⟩ => ?_
  have hdue : ∀ {slot : Option Nat}, some at' = slot → expired slot at' = true := by
    rintro _ rfl
    simp [expired]
  refine ⟨⟨houtlasts.attended h.1, by rw [hasToEnd, houtlasts.phase]; exact h.2⟩, ?_⟩
  have hless := houtlasts.turns
  cases hasks : expired hs.timers.sendProlongation at' with
  | true => rw [hasks, Bool.toNat_true] at hless; omega
  | false =>
  cases hkeys : expired hs.timers.keyMaterial at' with
  | true => rw [hkeys, Bool.toNat_true] at hless; omega
  | false =>
  cases hpenalty : expired hs.timers.pinPenalty at' with
  | true => rw [hpenalty, Bool.toNat_true] at hless; omega
  | false =>
    -- then nothing would be due
    have hnone := pollTimeout_eq_some hat
    simp only [List.mem_cons, List.not_mem_nil, or_false] at hnone
    rcases hnone with hd | hd | hd | hd | hd | hd | hd | hd
    all_goals
      have htrue := hdue hd
      simp_all

theorem attended_new (role : Role) (config : HandshakeConfig) (trust : Trust) :
    (new role config trust now).Attended := rfl

theorem attended_step (h : hs.Attended) {op : HandshakeOp} (hspares : hs.Spares op) :
    (handshake.next hs op).Attended := by
  cases op with
  | handleMessage message now => exact attended_handleMessage h hspares
  | handleTimeout now => exact attended_handleTimeout h
  | setTrust trust now => exact attended_setTrust h trust
  | close reason maxTime now => exact attended_close h reason maxTime
  | sendPin pin => exact attended_sendPinIfPermitted h
  | sendPinIfPermitted => exact attended_sendPinIfPermitted h
  | sendKeyMaterial now => exact attended_sendKeyMaterial h
  | requestKeyMaterial known => exact attended_requestKeyMaterial h known
  | requestAccessMethods => exact attended_requestAccessMethods h
  | pollTransmit => exact h
  | pollEvent => exact h

end Handshake

/-- In every run in which no message takes the last timer away: a handshake that is neither in data
exchange nor over has a deadline, and left alone from one deadline to the next it ends. -/
theorem no_handshake_waits_for_ever (role : Role) (config : HandshakeConfig) (trust : Trust)
    (start : Nat) (ops : List HandshakeOp)
    (h : handshake.Admits Handshake.Spares (.new role config trust start) ops)
    (hphase : (handshake.run (.new role config trust start) ops).hasToEnd = true) :
    (handshake.run (.new role config trust start) ops).pollTimeout.isSome = true ∧
      ∃ n, (Handshake.waitOut^[n] (handshake.run (.new role config trust start) ops)).isOver = true := by
  have hattended := handshake.run_invariant _ Handshake.Attended
    (fun _ _ h hspares => Handshake.attended_step h hspares) ops _
    (Handshake.attended_new role config trust) h
  exact ⟨Handshake.pollTimeout_isSome hattended hphase,
    iterate_reaches (P := fun hs => hs.Attended ∧ hs.hasToEnd = true) Handshake.turns
      (fun _ h hrunning => Handshake.waitOut_ends h hrunning) ⟨hattended, hphase⟩⟩

instance (hs : Handshake) (hello : ConnectionHello) : Decidable (hs.Strands hello) :=
  inferInstanceAs (Decidable (_ ∧ _))

instance (hs : Handshake) : ∀ op, Decidable (hs.Spares op)
  | .handleMessage (.control (.connectionHello hello)) _ =>
    inferInstanceAs (Decidable (¬hs.Strands hello))
  | .handleMessage (.control (.connectionPinState state)) _ =>
    inferInstanceAs (Decidable (_ → state.pinState = none))
  | .handleMessage (.control (.messageProtocolHandshake _)) _
  | .handleMessage (.control (.messageProtocolHandshakeError _)) _
  | .handleMessage (.control (.connectionPinInput _)) _
  | .handleMessage (.control (.connectionPinError _)) _
  | .handleMessage (.control .accessMethodsRequest) _
  | .handleMessage (.control (.accessMethods _)) _
  | .handleMessage (.control (.keyMaterialState _)) _
  | .handleMessage (.control (.keyMaterialStateResponse _)) _
  | .handleMessage (.control (.keyMaterialStateRequest _)) _
  | .handleMessage (.control .commissioning) _
  | .handleMessage .cmi _ | .handleMessage (.connectionClose _) _ | .handleMessage .data _
  | .handleTimeout _ | .setTrust _ _ | .close _ _ _ | .sendPin _ | .sendPinIfPermitted
  | .sendKeyMaterial _ | .requestKeyMaterial _ | .requestAccessMethods | .pollTransmit
  | .pollEvent => .isTrue trivial

/-- A peer that says it is ready and waits this long. -/
def readyFor (seconds : Nat) : HandshakeOp :=
  .handleMessage (.control (.connectionHello
    { phase := some .ready, waiting := some (seconds * 1000) })) (fromSecs 1)

def cmiReceived : HandshakeOp := .handleMessage .cmi (fromSecs 1)

def strangerAtTheDoor : Handshake := .new .server {} .pending 0

/-- A peer that waits two minutes is asked for more time, and not answering ends the handshake. -/
theorem no_handshake_waits_for_ever_asking :
    (handshake.run strangerAtTheDoor [cmiReceived, readyFor 120]).pollTimeout.isSome = true ∧
      ∃ n, (Handshake.waitOut^[n]
        (handshake.run strangerAtTheDoor [cmiReceived, readyFor 120])).isOver = true :=
  no_handshake_waits_for_ever .server {} .pending 0 [cmiReceived, readyFor 120] (by decide)
    (by decide)

theorem stranded_for_good {hs : Handshake} (hnone : hs.pollTimeout = none)
    (hrunning : hs.isOver = false) (n : Nat) : (Handshake.waitOut^[n] hs).isOver = false := by
  have hfixed : hs.waitOut = hs := by simp only [Handshake.waitOut, hnone]
  rw [Function.iterate_fixed hfixed, hrunning]

/-- A trusted peer sends its PIN requirement before the protocol handshake. -/
def pinStateEarly : List HandshakeOp :=
  [cmiReceived, .setTrust (.trusted ⟨32, 0, 0⟩) (fromSecs 1), readyFor 120,
    .handleMessage (.control (.connectionPinState ⟨some .none, none⟩)) (fromSecs 2)]

/-- Neither an early PIN requirement nor a peer that waits for ten seconds leaves a timer running. -/
theorem stranded_handshakes :
    ((handshake.run strangerAtTheDoor pinStateEarly).phase = .protocolHandshake ∧
      (handshake.run strangerAtTheDoor pinStateEarly).pollTimeout = none ∧
      ∀ n, (Handshake.waitOut^[n] (handshake.run strangerAtTheDoor pinStateEarly)).isOver = false) ∧
    (handshake.run strangerAtTheDoor [cmiReceived, readyFor 10]).phase = .hello ∧
      (handshake.run strangerAtTheDoor [cmiReceived, readyFor 10]).pollTimeout = none ∧
      ∀ n, (Handshake.waitOut^[n]
        (handshake.run strangerAtTheDoor [cmiReceived, readyFor 10])).isOver = false :=
  ⟨⟨by decide, by decide, stranded_for_good (by decide) (by decide)⟩, by decide, by decide,
    stranded_for_good (by decide) (by decide)⟩

end Eebus.Ship
