import Eebus.Ship.Handshake

/-!
Safety of the SHIP data phase. The facts that have to hold before data is exchanged lie in a few
fields of the handshake, its core; most operations leave the core alone, and the rest move it
through the phases in order.
-/

namespace Eebus.Ship

open Eebus.Library

structure Core where
  phase : Phase
  trust : Trust
  cmiSent : Bool
  cmiReceived : Bool
  localReady : Bool
  remoteReady : Bool
  proposed : Bool
  negotiated : Bool
  requirement : PinRequirement
  pinState : PinState

def Handshake.core (hs : Handshake) : Core where
  phase := hs.phase
  trust := hs.trust
  cmiSent := hs.cmiSent
  cmiReceived := hs.cmiReceived
  localReady := hs.helloLocalReady
  remoteReady := hs.helloRemoteReady
  proposed := hs.proposed.isSome
  negotiated := hs.negotiated.isSome
  requirement := hs.config.pin
  pinState := hs.localPinState

def Trust.permits (trust : Trust) : Bool := trust.level.permitsCommunication

/-- Both sides have said hello, to a peer this node trusts enough to talk to. -/
def Core.Greeted (c : Core) : Prop :=
  c.cmiReceived = true ∧ c.trust.permits = true ∧ c.localReady = true ∧ c.remoteReady = true

def Core.Stage (c : Core) : Prop :=
  match c.phase with
  | .cmi => c.localReady = false ∧ c.remoteReady = false
  | .hello => c.cmiReceived = true ∧
    (c.localReady = true → c.trust.permits = true ∧ c.remoteReady = false)
  | .protocolHandshake => c.Greeted
  | .pin => c.Greeted ∧ c.negotiated = true
  | .dataExchange | .closing => c.Greeted ∧ c.negotiated = true ∧ c.pinState ≠ .required
  | .closed | .aborted => True

structure Core.Basis (c : Core) : Prop where
  sent : c.cmiSent = true
  proposed : c.proposed = true → c.negotiated = true
  pin : ∀ p, c.requirement = .required p → c.pinState = .required ∨ c.pinState = .pinOk

def Core.Sound (c : Core) : Prop := c.Basis ∧ c.Stage

namespace Handshake

variable {hs : Handshake} {now : Nat}

@[simp] theorem send_core (message : ShipMessage) : (hs.send message).core = hs.core := rfl
@[simp] theorem report_core (event : HandshakeEvent) : (hs.report event).core = hs.core := rfl

@[simp] theorem armProlongation_core : (hs.armProlongation now).core = hs.core := by
  unfold armProlongation
  dsimp only
  repeat' split
  all_goals rfl

@[simp] theorem announceHelloAs_core (phase : ConnectionHelloPhase) :
    (hs.announceHelloAs phase now).core = hs.core := by
  rw [announceHelloAs, armProlongation_core]
  rfl

theorem sound_abort (h : hs.core.Sound) (reason : AbortReason) : (hs.abort reason).core.Sound := by
  unfold abort
  split
  · exact h
  · exact ⟨⟨h.1.sent, h.1.proposed, h.1.pin⟩, trivial⟩

theorem sound_finish (h : hs.core.Sound) (reason : AbortReason) :
    (hs.finish reason).core.Sound := by
  unfold finish
  split
  · exact h
  · exact ⟨⟨h.1.sent, h.1.proposed, h.1.pin⟩, trivial⟩

/-- This node has said its hello; whether the peer's makes it complete is still to be seen. -/
def Announced (c : Core) : Prop :=
  c.Basis ∧
    ((c.phase = .hello ∧ c.cmiReceived = true ∧ (c.localReady = true → c.trust.permits = true)) ∨
      (c.phase = .aborted ∧ (c.localReady = true → c.remoteReady = false)))

theorem enterProtocolHandshake_core :
    (hs.enterProtocolHandshake now).core = { hs.core with phase := .protocolHandshake } := by
  unfold enterProtocolHandshake
  dsimp only
  split <;> rfl

theorem sound_tryFinishHello (h : Announced hs.core) : (hs.tryFinishHello now).core.Sound := by
  obtain ⟨hbasis, hstage⟩ := h
  unfold tryFinishHello
  split
  case isTrue hboth =>
    rw [Bool.and_eq_true] at hboth
    rcases hstage with ⟨-, hreceived, hpermits⟩ | ⟨-, hnot⟩
    · rw [enterProtocolHandshake_core]
      exact ⟨⟨hbasis.sent, hbasis.proposed, hbasis.pin⟩, hreceived, hpermits hboth.1, hboth⟩
    · have hremote : hs.helloRemoteReady = false := hnot hboth.1
      simp [hremote] at hboth
  case isFalse hboth =>
    refine ⟨hbasis, ?_⟩
    rcases hstage with ⟨hphase, hreceived, hpermits⟩ | ⟨hphase, -⟩
    · rw [Core.Stage, hphase]
      refine ⟨hreceived, fun hlocal => ⟨hpermits hlocal, ?_⟩⟩
      have hlocal' : hs.helloLocalReady = true := hlocal
      rw [hlocal', Bool.true_and] at hboth
      exact Bool.eq_false_iff.mpr hboth
    · rw [Core.Stage, hphase]
      trivial

theorem refuseHello_core (h : hs.phase = .hello) :
    hs.refuseHello.core = { hs.core with phase := .aborted } := by
  simp [refuseHello, abort, isOver, send, report, core, h]

theorem announced_announceHello (hphase : hs.phase = .hello) (hbasis : hs.core.Basis)
    (hreceived : hs.cmiReceived = true)
    (hpending : hs.trust = .pending → hs.helloLocalReady = false)
    (hremote : hs.helloLocalReady = true → hs.helloRemoteReady = false) :
    Announced (hs.announceHello now).core := by
  have hrefuse : Announced hs.refuseHello.core := by
    rw [refuseHello_core hphase]
    exact ⟨⟨hbasis.sent, hbasis.proposed, hbasis.pin⟩, Or.inr ⟨rfl, hremote⟩⟩
  unfold announceHello
  split
  case h_1 level ht =>
    split
    case isTrue hlow => exact hrefuse
    case isFalse hlow =>
      rw [announceHelloAs_core]
      refine ⟨⟨hbasis.sent, hbasis.proposed, hbasis.pin⟩, Or.inl ⟨hphase, hreceived, fun _ => ?_⟩⟩
      simpa [core, ht, Trust.permits, Trust.level] using hlow
  case h_2 ht =>
    dsimp only
    rw [announceHelloAs_core]
    have hlocal : hs.core.localReady = true → hs.core.trust.permits = true := by
      simp [core, hpending ht]
    split
    · exact ⟨hbasis, Or.inl ⟨hphase, hreceived, hlocal⟩⟩
    · exact ⟨hbasis, Or.inl ⟨hphase, hreceived, hlocal⟩⟩
  case h_3 ht => exact hrefuse

theorem abort_remoteReady (reason : AbortReason) :
    (hs.abort reason).helloRemoteReady = hs.helloRemoteReady := by
  unfold abort
  split <;> rfl

theorem announceHello_remoteReady :
    (hs.announceHello now).helloRemoteReady = hs.helloRemoteReady := by
  have has : ∀ (hs : Handshake) (phase : ConnectionHelloPhase),
      (hs.announceHelloAs phase now).helloRemoteReady = hs.helloRemoteReady := fun hs phase =>
    congrArg Core.remoteReady (announceHelloAs_core phase)
  unfold announceHello
  split
  · split
    · exact abort_remoteReady _
    · exact has _ _
  · dsimp only
    rw [has]
    split <;> rfl
  · exact abort_remoteReady _

theorem sound_announceHello (h : Announced (hs.announceHello now).core)
    (hremote : hs.helloRemoteReady = false) : (hs.announceHello now).core.Sound := by
  have hsame : (hs.announceHello now).tryFinishHello now = hs.announceHello now := by
    simp [tryFinishHello, announceHello_remoteReady, hremote]
  rw [← hsame]
  exact sound_tryFinishHello h

theorem sound_onCmi (h : hs.core.Sound) : (hs.onCmi now).core.Sound := by
  obtain ⟨hbasis, hstage⟩ := h
  unfold onCmi
  split
  case isTrue => exact sound_abort ⟨hbasis, hstage⟩ _
  case isFalse hphase =>
    rw [not_not] at hphase
    have hsent : hs.cmiSent = true := hbasis.sent
    obtain ⟨hlocal, hremote⟩ : hs.helloLocalReady = false ∧ hs.helloRemoteReady = false := by
      simpa [Core.Stage, core, hphase] using hstage
    simp only [hsent, Bool.and_self, if_true, enterHello]
    refine sound_announceHello (announced_announceHello rfl ⟨rfl, hbasis.proposed, hbasis.pin⟩ rfl
      (fun _ => hlocal) (by simp [hlocal])) hremote

theorem continueHello_core (hello : ConnectionHello) :
    (hs.continueHello hello now).core = hs.core := by
  unfold continueHello
  dsimp only
  split
  · split
    · rw [armProlongation_core]
      rfl
    · rfl
  · split
    · exact armProlongation_core
    · rfl

theorem noteHello_core (hello : ConnectionHello) : (hs.noteHello hello now).core = hs.core := by
  unfold noteHello
  dsimp only
  repeat' split
  all_goals rfl

theorem sound_onHello (h : hs.core.Sound) (hello : ConnectionHello) :
    (hs.onHello hello now).core.Sound := by
  unfold onHello
  split
  case isTrue => exact h
  case isFalse hphase =>
    rw [not_not] at hphase
    dsimp only
    have hnote : (hs.noteHello hello now).core = hs.core := noteHello_core hello
    generalize hs.noteHello hello now = hs' at hnote ⊢
    rw [← hnote] at h
    have hphase' : hs'.phase = .hello := (congrArg Core.phase hnote).trans hphase
    obtain ⟨hbasis, hstage⟩ := h
    have hstage' : hs'.cmiReceived = true ∧ (hs'.helloLocalReady = true →
        hs'.trust.permits = true ∧ hs'.helloRemoteReady = false) := by
      simpa [Core.Stage, core, hphase'] using hstage
    split
    · split
      · exact sound_abort ⟨hbasis, hstage⟩ _
      · rw [continueHello_core]
        refine sound_tryFinishHello ⟨⟨hbasis.sent, hbasis.proposed, hbasis.pin⟩,
          Or.inl ⟨hphase', hstage'.1, fun hl => (hstage'.2 hl).1⟩⟩
    · rw [continueHello_core]
      have hpending : { hs' with helloRemoteReady := false }.core.Sound := by
        refine ⟨⟨hbasis.sent, hbasis.proposed, hbasis.pin⟩, ?_⟩
        simp only [Core.Stage, core, hphase']
        exact ⟨hstage'.1, fun hl => ⟨(hstage'.2 hl).1, trivial⟩⟩
      split <;> exact hpending
    · exact sound_abort ⟨hbasis, hstage⟩ _
    · exact sound_abort ⟨hbasis, hstage⟩ _

theorem sound_failProtocol (h : hs.core.Sound) (error : Nat) (reason : AbortReason) :
    (hs.failProtocol error reason).core.Sound := by
  refine sound_abort ?_ reason
  unfold sendProtocolError
  split <;> exact h

theorem sound_proposeProtocol (hphase : hs.phase = .protocolHandshake) (h : hs.core.Sound)
    (msg : MessageProtocolHandshake) : (hs.proposeProtocol msg now).core.Sound := by
  unfold proposeProtocol
  split
  · exact sound_failProtocol h 2 _
  · split
    · obtain ⟨hbasis, hstage⟩ := h
      have hgreeted : hs.core.Greeted := by
        simpa [Core.Stage, core, hphase] using hstage
      refine ⟨⟨hbasis.sent, fun _ => rfl, hbasis.pin⟩, ?_⟩
      simp only [Core.Stage, core, send, hphase]
      exact hgreeted
    · exact sound_failProtocol h 3 _

theorem sound_enterPin (hbasis : hs.core.Basis) (hgreeted : hs.core.Greeted)
    (hnegotiated : hs.negotiated.isSome = true) : (hs.enterPin now).core.Sound :=
  ⟨⟨hbasis.sent, hbasis.proposed, hbasis.pin⟩, hgreeted, hnegotiated⟩

theorem sound_confirmProtocol (hphase : hs.phase = .protocolHandshake) (h : hs.core.Sound)
    (msg : MessageProtocolHandshake) : (hs.confirmProtocol msg now).core.Sound := by
  unfold confirmProtocol
  split
  · exact sound_failProtocol h 2 _
  · split
    · split
      · exact sound_failProtocol h 3 _
      · obtain ⟨hbasis, hstage⟩ := h
        have hgreeted : hs.core.Greeted := by
          simpa [Core.Stage, core, hphase] using hstage
        exact sound_enterPin ⟨hbasis.sent, fun _ => rfl, hbasis.pin⟩ hgreeted rfl
    · exact sound_failProtocol h 3 _

theorem sound_onProtocolHandshake (h : hs.core.Sound) (msg : MessageProtocolHandshake) :
    (hs.onProtocolHandshake msg now).core.Sound := by
  unfold onProtocolHandshake
  split
  case isTrue => exact sound_abort h _
  case isFalse hphase =>
    rw [not_not] at hphase
    dsimp only
    have hgreeted : hs.core.Greeted := by
      simpa [Core.Stage, core, hphase] using h.2
    split
    · split
      case isTrue => exact sound_proposeProtocol (by exact hphase) (by exact h) msg
      case isFalse hproposed =>
        split
        · exact sound_failProtocol (by exact h) 3 _
        · refine sound_enterPin h.1 hgreeted (h.1.proposed ?_)
          exact Option.isSome_iff_ne_none.mpr hproposed
    · exact sound_confirmProtocol (by exact hphase) (by exact h) msg

theorem sound_tryFinishPin (h : hs.core.Sound) : hs.tryFinishPin.core.Sound := by
  unfold tryFinishPin
  split
  case isTrue => exact h
  case isFalse hphase =>
    rw [not_not] at hphase
    split
    case isTrue hdone =>
      obtain ⟨hbasis, hstage⟩ := h
      have hstage' : hs.core.Greeted ∧ hs.core.negotiated = true := by
        simpa [Core.Stage, core, hphase] using hstage
      have hready : { hs with phase := .dataExchange }.core.Sound :=
        ⟨⟨hbasis.sent, hbasis.proposed, hbasis.pin⟩, hstage'.1, hstage'.2, hdone.1⟩
      dsimp only
      split <;> exact hready
    case isFalse => exact h

theorem sendPinIfPermitted_core : hs.sendPinIfPermitted.1.core = hs.core := by
  unfold sendPinIfPermitted
  repeat' split
  all_goals rfl

theorem sound_onPinState (h : hs.core.Sound) (state : ConnectionPinState) :
    (hs.onPinState state).core.Sound := by
  unfold onPinState
  split
  · exact sound_abort h _
  · dsimp only
    refine sound_tryFinishPin ?_
    split
    · rw [sendPinIfPermitted_core]
      exact h
    · exact h

theorem sound_onPinInput (h : hs.core.Sound) (input : Option String) :
    (hs.onPinInput input now).core.Sound := by
  unfold onPinInput
  split
  · exact h
  · split
    · refine sound_tryFinishPin ⟨⟨h.1.sent, h.1.proposed, fun _ _ => Or.inr rfl⟩, ?_⟩
      have hstage := h.2
      cases hphase : hs.phase <;> simp_all [Core.Stage, core, send, report, Core.Greeted]
    · dsimp only
      split <;> exact h

theorem sendKeyMaterial_core : (hs.sendKeyMaterial now).core = hs.core := by
  unfold sendKeyMaterial
  repeat' split
  all_goals rfl

theorem sound_onControl (h : hs.core.Sound) (control : ControlMessage) :
    (hs.onControl control now).core.Sound := by
  cases control with
  | connectionHello hello => exact sound_onHello h hello
  | messageProtocolHandshake msg => exact sound_onProtocolHandshake h msg
  | messageProtocolHandshakeError error => exact sound_abort h _
  | connectionPinState state => exact sound_onPinState h state
  | connectionPinInput pin => exact sound_onPinInput h pin
  | keyMaterialStateRequest known =>
    simp only [onControl, onKeyMaterialStateRequest, report_core]
    split
    · rw [sendKeyMaterial_core]
      exact h
    · exact h
  | _ => exact h

theorem sound_servePinAndReady (h : hs.core.Sound) : (hs.servePinAndReady now).core.Sound := by
  unfold servePinAndReady
  dsimp only
  split <;> split
  · exact sound_abort (by exact h) _
  · exact h
  · exact sound_abort (by exact h) _
  · exact h

theorem sound_serveKeyMaterial (h : hs.core.Sound) : (hs.serveKeyMaterial now).core.Sound := by
  unfold serveKeyMaterial
  split
  · dsimp only
    split
    · exact sound_abort (by exact h) _
    · split
      · exact sound_servePinAndReady (by exact h)
      · exact sound_servePinAndReady (by exact h)
  · exact sound_servePinAndReady (by exact h)

theorem sound_serveTimers (h : hs.core.Sound) : (hs.serveTimers now).core.Sound := by
  unfold serveTimers
  split
  · exact sound_abort (by exact h) _
  · split
    · exact sound_failProtocol (by exact h) 1 _
    · dsimp only
      split <;> split
      · exact sound_abort (by exact h) _
      · split
        · exact sound_finish (by exact h) _
        · exact sound_serveKeyMaterial (by exact h)
      · exact sound_abort (by exact h) _
      · split
        · exact sound_finish (by exact h) _
        · exact sound_serveKeyMaterial (by exact h)

end Handshake

/-- A call that neither announces a close before data is exchanged nor takes back a trust the
handshake has built on. -/
def Guarded (hs : Handshake) : HandshakeOp → Prop
  | .close _ _ _ => hs.phase = .dataExchange ∨ hs.phase = .closing ∨ hs.isOver = true
  | .setTrust trust _ =>
    match hs.phase with
    | .cmi | .closed | .aborted => True
    | .hello => trust = .pending → hs.helloLocalReady = false
    | _ => trust.permits = true
  | _ => True

namespace Handshake

variable {hs : Handshake} {now : Nat}

theorem sound_setTrust (h : hs.core.Sound) (trust : Trust)
    (hguard : Guarded hs (.setTrust trust now)) :
    ((hs.setTrust trust now).getD hs).core.Sound := by
  obtain ⟨hbasis, hstage⟩ := h
  unfold setTrust
  split
  case isTrue => exact ⟨hbasis, hstage⟩
  case isFalse =>
    dsimp only
    split
    case isTrue hphase =>
      have hstage' : hs.cmiReceived = true ∧ (hs.helloLocalReady = true →
          hs.trust.permits = true ∧ hs.helloRemoteReady = false) := by
        simpa [Core.Stage, core, hphase] using hstage
      exact sound_tryFinishHello (announced_announceHello hphase
        ⟨hbasis.sent, hbasis.proposed, hbasis.pin⟩ hstage'.1 (by simpa [Guarded, hphase] using hguard)
        fun hl => (hstage'.2 hl).2)
    case isFalse hphase =>
      refine ⟨⟨hbasis.sent, hbasis.proposed, hbasis.pin⟩, ?_⟩
      cases hp : hs.phase <;> simp_all [Core.Stage, core, Core.Greeted, Guarded]

end Handshake

theorem sound_step (hs : Handshake) (op : HandshakeOp) (h : hs.core.Sound)
    (hguard : Guarded hs op) : (handshake.next hs op).core.Sound := by
  cases op with
  | handleMessage message now =>
    simp only [Machine.next, handshake, Handshake.handleMessage]
    split
    · exact h
    · cases message with
      | cmi => exact Handshake.sound_onCmi h
      | control control => exact Handshake.sound_onControl h control
      | data =>
        dsimp only [Option.getD_some]
        split
        · exact h
        · exact Handshake.sound_abort h _
      | connectionClose close =>
        dsimp only [Option.getD_some, Handshake.onClose]
        split
        · exact Handshake.sound_finish (by exact h) _
        · exact Handshake.sound_finish h _
        · exact Handshake.sound_abort h _
  | handleTimeout now =>
    simp only [Machine.next, handshake, Handshake.handleTimeout]
    split
    · exact h
    · exact Handshake.sound_serveTimers h
  | setTrust trust now => exact Handshake.sound_setTrust h trust hguard
  | close reason maxTime now =>
    simp only [Machine.next, handshake, Handshake.close]
    split
    · exact h
    case isFalse hrunning =>
      have hphase : hs.phase = .dataExchange := by
        rcases hguard with hp | hp | hp
        · exact hp
        · simp [hp] at hrunning
        · cases hs' : hs.phase <;> simp_all [Handshake.isOver]
      have hstage : hs.core.Greeted ∧ hs.core.negotiated = true ∧ hs.core.pinState ≠ .required := by
        simpa [Core.Stage, Handshake.core, hphase] using h.2
      exact ⟨⟨h.1.sent, h.1.proposed, h.1.pin⟩, hstage⟩
  | sendPin pin =>
    have hcore : (hs.sendPin pin).1.core = hs.core := Handshake.sendPinIfPermitted_core
    simpa [Machine.next, handshake, hcore] using h
  | sendPinIfPermitted =>
    have hcore : hs.sendPinIfPermitted.1.core = hs.core := Handshake.sendPinIfPermitted_core
    simpa [Machine.next, handshake, hcore] using h
  | sendKeyMaterial now =>
    have hcore : (hs.sendKeyMaterial now).core = hs.core := Handshake.sendKeyMaterial_core
    simpa [Machine.next, handshake, hcore] using h
  | requestKeyMaterial known =>
    simp only [Machine.next, handshake, Handshake.requestKeyMaterial]
    split <;> exact h
  | requestAccessMethods =>
    simp only [Machine.next, handshake, Handshake.requestAccessMethods]
    split <;> exact h
  | pollTransmit => exact h
  | pollEvent => exact h

/-- The five facts a connection rests on while data may be exchanged. -/
structure DataPhaseSafe (hs : Handshake) : Prop where
  cmi : hs.cmiSent = true ∧ hs.cmiReceived = true
  trust : hs.trust.level.permitsCommunication = true
  hello : hs.helloLocalReady = true ∧ hs.helloRemoteReady = true
  negotiated : hs.negotiated.isSome = true
  pin : ∀ p, hs.config.pin = .required p → hs.localPinState = .pinOk

theorem dataPhaseSafe_of_sound {hs : Handshake} (h : hs.core.Sound)
    (hready : hs.isReadyForData = true) : DataPhaseSafe hs := by
  have hstage : hs.core.Greeted ∧ hs.core.negotiated = true ∧ hs.core.pinState ≠ .required := by
    have hphase : hs.phase = .dataExchange ∨ hs.phase = .closing := by
      cases hp : hs.phase <;> simp_all [Handshake.isReadyForData]
    rcases hphase with hp | hp <;> simpa [Core.Stage, Handshake.core, hp] using h.2
  obtain ⟨⟨hreceived, htrust, hgreeted⟩, hnegotiated, hpin⟩ := hstage
  exact ⟨⟨h.1.sent, hreceived⟩, htrust, hgreeted, hnegotiated,
    fun p hp => (h.1.pin p hp).resolve_left hpin⟩

theorem sound_new (role : Role) (config : HandshakeConfig) (trust : Trust) (now : Nat) :
    (Handshake.new role config trust now).core.Sound := by
  refine ⟨⟨rfl, by simp [Handshake.core, Handshake.new], fun p hp => Or.inl ?_⟩, rfl, rfl⟩
  simp only [Handshake.core, Handshake.new] at hp ⊢
  rw [hp]
  rfl

/-- In every run that announces a close only out of the data phase and takes back no trust the
handshake has built on, data is exchanged only with all five facts established. -/
theorem data_phase_safe (role : Role) (config : HandshakeConfig) (trust : Trust) (now : Nat)
    (ops : List HandshakeOp)
    (hguarded : handshake.Admits Guarded (Handshake.new role config trust now) ops) :
    ∀ reached, reached <+: ops →
      (handshake.run (Handshake.new role config trust now) reached).isReadyForData = true →
      DataPhaseSafe (handshake.run (Handshake.new role config trust now) reached) := by
  intro reached hprefix hready
  refine dataPhaseSafe_of_sound ?_ hready
  exact handshake.run_invariant Guarded (fun hs => hs.core.Sound) (fun hs op => sound_step hs op)
    reached _ (sound_new role config trust now) (handshake.admits_prefix hguarded hprefix)

/-- A server that requires a PIN, through all phases into data exchange and out again. -/
theorem data_phase_safe_server :
    let version : MessageProtocolHandshakeVersion := ⟨some 1, some 0⟩
    let ops : List HandshakeOp :=
      [.handleMessage .cmi 1,
        .handleMessage (.control (.connectionHello { phase := some .ready, waiting := some 60000 })) 2,
        .handleMessage (.control (.messageProtocolHandshake
          ⟨some .announceMax, some version, some (some ["JSON-UTF8"])⟩)) 3,
        .handleMessage (.control (.messageProtocolHandshake
          ⟨some .select, some version, some (some ["JSON-UTF8"])⟩)) 4,
        .handleMessage (.control (.connectionPinInput (some "1234"))) 5,
        .handleMessage (.control (.connectionPinState ⟨some .none, none⟩)) 6,
        .close .unspecific 7 7]
    DataPhaseSafe (handshake.run
      (Handshake.new .server { pin := .required "1234" } (.trusted .userVerified) 0) ops) := by
  intro version ops
  exact data_phase_safe .server { pin := .required "1234" } (.trusted .userVerified) 0 ops
    ⟨trivial, trivial, trivial, trivial, trivial, trivial, Or.inl (by decide +kernel), trivial⟩
    ops List.prefix_rfl (by decide +kernel)

/-- Announcing a close before the peer has said anything opens the data phase to it. -/
theorem early_close_ready_for_data :
    let hs := handshake.run (Handshake.new .server {} .rejected 0) [.close .unspecific 0 0]
    hs.isReadyForData = true ∧ ¬DataPhaseSafe hs := by
  refine ⟨by decide, fun h => ?_⟩
  have hreceived := h.cmi.2
  exact absurd hreceived (by decide)

end Eebus.Ship
