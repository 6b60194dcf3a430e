import Eebus.Library.Ledger
import Eebus.Ship.DataPhase

/-!
PINs, key material and what a proven PIN earns are a matter between peers that trust each other. What
a handshake has said and heard shows how far the two of them have come; a PIN input or key material
that arrives after the selection of the protocol finds all of it done.
-/

namespace Eebus.Ship

open Eebus.Library

def ShipMessage.discloses : ShipMessage → Bool
  | .control (.connectionPinState ⟨some .pinOk, _⟩) => true
  | .control (.keyMaterialStateResponse _) => true
  | _ => false

def HandshakeEvent.discloses : HandshakeEvent → Bool
  | .peerPinVerified => true
  | .peerKeyMaterial _ => true
  | _ => false

def ConnectionHello.isReady (hello : ConnectionHello) : Bool := hello.phase = some .ready

def MessageProtocolHandshake.isSelection (msg : MessageProtocolHandshake) : Bool :=
  msg.handshakeType = some .select

/-- By what has been said and heard on a connection, both sides have opened it, both have been ready
in the hello, and one has confirmed the version and format that the other has selected. -/
structure Completed (said heard : List ShipMessage) : Prop where
  cmi : .cmi ∈ said ∧ .cmi ∈ heard
  helloSaid : ∃ hello, hello.isReady = true ∧ .control (.connectionHello hello) ∈ said
  helloHeard : ∃ hello, hello.isReady = true ∧ .control (.connectionHello hello) ∈ heard
  selection : ∃ msg, msg.isSelection = true ∧ .control (.messageProtocolHandshake msg) ∈ said ∧
    .control (.messageProtocolHandshake msg) ∈ heard

theorem Completed.mono {said said' heard heard' : List ShipMessage} (h : Completed said heard)
    (hsaid : said ⊆ said') (hheard : heard ⊆ heard') : Completed said' heard' where
  cmi := ⟨hsaid h.cmi.1, hheard h.cmi.2⟩
  helloSaid := h.helloSaid.imp fun _ hello => ⟨hello.1, hsaid hello.2⟩
  helloHeard := h.helloHeard.imp fun _ hello => ⟨hello.1, hheard hello.2⟩
  selection := h.selection.imp fun _ msg => ⟨msg.1, hsaid msg.2.1, hheard msg.2.2⟩

def HandshakeOp.said (hs : Handshake) (op : HandshakeOp) : List ShipMessage :=
  (handshake.next hs op).outbox.drop hs.outbox.length

def HandshakeOp.raised (hs : Handshake) (op : HandshakeOp) : List HandshakeEvent :=
  (handshake.next hs op).events.drop hs.events.length

def HandshakeOp.heard (hs : Handshake) : HandshakeOp → List ShipMessage
  | .handleMessage message _ => if hs.isOver then [] else [message]
  | _ => []

def HandshakeOp.sent (hs : Handshake) : HandshakeOp → List ShipMessage
  | .pollTransmit => hs.outbox.take 1
  | _ => []

/-- A PIN of the peer is compared with this node's. -/
def HandshakeOp.Compares (hs : Handshake) : HandshakeOp → Prop
  | .handleMessage (.control (.connectionPinInput _)) _ =>
    hs.isOver = false ∧ hs.pinPenaltyUntil = none ∧ (Handshake.expectedPin hs.config.pin).isSome
  | _ => False

/-- Key material of the peer is taken up. -/
def HandshakeOp.TakesKeys (hs : Handshake) : HandshakeOp → Prop
  | .handleMessage (.control (.keyMaterialState _)) _ => hs.isOver = false
  | _ => False

/-- The call compares a PIN, raises what only a proven PIN or received key material earns, or says so
to the peer. -/
def HandshakeOp.Discloses (hs : Handshake) (op : HandshakeOp) : Prop :=
  op.Compares hs ∨ (∃ event ∈ op.raised hs, event.discloses = true) ∨
    ∃ message ∈ op.said hs, message.discloses = true

def Phase.stage : Phase → Nat
  | .hello => 1
  | .protocolHandshake => 2
  | .pin | .dataExchange => 3
  | .cmi | .closing | .closed | .aborted => 0

variable {msg : MessageProtocolHandshake}

namespace Handshake

variable {start hs hs' : Handshake} {gone heard : List ShipMessage} {now : Nat}

/-- What a handshake has come to is on the record of what it has said, sent or still queued, and of what
it has heard. -/
structure Traced (gone heard : List ShipMessage) (hs : Handshake) : Prop where
  cmi : .cmi ∈ gone ++ hs.outbox
  opened : 1 ≤ hs.phase.stage → .cmi ∈ heard
  localReady : hs.helloLocalReady = true →
    ∃ hello, hello.isReady = true ∧ .control (.connectionHello hello) ∈ gone ++ hs.outbox
  remoteReady : hs.helloRemoteReady = true →
    ∃ hello, hello.isReady = true ∧ .control (.connectionHello hello) ∈ heard
  greeted : 2 ≤ hs.phase.stage → hs.helloLocalReady = true ∧ hs.helloRemoteReady = true
  proposed : ∀ msg, hs.proposed = some msg →
    msg.isSelection = true ∧ .control (.messageProtocolHandshake msg) ∈ gone ++ hs.outbox
  selected : 3 ≤ hs.phase.stage → ∃ msg, msg.isSelection = true ∧
    .control (.messageProtocolHandshake msg) ∈ gone ++ hs.outbox ∧
    .control (.messageProtocolHandshake msg) ∈ heard

theorem Traced.completed (h : hs.Traced gone heard) (hstage : 3 ≤ hs.phase.stage) :
    Completed (gone ++ hs.outbox) heard := by
  obtain ⟨hlocal, hremote⟩ := h.greeted (Nat.le_trans (by decide) hstage)
  have hopened : .cmi ∈ heard := h.opened (Nat.le_trans (by decide) hstage)
  exact ⟨⟨h.cmi, hopened⟩, h.localReady hlocal, h.remoteReady hremote, h.selected hstage⟩

theorem queued_subset (hout : hs.outbox ⊆ hs'.outbox) : gone ++ hs.outbox ⊆ gone ++ hs'.outbox := by
  intro message hmem
  rcases List.mem_append.mp hmem with hmem | hmem
  · exact List.mem_append_left _ hmem
  · exact List.mem_append_right _ (hout hmem)

theorem Traced.keep (h : hs.Traced gone heard) (hstage : hs'.phase.stage ≤ hs.phase.stage)
    (hlocal : hs'.helloLocalReady = hs.helloLocalReady)
    (hremote : hs'.helloRemoteReady = hs.helloRemoteReady) (hproposed : hs'.proposed = hs.proposed)
    (hout : hs.outbox ⊆ hs'.outbox) : hs'.Traced gone heard := by
  have hsaid : gone ++ hs.outbox ⊆ gone ++ hs'.outbox := queued_subset hout
  refine ⟨hsaid h.cmi, fun hs' => h.opened (hs'.trans hstage), fun hl => ?_, fun hr => ?_, fun hs' => ?_,
    fun msg hmsg => ?_, fun hs' => ?_⟩
  · exact (h.localReady (hlocal ▸ hl)).imp fun _ hello => ⟨hello.1, hsaid hello.2⟩
  · exact h.remoteReady (hremote ▸ hr)
  · rw [hlocal, hremote]
    exact h.greeted (hs'.trans hstage)
  · obtain ⟨hselection, hmem⟩ := h.proposed msg (hproposed ▸ hmsg)
    exact ⟨hselection, hsaid hmem⟩
  · exact (h.selected (hs'.trans hstage)).imp fun _ msg => ⟨msg.1, hsaid msg.2.1, msg.2.2⟩

theorem Traced.hear (h : hs.Traced gone heard) (more : List ShipMessage) :
    hs.Traced gone (heard ++ more) := by
  refine ⟨h.cmi, fun hstage => List.mem_append_left _ (h.opened hstage), h.localReady, fun hremote => ?_,
    h.greeted, h.proposed, fun hstage => ?_⟩
  · exact (h.remoteReady hremote).imp fun _ hello => ⟨hello.1, List.mem_append_left _ hello.2⟩
  · exact (h.selected hstage).imp fun _ msg => ⟨msg.1, msg.2.1, List.mem_append_left _ msg.2.2⟩

theorem Traced.sayReady (h : hs.Traced gone heard) {hello : ConnectionHello} (hready : hello.isReady = true)
    (hphase : hs'.phase = hs.phase) (hlocal : hs'.helloLocalReady = true)
    (hremote : hs'.helloRemoteReady = hs.helloRemoteReady) (hproposed : hs'.proposed = hs.proposed)
    (hout : hs'.outbox = hs.outbox ++ [.control (.connectionHello hello)]) : hs'.Traced gone heard := by
  have hbefore : ({ hs' with helloLocalReady := hs.helloLocalReady } : Handshake).Traced gone heard :=
    h.keep (congrArg Phase.stage hphase).le rfl hremote hproposed
      (by rw [hout]; exact List.subset_append_left _ _)
  exact ⟨hbefore.cmi, hbefore.opened, fun _ => ⟨hello, hready, by simp [hout]⟩, hbefore.remoteReady,
    fun hs' => ⟨hlocal, (hbefore.greeted hs').2⟩, hbefore.proposed, hbefore.selected⟩

theorem Traced.enter (h : hs.Traced gone heard) (hopened : 1 ≤ hs'.phase.stage → .cmi ∈ heard)
    (hmutual : 2 ≤ hs'.phase.stage → hs.helloLocalReady = true ∧ hs.helloRemoteReady = true)
    (hselected : 3 ≤ hs'.phase.stage → ∃ msg, msg.isSelection = true ∧
      .control (.messageProtocolHandshake msg) ∈ gone ++ hs.outbox ∧
      .control (.messageProtocolHandshake msg) ∈ heard)
    (hlocal : hs'.helloLocalReady = hs.helloLocalReady)
    (hremote : hs'.helloRemoteReady = hs.helloRemoteReady) (hproposed : hs'.proposed = hs.proposed)
    (hout : hs.outbox ⊆ hs'.outbox) : hs'.Traced gone heard := by
  have hbefore : ({ hs' with phase := .cmi } : Handshake).Traced gone heard :=
    h.keep (Nat.zero_le _) hlocal hremote hproposed hout
  refine ⟨hbefore.cmi, hopened, hbefore.localReady, hbefore.remoteReady, fun hs' => ?_, hbefore.proposed,
    fun hs' => ?_⟩
  · rw [hlocal, hremote]
    exact hmutual hs'
  · exact (hselected hs').imp fun _ msg => ⟨msg.1, queued_subset hout msg.2.1, msg.2.2⟩

theorem Traced.flagRemote (h : hs.Traced gone heard) (hhello : hs.phase = .hello)
    (hphase : hs'.phase = hs.phase) (hlocal : hs'.helloLocalReady = hs.helloLocalReady)
    (hproposed : hs'.proposed = hs.proposed) (hout : hs'.outbox = hs.outbox)
    (hremote : hs'.helloRemoteReady = true →
      ∃ hello, hello.isReady = true ∧ .control (.connectionHello hello) ∈ heard) :
    hs'.Traced gone heard := by
  have hstage : ∀ n, 2 ≤ n → ¬n ≤ hs'.phase.stage := by
    intro n hn hs'
    rw [hphase, hhello] at hs'
    exact absurd (hn.trans hs') (by decide)
  refine ⟨?_, fun _ => h.opened (by rw [hhello]; decide), ?_, hremote,
    fun hs' => absurd hs' (hstage 2 (by decide)), ?_, fun hs' => absurd hs' (hstage 3 (by decide))⟩
  · rw [hout]
    exact h.cmi
  · rw [hlocal, hout]
    exact h.localReady
  · rw [hproposed, hout]
    exact h.proposed

theorem Traced.propose (h : hs.Traced gone heard)
    (hselection : msg.isSelection = true) (hphase : hs'.phase = hs.phase)
    (hlocal : hs'.helloLocalReady = hs.helloLocalReady)
    (hremote : hs'.helloRemoteReady = hs.helloRemoteReady) (hproposed : hs'.proposed = some msg)
    (hout : hs'.outbox = hs.outbox ++ [.control (.messageProtocolHandshake msg)]) :
    hs'.Traced gone heard := by
  have hbefore : ({ hs' with proposed := hs.proposed } : Handshake).Traced gone heard :=
    h.keep (by rw [hphase]) hlocal hremote rfl (by rw [hout]; exact List.subset_append_left _ _)
  refine ⟨hbefore.cmi, hbefore.opened, hbefore.localReady, hbefore.remoteReady, hbefore.greeted, ?_,
    hbefore.selected⟩
  intro m hm
  rw [hproposed] at hm
  cases hm
  exact ⟨hselection, by simp [hout]⟩

/-- On the way from `start` to here no secret has been given away: at most it was said again that the
PIN was right. Where the handshake has come to is on record. -/
structure Discreet (gone heard : List ShipMessage) (start hs : Handshake) : Prop where
  pin : hs.localPinState = start.localPinState
  said : ∃ messages, hs.outbox = start.outbox ++ messages ∧
    ∀ message ∈ messages, message.discloses = true → start.localPinState = .pinOk
  raised : ∃ events, hs.events = start.events ++ events ∧ ∀ event ∈ events, event.discloses = false
  traced : hs.Traced gone heard

def face (hs : Handshake) : Phase × Bool × Bool × Option MessageProtocolHandshake :=
  (hs.phase, hs.helloLocalReady, hs.helloRemoteReady, hs.proposed)

theorem Traced.congr (h : hs.Traced gone heard) (hface : hs'.face = hs.face)
    (hout : hs.outbox ⊆ hs'.outbox) : hs'.Traced gone heard := by
  have hphase : hs'.phase = hs.phase := congrArg Prod.fst hface
  have hlocal : hs'.helloLocalReady = hs.helloLocalReady := congrArg (fun f => f.2.1) hface
  have hremote : hs'.helloRemoteReady = hs.helloRemoteReady := congrArg (fun f => f.2.2.1) hface
  have hproposed : hs'.proposed = hs.proposed := congrArg (fun f => f.2.2.2) hface
  exact h.keep (by rw [hphase]) hlocal hremote hproposed hout

namespace Discreet

theorem refl (h : hs.Traced gone heard) : Discreet gone heard hs hs :=
  ⟨rfl, ⟨[], by simp⟩, ⟨[], by simp⟩, h⟩

section

variable (h : Discreet gone heard start hs)

include h

theorem move (hpin : hs'.localPinState = hs.localPinState)
    (hout : hs'.outbox = hs.outbox) (hevents : hs'.events = hs.events)
    (htraced : hs'.Traced gone heard) : Discreet gone heard start hs' := by
  refine ⟨hpin.trans h.pin, ?_, ?_, htraced⟩
  · rw [hout]
    exact h.said
  · rw [hevents]
    exact h.raised

theorem set (hpin : hs'.localPinState = hs.localPinState)
    (hout : hs'.outbox = hs.outbox) (hevents : hs'.events = hs.events) (hface : hs'.face = hs.face) :
    Discreet gone heard start hs' :=
  h.move hpin hout hevents (h.traced.congr hface (by rw [hout]; exact fun _ => id))

theorem moveSaying {message : ShipMessage}
    (hpin : hs'.localPinState = hs.localPinState) (hout : hs'.outbox = hs.outbox ++ [message])
    (hevents : hs'.events = hs.events)
    (hmessage : message.discloses = false ∨ hs.localPinState = .pinOk)
    (htraced : hs'.Traced gone heard) : Discreet gone heard start hs' := by
  obtain ⟨messages, hout', hmessages⟩ := h.said
  refine ⟨hpin.trans h.pin, ⟨messages ++ [message], ?_, fun m hm hdiscloses => ?_⟩, ?_, htraced⟩
  · rw [hout, hout', List.append_assoc]
  · rcases List.mem_append.mp hm with hm | hm
    · exact hmessages m hm hdiscloses
    · rw [List.mem_singleton.mp hm] at hdiscloses
      rw [← h.pin]
      exact hmessage.resolve_left (by simp [hdiscloses])
  · rw [hevents]
    exact h.raised

theorem say {message : ShipMessage}
    (hpin : hs'.localPinState = hs.localPinState) (hout : hs'.outbox = hs.outbox ++ [message])
    (hevents : hs'.events = hs.events) (hface : hs'.face = hs.face)
    (hmessage : message.discloses = false ∨ hs.localPinState = .pinOk) :
    Discreet gone heard start hs' :=
  h.moveSaying hpin hout hevents hmessage
    (h.traced.congr hface (by rw [hout]; exact List.subset_append_left _ _))

theorem send {message : ShipMessage}
    (hmessage : message.discloses = false ∨ hs.localPinState = .pinOk) :
    Discreet gone heard start (hs.send message) := h.say rfl rfl rfl rfl hmessage

theorem report {event : HandshakeEvent}
    (hevent : event.discloses = false) : Discreet gone heard start (hs.report event) := by
  obtain ⟨events, hevents, hall⟩ := h.raised
  refine ⟨h.pin, h.said, ⟨events ++ [event], ?_, fun e he => ?_⟩, h.traced.congr rfl fun _ => id⟩
  · rw [Handshake.report, hevents, List.append_assoc]
  · rcases List.mem_append.mp he with he | he
    · exact hall e he
    · rw [List.mem_singleton.mp he]
      exact hevent

theorem abort (reason : AbortReason) : Discreet gone heard start (hs.abort reason) := by
  unfold Handshake.abort
  split
  · exact h
  · refine report ?_ rfl
    exact h.move rfl rfl rfl (h.traced.keep (Nat.zero_le _) rfl rfl rfl fun _ => id)

theorem finish (reason : AbortReason) : Discreet gone heard start (hs.finish reason) := by
  unfold Handshake.finish
  split
  · exact h
  · refine report ?_ rfl
    exact h.move rfl rfl rfl (h.traced.keep (Nat.zero_le _) rfl rfl rfl fun _ => id)

theorem armProlongation : Discreet gone heard start (hs.armProlongation now) := by
  unfold Handshake.armProlongation
  dsimp only
  repeat' split
  all_goals exact h.set rfl rfl rfl rfl

theorem announceHelloAs (phase : ConnectionHelloPhase) :
    Discreet gone heard start (hs.announceHelloAs phase now) := by
  unfold Handshake.announceHelloAs
  refine armProlongation ?_
  exact h.say rfl rfl rfl rfl (.inl rfl)

theorem announceHello : Discreet gone heard start (hs.announceHello now) := by
  have hrefused : Discreet gone heard start hs.refuseHello := abort (h.send (.inl rfl)) _
  unfold Handshake.announceHello
  split
  · split
    · exact hrefused
    · unfold Handshake.announceHelloAs
      refine armProlongation ?_
      exact h.moveSaying rfl rfl rfl (.inl rfl) (h.traced.sayReady rfl rfl rfl rfl rfl rfl)
  · dsimp only
    split
    · exact h.announceHelloAs _
    · refine announceHelloAs ?_ _
      refine report ?_ rfl
      exact h.set rfl rfl rfl rfl
  · exact hrefused

theorem onCmi (hcmi : .cmi ∈ heard) : Discreet gone heard start (hs.onCmi now) := by
  unfold Handshake.onCmi
  split
  · exact h.abort _
  case isFalse hphase =>
    rw [not_not] at hphase
    dsimp only
    split
    · refine announceHello ?_
      exact h.move rfl rfl rfl (h.traced.enter (fun _ => hcmi) nofun nofun rfl rfl rfl fun _ => id)
    · exact h.set rfl rfl rfl rfl

theorem tryFinishHello (hcmi : .cmi ∈ heard) :
    Discreet gone heard start (hs.tryFinishHello now) := by
  unfold Handshake.tryFinishHello Handshake.enterProtocolHandshake
  split
  case isTrue hboth =>
    rw [Bool.and_eq_true] at hboth
    have hentered : Discreet gone heard start { hs with
        phase := .protocolHandshake
        timers := { hs.timers with
          waitForReady := none, sendProlongation := none, prolongationReply := none
          wait := some (now + hs.config.waitTimer) } } :=
      h.move rfl rfl rfl (h.traced.enter (fun _ => hcmi) (fun _ => hboth) nofun rfl rfl rfl fun _ => id)
    dsimp only
    split
    · exact hentered.send (.inl rfl)
    · exact hentered
  case isFalse => exact h

theorem noteHello (hello : ConnectionHello) :
    Discreet gone heard start (hs.noteHello hello now) := by
  unfold Handshake.noteHello
  cases hello.waiting with
  | none =>
    dsimp only
    split
    · exact h.report rfl
    · exact h
  | some ms =>
    dsimp only
    split
    · refine report ?_ rfl
      exact h.set rfl rfl rfl rfl
    · exact h.set rfl rfl rfl rfl

theorem continueHello (hello : ConnectionHello) :
    Discreet gone heard start (hs.continueHello hello now) := by
  have harmed : ∀ {hs : Handshake}, Discreet gone heard start hs →
      Discreet gone heard start (if hs.phase = .hello then hs.armProlongation now else hs) := by
    intro hs h
    split
    · exact h.armProlongation
    · exact h
  unfold Handshake.continueHello Handshake.acceptProlongation
  refine harmed ?_
  split
  · refine send ?_ (.inl rfl)
    exact h.set rfl rfl rfl rfl
  · exact h

theorem onHello {hello : ConnectionHello} (hheard : .control (.connectionHello hello) ∈ heard) :
    Discreet gone heard start (hs.onHello hello now) := by
  unfold Handshake.onHello
  split
  · exact h
  case isFalse hphase =>
    rw [not_not] at hphase
    have hnoted : Discreet gone heard start (hs.noteHello hello now) := h.noteHello hello
    have hphase' : (hs.noteHello hello now).phase = .hello :=
      (congrArg Core.phase (noteHello_core hello)).trans hphase
    generalize hs.noteHello hello now = noted at hnoted hphase' ⊢
    have hcmi : .cmi ∈ heard := hnoted.traced.opened (by simp [hphase', Phase.stage])
    dsimp only
    split
    case h_1 hready =>
      split
      · exact hnoted.abort _
      · refine continueHello (tryFinishHello ?_ hcmi) _
        exact hnoted.move rfl rfl rfl (hnoted.traced.flagRemote hphase' rfl rfl rfl rfl
          fun _ => ⟨hello, by simp [ConnectionHello.isReady, hready], hheard⟩)
    case h_2 =>
      refine continueHello ?_ _
      have hpending : Discreet gone heard start { noted with
          helloRemoteReady := false
          timers := { noted.timers with prolongationReply := none } } :=
        hnoted.move rfl rfl rfl (hnoted.traced.flagRemote hphase' rfl rfl rfl rfl nofun)
      split
      · exact hpending.report rfl
      · exact hpending
    · exact hnoted.abort _
    · exact hnoted.abort _

theorem failProtocol (error : Nat) (reason : AbortReason) :
    Discreet gone heard start (hs.failProtocol error reason) := by
  refine abort ?_ reason
  unfold sendProtocolError
  split
  · exact h.send (.inl rfl)
  · exact h

theorem sendPinState : Discreet gone heard start hs.sendPinState := by
  refine h.send ?_
  cases hs.localPinState with
  | pinOk => exact .inr rfl
  | required | optional | none => exact .inl rfl

theorem enterPin
    (hprotocol : hs.phase = .protocolHandshake) (hselection : msg.isSelection = true)
    (hsaid : .control (.messageProtocolHandshake msg) ∈ gone ++ hs.outbox)
    (hheard : .control (.messageProtocolHandshake msg) ∈ heard) :
    Discreet gone heard start (hs.enterPin now) := by
  have hstage : 2 ≤ hs.phase.stage := by simp [hprotocol, Phase.stage]
  refine sendPinState ?_
  refine h.move rfl rfl rfl (h.traced.enter ?_ ?_ ?_ rfl rfl rfl fun _ => id)
  · exact fun _ => h.traced.opened (Nat.le_of_succ_le hstage)
  · exact fun _ => h.traced.greeted hstage
  · exact fun _ => ⟨msg, hselection, hsaid, hheard⟩

theorem confirmProtocol (hheard : .control (.messageProtocolHandshake msg) ∈ heard)
    (hprotocol : hs.phase = .protocolHandshake) :
    Discreet gone heard start (hs.confirmProtocol msg now) := by
  unfold Handshake.confirmProtocol
  split
  · exact h.failProtocol _ _
  case isFalse hselect =>
    rw [not_not] at hselect
    split
    · split
      · exact h.failProtocol _ _
      · refine enterPin ?_ hprotocol ?_ ?_ hheard
        · exact h.say rfl rfl rfl rfl (.inl rfl)
        · simp [MessageProtocolHandshake.isSelection, hselect]
        · simp [Handshake.send]
    · exact h.failProtocol _ _

theorem onProtocolHandshake (hheard : .control (.messageProtocolHandshake msg) ∈ heard) :
    Discreet gone heard start (hs.onProtocolHandshake msg now) := by
  unfold Handshake.onProtocolHandshake
  split
  · exact h.abort _
  case isFalse hphase =>
    rw [not_not] at hphase
    have hwaited : Discreet gone heard start { hs with timers := { hs.timers with wait := none } } :=
      h.set rfl rfl rfl rfl
    dsimp only
    split
    · split
      · unfold proposeProtocol
        split
        · exact hwaited.failProtocol _ _
        · split
          · exact hwaited.moveSaying rfl rfl rfl (.inl rfl)
              (hwaited.traced.propose rfl rfl rfl rfl rfl rfl)
          · exact hwaited.failProtocol _ _
      · split
        · exact hwaited.failProtocol _ _
        case isFalse hproposed hsame =>
          rw [not_not] at hsame
          obtain ⟨hselection, hsaid⟩ := h.traced.proposed msg hsame
          exact hwaited.enterPin hphase hselection hsaid hheard
    · exact hwaited.confirmProtocol hheard hphase
theorem sendPinIfPermitted : Discreet gone heard start hs.sendPinIfPermitted.1 := by
  unfold Handshake.sendPinIfPermitted
  split
  · exact h
  · split
    · exact h
    · split
      · exact h.report rfl
      · split
        · exact h
        · exact h.say rfl rfl rfl rfl (.inl rfl)

theorem tryFinishPin : Discreet gone heard start hs.tryFinishPin := by
  unfold Handshake.tryFinishPin
  split
  · exact h
  case isFalse hphase =>
    rw [not_not] at hphase
    split
    · have hopened : Discreet gone heard start { hs with
          timers := { hs.timers with wait := none }, phase := .dataExchange } :=
        h.move rfl rfl rfl (h.traced.keep (by simp [hphase, Phase.stage]) rfl rfl rfl fun _ => id)
      dsimp only
      split
      · exact hopened.report rfl
      · exact hopened
    · exact h

theorem onPinState (state : ConnectionPinState) :
    Discreet gone heard start (hs.onPinState state) := by
  unfold Handshake.onPinState
  split
  · exact h.abort _
  case h_2 pinState hstate =>
    have hstored : Discreet gone heard start { hs with
        timers := { hs.timers with wait := none }
        peerPinState := some pinState } := h.set rfl rfl rfl rfl
    have hnoted : Discreet gone heard start (Handshake.report _ (.peerPinState pinState)) :=
      hstored.report rfl
    dsimp only
    refine tryFinishPin ?_
    split
    · exact hnoted.sendPinIfPermitted
    · exact hnoted

theorem sendKeyMaterial : Discreet gone heard start (hs.sendKeyMaterial now) := by
  unfold Handshake.sendKeyMaterial
  split
  · exact h
  · split
    · exact h
    · exact h.say rfl rfl rfl rfl (.inl rfl)

theorem onControl {control : ControlMessage}
    (hheard : .control control ∈ heard) (hpin : ∀ pin, control ≠ .connectionPinInput pin)
    (hkeys : ∀ state, control ≠ .keyMaterialState state) :
    Discreet gone heard start (hs.onControl control now) := by
  cases control with
  | connectionHello hello => exact h.onHello hheard
  | messageProtocolHandshake msg => exact h.onProtocolHandshake hheard
  | messageProtocolHandshakeError error => exact h.abort _
  | connectionPinState state => exact h.onPinState state
  | connectionPinInput pin => exact absurd rfl (hpin pin)
  | connectionPinError error => exact h
  | accessMethodsRequest => exact h.say rfl rfl rfl rfl (.inl rfl)
  | accessMethods methods => exact h.report rfl
  | keyMaterialState state => exact absurd rfl (hkeys state)
  | keyMaterialStateResponse accept => exact h.set rfl rfl rfl rfl
  | keyMaterialStateRequest known =>
    unfold Handshake.onControl onKeyMaterialStateRequest
    dsimp only
    split
    · exact h.sendKeyMaterial.report rfl
    · exact h.report rfl
  | commissioning => exact h

theorem onClose (close : ConnectionClose) : Discreet gone heard start (hs.onClose close) := by
  unfold Handshake.onClose
  split
  · refine finish ?_ _
    exact h.say rfl rfl rfl rfl (.inl rfl)
  · exact h.finish _
  · exact h.abort _

theorem servePinAndReady : Discreet gone heard start (hs.servePinAndReady now) := by
  unfold Handshake.servePinAndReady
  dsimp only
  split
  · have hserved : Discreet gone heard start { hs with
        timers := { hs.timers with pinPenalty := none }, pinPenaltyUntil := none }.sendPinState := by
      refine sendPinState ?_
      exact h.set rfl rfl rfl rfl
    split
    · refine abort ?_ _
      exact hserved.set rfl rfl rfl rfl
    · exact hserved
  · split
    · refine abort ?_ _
      exact h.set rfl rfl rfl rfl
    · exact h

theorem serveKeyMaterial : Discreet gone heard start (hs.serveKeyMaterial now) := by
  unfold Handshake.serveKeyMaterial
  split
  · dsimp only
    split
    · refine abort ?_ _
      exact h.set rfl rfl rfl rfl
    · split
      · refine servePinAndReady ?_
        exact h.say rfl rfl rfl rfl (.inl rfl)
      · refine servePinAndReady ?_
        exact h.set rfl rfl rfl rfl
  · exact h.servePinAndReady

theorem serveTimers : Discreet gone heard start (hs.serveTimers now) := by
  unfold Handshake.serveTimers
  split
  · refine abort ?_ _
    exact h.set rfl rfl rfl rfl
  · split
    · refine failProtocol ?_ _ _
      exact h.set rfl rfl rfl rfl
    · generalize hasked : (if expired hs.timers.sendProlongation now = true then
        { hs with timers := { hs.timers with sendProlongation := none } }.sendProlongationRequest now
        else hs) = asked
      have hdiscreet : Discreet gone heard start asked := by
        rw [← hasked]
        split
        · exact h.say rfl rfl rfl rfl (.inl rfl)
        · exact h
      dsimp only
      split
      · refine abort ?_ _
        exact hdiscreet.set rfl rfl rfl rfl
      · split
        · refine finish ?_ _
          exact hdiscreet.set rfl rfl rfl rfl
        · exact hdiscreet.serveKeyMaterial

theorem setTrust (trust : Trust) :
    Discreet gone heard start ((hs.setTrust trust now).getD hs) := by
  have htrusted : Discreet gone heard start { hs with trust := trust } := h.set rfl rfl rfl rfl
  unfold Handshake.setTrust
  split
  · exact h
  · dsimp only
    split
    case isTrue hphase =>
      refine htrusted.announceHello.tryFinishHello (h.traced.opened ?_)
      simp [show hs.phase = .hello from hphase, Phase.stage]
    case isFalse => exact htrusted

theorem close (reason : ConnectionCloseReason) (maxTime : Nat) :
    Discreet gone heard start (hs.close reason maxTime now) := by
  unfold Handshake.close
  split
  · exact h
  · exact h.moveSaying rfl rfl rfl (.inl rfl)
      (h.traced.keep (Nat.zero_le _) rfl rfl rfl (List.subset_append_left _ _))

theorem missPin :
    Discreet gone heard start
      (let hs := { hs with pinAttempts := min (hs.pinAttempts + 1) (2 ^ 32 - 1) }.send
        (.control (.connectionPinError (some 1)))
      match pinPenalty hs.pinAttempts with
      | some penalty =>
        { hs with
          pinPenaltyUntil := some (now + penalty)
          timers := { hs.timers with pinPenalty := some (now + penalty) } }.sendPinState
      | none => hs) := by
  have hcounted : Discreet gone heard start
      ({ hs with pinAttempts := min (hs.pinAttempts + 1) (2 ^ 32 - 1) }.send
        (.control (.connectionPinError (some 1)))) :=
    h.say rfl rfl rfl rfl (.inl rfl)
  dsimp only
  split
  · refine sendPinState ?_
    exact hcounted.set rfl rfl rfl rfl
  · exact hcounted

theorem step {op : HandshakeOp} (hheard : op.heard hs ⊆ heard)
    (hcompares : ¬op.Compares hs) (hkeys : ¬op.TakesKeys hs)
    (htransmit : op ≠ .pollTransmit) (hevent : op ≠ .pollEvent) :
    Discreet gone heard start (handshake.next hs op) := by
  cases op with
  | handleMessage message now =>
    simp only [Machine.next, handshake, handleMessage]
    split
    · exact h
    case isFalse hrunning =>
      rw [Bool.not_eq_true] at hrunning
      have hmessage : message ∈ heard := hheard (by simp [HandshakeOp.heard, hrunning])
      cases message with
      | cmi => exact h.onCmi hmessage
      | connectionClose close => exact h.onClose close
      | data =>
        dsimp only [Option.getD_some]
        split
        · exact h
        · exact h.abort _
      | control control =>
        by_cases hinput : ∃ pin, control = .connectionPinInput pin
        · obtain ⟨pin, rfl⟩ := hinput
          simp only [Option.getD_some, Handshake.onControl, onPinInput]
          split
          · exact h.sendPinState
          case isFalse hnone =>
            -- there is no PIN of this node's to be right about
            have hexpected : expectedPin hs.config.pin = none := by
              by_contra hsome
              exact hcompares ⟨hrunning, by simpa using hnone, Option.isSome_iff_ne_none.mpr hsome⟩
            rw [hexpected, if_neg (by rintro ⟨hsome, rfl⟩; cases hsome)]
            exact h.missPin
        · refine h.onControl hmessage (fun pin hpin => hinput ⟨pin, hpin⟩) fun state hstate => ?_
          subst hstate
          exact hkeys hrunning
  | handleTimeout now =>
    simp only [Machine.next, handshake, handleTimeout]
    split
    · exact h
    · exact h.serveTimers
  | setTrust trust now => exact h.setTrust trust
  | close reason maxTime now => exact h.close reason maxTime
  | sendPin pin =>
    have hentered : Discreet gone heard start { hs with config := { hs.config with peerPin := some pin } } :=
      h.set rfl rfl rfl rfl
    exact hentered.sendPinIfPermitted
  | sendPinIfPermitted => exact h.sendPinIfPermitted
  | sendKeyMaterial now => exact h.sendKeyMaterial
  | requestKeyMaterial known =>
    simp only [Machine.next, handshake, requestKeyMaterial]
    split
    · exact h.send (.inl rfl)
    · exact h
  | requestAccessMethods =>
    simp only [Machine.next, handshake, requestAccessMethods]
    split
    · exact h.send (.inl rfl)
    · exact h
  | pollTransmit => exact absurd rfl htransmit
  | pollEvent => exact absurd rfl hevent

end

end Discreet

theorem traced_new (role : Role) (config : HandshakeConfig) (trust : Trust) :
    (new role config trust now).Traced [] [] where
  cmi := List.mem_singleton_self _
  opened := nofun
  localReady := nofun
  remoteReady := nofun
  greeted := nofun
  proposed := nofun
  selected := nofun

theorem next_control (hrunning : hs.isOver = false) (control : ControlMessage) :
    handshake.next hs (.handleMessage (.control control) now) = hs.onControl control now := by
  simp [Machine.next, handshake, handleMessage, hrunning]

theorem Traced.call (h : hs.Traced gone heard) {op : HandshakeOp} (hheard : op.heard hs ⊆ heard)
    (htransmit : op ≠ .pollTransmit) (hevent : op ≠ .pollEvent) :
    (handshake.next hs op).Traced gone heard ∧ hs.outbox ⊆ (handshake.next hs op).outbox := by
  have hkept : ∀ {hs' hs'' : Handshake}, hs.outbox ⊆ hs'.outbox → Discreet gone heard hs' hs'' →
      hs''.Traced gone heard ∧ hs.outbox ⊆ hs''.outbox := by
    intro hs' hs'' hout hdiscreet
    obtain ⟨messages, hout', -⟩ := hdiscreet.said
    refine ⟨hdiscreet.traced, fun m hm => ?_⟩
    rw [hout']
    exact List.mem_append_left _ (hout hm)
  have hstart : Discreet gone heard hs hs := .refl h
  by_cases hcompares : op.Compares hs
  · obtain ⟨pin, now, rfl⟩ : ∃ pin now,
        op = .handleMessage (.control (.connectionPinInput pin)) now := by
      unfold HandshakeOp.Compares at hcompares
      split at hcompares
      · exact ⟨_, _, rfl⟩
      · exact hcompares.elim
    obtain ⟨hrunning, hpenalty, -⟩ := hcompares
    rw [next_control hrunning, Handshake.onControl, onPinInput, if_neg (by simp [hpenalty])]
    split
    · -- the PIN state aside, a right PIN changes what any other message changes
      have hproved : ({ hs with localPinState := .pinOk }.report .peerPinVerified |>.send
          (.control (.connectionPinState ⟨some .pinOk, none⟩))).Traced gone heard :=
        h.congr rfl (List.subset_append_left _ _)
      exact hkept (List.subset_append_left _ _) (Discreet.tryFinishPin (.refl hproved))
    · exact hkept (fun _ => id) hstart.missPin
  by_cases hkeys : op.TakesKeys hs
  · obtain ⟨state, now, rfl⟩ : ∃ state now,
        op = .handleMessage (.control (.keyMaterialState state)) now := by
      unfold HandshakeOp.TakesKeys at hkeys
      split at hkeys
      · exact ⟨_, _, rfl⟩
      · exact hkeys.elim
    rw [next_control hkeys]
    exact ⟨h.congr rfl (List.subset_append_left _ _), List.subset_append_left _ _⟩
  exact hkept (fun _ => id) (hstart.step hheard hcompares hkeys htransmit hevent)

theorem Traced.step (h : hs.Traced gone heard) (op : HandshakeOp) :
    (handshake.next hs op).Traced (gone ++ op.sent hs) (heard ++ op.heard hs) ∧
      gone ++ hs.outbox ⊆ gone ++ op.sent hs ++ (handshake.next hs op).outbox := by
  by_cases htransmit : op = .pollTransmit
  · subst htransmit
    -- what is handed over is on record as before
    have hsame : gone ++ hs.outbox.take 1 ++ hs.outbox.tail = gone ++ hs.outbox := by
      rw [List.append_assoc, ← List.drop_one, List.take_append_drop]
    simp only [HandshakeOp.sent, HandshakeOp.heard, List.append_nil]
    refine ⟨⟨?_, h.opened, ?_, h.remoteReady, h.greeted, ?_, ?_⟩, ?_⟩
    · exact hsame ▸ h.cmi
    · exact hsame ▸ h.localReady
    · exact hsame ▸ h.proposed
    · exact hsame ▸ h.selected
    · exact fun m hm => hsame ▸ hm
  by_cases hevent : op = .pollEvent
  · subst hevent
    simp only [HandshakeOp.sent, HandshakeOp.heard, List.append_nil]
    exact ⟨h.congr rfl fun _ => id, fun _ => id⟩
  have hsent : op.sent hs = [] := by
    cases op <;> first | rfl | exact absurd rfl htransmit
  rw [hsent, List.append_nil]
  obtain ⟨htraced, hout⟩ := (h.hear (op.heard hs)).call (List.subset_append_right _ _) htransmit hevent
  exact ⟨htraced, queued_subset hout⟩

end Handshake

section Runs

variable (start : Handshake) (ops : List HandshakeOp)

def saidIn : List ShipMessage :=
  handshake.collect (fun hs op => op.sent hs) start ops ++ (handshake.run start ops).outbox

def heardIn : List ShipMessage := handshake.collect (fun hs op => op.heard hs) start ops

/-- In every step of the run secrets are opened only on a connection that has been opened, greeted and
given its protocol by both sides. -/
def SecretsKept : Prop :=
  ∀ before op, before ++ [op] <+: ops → op.Discloses (handshake.run start before) →
    Completed (saidIn start before) (heardIn start before)

/-- PINs to compare and key material arrive after the PIN phase has been entered. -/
def SecretsInOrder : Prop :=
  ∀ before op, before ++ [op] <+: ops →
    op.Compares (handshake.run start before) ∨ op.TakesKeys (handshake.run start before) →
      ∃ earlier, earlier <+: before ∧ (handshake.run start earlier).phase = .pin

end Runs

section Kept

variable {start : Handshake} {ops : List HandshakeOp}

/-- A run keeps the record; once past the selection, or with its PIN proved, all is on it. -/
structure KeptSoFar (start : Handshake) (before : List HandshakeOp) : Prop where
  traced : (handshake.run start before).Traced
    (handshake.collect (fun hs op => op.sent hs) start before) (heardIn start before)
  reached : ∀ earlier, earlier <+: before → (handshake.run start earlier).phase = .pin →
    Completed (saidIn start before) (heardIn start before)
  proved : (handshake.run start before).localPinState = .pinOk →
    Completed (saidIn start before) (heardIn start before)

/-- A call that compares no PIN and takes up no key material says and raises no secret, and proves no PIN:
at most it says again that the PIN was right. -/
theorem discreet_next {hs : Handshake} {gone heard : List ShipMessage} (h : hs.Traced gone heard)
    {op : HandshakeOp} (hcompares : ¬op.Compares hs) (hkeys : ¬op.TakesKeys hs) :
    (handshake.next hs op).localPinState = hs.localPinState ∧
      (∀ message ∈ op.said hs, message.discloses = true → hs.localPinState = .pinOk) ∧
      ∀ event ∈ op.raised hs, event.discloses = false := by
  by_cases htransmit : op = .pollTransmit
  · subst htransmit
    have hnone : hs.outbox.drop (hs.outbox.length + 1) = [] := List.drop_eq_nil_of_le (Nat.le_succ _)
    simp [HandshakeOp.said, HandshakeOp.raised, Machine.next, handshake, hnone]
  by_cases hevent : op = .pollEvent
  · subst hevent
    have hnone : hs.events.drop (hs.events.length + 1) = [] := List.drop_eq_nil_of_le (Nat.le_succ _)
    simp [HandshakeOp.said, HandshakeOp.raised, Machine.next, handshake, hnone]
  obtain ⟨hpin, ⟨messages, hout, hmessages⟩, ⟨events, hevents, hall⟩, -⟩ :=
    Handshake.Discreet.step (.refl (h.hear (op.heard hs))) (List.subset_append_right _ _) hcompares hkeys
      htransmit hevent
  refine ⟨hpin, ?_, ?_⟩
  · rw [HandshakeOp.said, hout, List.drop_left]
    exact hmessages
  · rw [HandshakeOp.raised, hevents, List.drop_left]
    exact hall

theorem keptSoFar (role : Role) (config : HandshakeConfig) (trust : Trust) (now : Nat)
    (horder : SecretsInOrder (Handshake.new role config trust now) ops) :
    ∀ before, before <+: ops → KeptSoFar (Handshake.new role config trust now) before := by
  intro before
  induction before using List.reverseRecOn with
  | nil =>
    refine fun _ => ⟨Handshake.traced_new role config trust, fun earlier hearlier hphase => ?_,
      fun hproved => ?_⟩
    · rw [List.prefix_nil.mp hearlier] at hphase
      cases hphase
    · have hnot : Handshake.initialPinState config.pin ≠ .pinOk := by
        cases config.pin <;> exact nofun
      exact absurd hproved hnot
  | append_singleton before op ih =>
    intro hprefix
    have hkept := ih ((List.prefix_append before [op]).trans hprefix)
    set start := Handshake.new role config trust now
    obtain ⟨htraced, hunsaid⟩ := hkept.traced.step op
    have hgrown : Completed (saidIn start before) (heardIn start before) →
        Completed (saidIn start (before ++ [op])) (heardIn start (before ++ [op])) := by
      intro h
      simp only [saidIn, heardIn, Machine.collect_append, Machine.run_append, Machine.collect,
        Machine.run_cons, Machine.run_nil, List.append_nil]
      exact h.mono hunsaid (List.subset_append_left _ _)
    have htraced' : (handshake.run start (before ++ [op])).Traced
        (handshake.collect (fun hs op => op.sent hs) start (before ++ [op]))
        (heardIn start (before ++ [op])) := by
      simp only [heardIn, Machine.collect_append, Machine.run_append, Machine.collect, Machine.run_cons,
        Machine.run_nil, List.append_nil]
      exact htraced
    refine ⟨htraced', fun earlier hearlier hphase => ?_, fun hproved => ?_⟩
    · rcases List.prefix_concat_iff.mp hearlier with rfl | hearlier
      · exact htraced'.completed (by rw [hphase]; decide)
      · exact hgrown (hkept.reached earlier hearlier hphase)
    · refine hgrown ?_
      by_cases hopens : op.Compares (handshake.run start before) ∨ op.TakesKeys (handshake.run start before)
      · obtain ⟨earlier, hearlier, hphase⟩ := horder before op hprefix hopens
        exact hkept.reached earlier hearlier hphase
      · rw [not_or] at hopens
        have hpin := (discreet_next hkept.traced hopens.1 hopens.2).1
        rw [Machine.run_append, Machine.run_cons, Machine.run_nil, hpin] at hproved
        exact hkept.proved hproved

/-- Where PINs to compare and key material come after the PIN phase has been entered, every secret is
opened on a connection whose two sides have opened it, are both ready and have settled the protocol. -/
theorem secrets_kept (role : Role) (config : HandshakeConfig) (trust : Trust) (now : Nat)
    (ops : List HandshakeOp) (horder : SecretsInOrder (Handshake.new role config trust now) ops) :
    SecretsKept (Handshake.new role config trust now) ops := by
  intro before op hprefix hdiscloses
  have hkept := keptSoFar role config trust now horder before
    ((List.prefix_append before [op]).trans hprefix)
  by_cases hopens : op.Compares (handshake.run (Handshake.new role config trust now) before) ∨
      op.TakesKeys (handshake.run (Handshake.new role config trust now) before)
  · obtain ⟨earlier, hearlier, hphase⟩ := horder before op hprefix hopens
    exact hkept.reached earlier hearlier hphase
  · rw [not_or] at hopens
    obtain ⟨-, hsaid, hraised⟩ := discreet_next hkept.traced hopens.1 hopens.2
    rcases hdiscloses with hcompares | ⟨event, hevent, hsecret⟩ | ⟨message, hmessage, hsecret⟩
    · exact absurd hcompares hopens.1
    · rw [hraised event hevent] at hsecret
      cases hsecret
    · exact hkept.proved (hsaid message hmessage hsecret)

end Kept

/-- A PIN input before the peer has said anything is compared, and the PIN held to be proved. -/
theorem secrets_opened_to_a_stranger :
    let start := Handshake.new .server { pin := .required "1234" } .pending 0
    let input : HandshakeOp := .handleMessage (.control (.connectionPinInput (some "1234"))) 1
    (handshake.next start input).localPinState = .pinOk ∧ ¬SecretsKept start [input] := by
  intro start input
  refine ⟨by decide +kernel, fun h => ?_⟩
  have hcompleted := h [] input List.prefix_rfl (.inl ⟨rfl, rfl, rfl⟩)
  exact absurd hcompleted.cmi.2 (by simp [heardIn, Machine.collect])

/-- A PIN input after the selection of the protocol. -/
theorem secrets_kept_server :
    let version : MessageProtocolHandshakeVersion := ⟨some 1, some 0⟩
    let input : HandshakeOp := .handleMessage (.control (.connectionPinInput (some "1234"))) 5
    let before : List HandshakeOp :=
      [.handleMessage .cmi 1,
        .handleMessage (.control (.connectionHello { phase := some .ready, waiting := some 60000 })) 2,
        .handleMessage (.control (.messageProtocolHandshake
          ⟨some .announceMax, some version, some (some ["JSON-UTF8"])⟩)) 3,
        .handleMessage (.control (.messageProtocolHandshake
          ⟨some .select, some version, some (some ["JSON-UTF8"])⟩)) 4]
    let start := Handshake.new .server { pin := .required "1234" } (.trusted .userVerified) 0
    input.Discloses (handshake.run start before) ∧
      Completed (saidIn start before) (heardIn start before) := by
  intro version input before start
  have hphase : (handshake.run start before).phase = .pin := by decide +kernel
  have hdiscloses : input.Discloses (handshake.run start before) :=
    .inl ⟨by decide +kernel, by decide +kernel, rfl⟩
  refine ⟨hdiscloses,
    secrets_kept .server _ _ 0 (before ++ [input]) ?_ before input List.prefix_rfl hdiscloses⟩
  intro earlier op hprefix hopens
  rcases List.prefix_concat_iff.mp hprefix with heq | hearlier
  · exact ⟨before, by rw [(List.append_inj' heq rfl).1], hphase⟩
  · -- none of the messages before opens anything
    have hmem : op ∈ before := hearlier.subset (List.mem_append_right _ (List.mem_singleton_self op))
    simp only [before, List.mem_cons, List.not_mem_nil, or_false] at hmem
    rcases hmem with rfl | rfl | rfl | rfl <;>
      exact absurd hopens (by simp [HandshakeOp.Compares, HandshakeOp.TakesKeys])

end Eebus.Ship
