import Eebus.Ship.DataPhase
import Eebus.Ship.Patience
import Eebus.Ship.Script

/-!
A handshake keeps to its script: where it stands in each phase, and how the hello and the protocol
handshake take it on.
-/

namespace Eebus.Ship

open Eebus.Library

variable {configs : Role → HandshakeConfig} {role : Role}

variable {hello : ConnectionHello} {msg : MessageProtocolHandshake}

namespace Handshake

def lock (hs : Handshake) : PinLock where
  pin := hs.config.pin
  state := hs.localPinState
  attempts := hs.pinAttempts
  barred := hs.pinPenaltyUntil.isSome

structure Origin where
  sent : Progress
  queue : List ShipMessage
  lock : PinLock

variable {base : Origin} {said heard : Progress} {hs hs' : Handshake} {now : Nat}

/-- The node in this role plays by its configuration, has settled on nothing but the common choice, has
not been surprised, and what it has queued since `base` continues the script up to `said`. -/
structure Kept (configs : Role → HandshakeConfig) (role : Role) (base : Origin) (said : Progress)
    (hs : Handshake) : Prop where
  role_eq : hs.role = role
  opened : hs.cmiSent = true
  version : hs.config.maxVersion = (configs role).maxVersion
  formats : hs.config.formats = (configs role).formats
  settled : hs.negotiated = none ∨ hs.negotiated = choice configs
  unsurprised : ∀ phase, .aborted (.unexpectedMessage phase) ∉ hs.events
  locked : hs.lock = base.lock
  grown : base.queue <+: hs.outbox
  queued : hs.outbox.foldlM (Progress.say configs role) base.sent = some said

/-- Where a node stands, by its phase, when it has said and heard so much. -/
inductive Stands (configs : Role → HandshakeConfig) (role : Role) (said heard : Progress)
    (hs : Handshake) : Prop
  | cmi (phase : hs.phase = .cmi) (said_eq : said = ⟨.opened, false⟩) (heard_eq : heard = ⟨.silent, false⟩)
    (waiting : hs.helloLocalReady = false ∧ hs.helloRemoteReady = false ∧ hs.proposed = none)
    (timers : hs.timers.sendProlongation = none ∧ hs.timers.pinPenalty = none)
  | hello (phase : hs.phase = .hello)
    (said_eq : said = ⟨if hs.helloLocalReady then .ready else .opened, false⟩)
    (heard_eq : heard = ⟨if hs.helloRemoteReady then .ready else .opened, false⟩)
    (waiting : (hs.helloLocalReady && hs.helloRemoteReady) = false ∧ hs.proposed = none)
    (timers : hs.timers.pinPenalty = none)
  | announced (phase : hs.phase = .protocolHandshake) (role_eq : role = .client)
    (said_eq : said = ⟨.proposed, false⟩) (heard_eq : heard = ⟨.ready, false⟩)
    (timers : hs.timers.sendProlongation = none ∧ hs.timers.pinPenalty = none)
  | listening (phase : hs.phase = .protocolHandshake) (role_eq : role = .server)
    (said_eq : said = ⟨.ready, false⟩) (heard_eq : heard = ⟨.ready, false⟩) (proposed : hs.proposed = none)
    (timers : hs.timers.sendProlongation = none ∧ hs.timers.pinPenalty = none)
  | selected (phase : hs.phase = .protocolHandshake) (role_eq : role = .server)
    (said_eq : said = ⟨.proposed, false⟩) (heard_eq : heard = ⟨.proposed, false⟩)
    (proposed : hs.proposed.isSome ∧ (choice configs).map selectionOf = hs.proposed)
    (timers : hs.timers.sendProlongation = none ∧ hs.timers.pinPenalty = none)
  | confirmed (phase : hs.phase = .pin) (said_eq : said = ⟨.pinned, false⟩)
    (heard_eq : heard = ⟨Stage.pinned.needs role, false⟩) (timers : hs.timers.sendProlongation = none)
  | heldUp (phase : hs.phase = .pin) (said_eq : said = ⟨.pinned, false⟩)
    (heard_eq : heard = ⟨.pinned, false⟩)
    (held : hs.localPinState = .required ∧ hs.peerPinState.isSome = true)
    (timers : hs.timers.sendProlongation = none)
  | exchanging (phase : hs.phase = .dataExchange) (said_eq : said = ⟨.pinned, false⟩)
    (heard_eq : heard = ⟨.pinned, false⟩) (met : hs.localPinState ≠ .required)
    (timers : hs.timers.sendProlongation = none)
  | closing (phase : hs.phase = .closing) (said_eq : said.closing = true)
    (heard_eq : heard.closing = false)
  | ended (hover : hs.isOver = true)

structure Scripted (configs : Role → HandshakeConfig) (role : Role) (base : Origin) (said heard : Progress)
    (hs : Handshake) : Prop where
  kept : hs.Kept configs role base said
  needs : (said.stage.needs role).rank ≤ heard.stage.rank
  stands : hs.Stands configs role said heard

def FollowsScript (configs : Role → HandshakeConfig) (role : Role) (base : Origin) (heard : Progress)
    (hs : Handshake) : Prop := ∃ said, hs.Scripted configs role base said heard

def FollowsEased (configs : Role → HandshakeConfig) (role : Role) (base : Origin) (heard : Progress)
    (hs : Handshake) : Prop :=
  ∃ lock, (lock = base.lock ∨ lock = { base.lock with barred := false }) ∧
    hs.FollowsScript configs role { base with lock := lock } heard

theorem FollowsScript.steady (h : hs.FollowsScript configs role base heard) :
    hs.FollowsEased configs role base heard := ⟨base.lock, .inl rfl, h⟩

namespace Kept

section

variable (h : hs.Kept configs role base said)

include h

theorem relock {lock : PinLock}
    (hfixed : hs'.role = hs.role ∧ hs'.cmiSent = hs.cmiSent ∧ hs'.lock = lock)
    (hconfig : hs'.config.maxVersion = hs.config.maxVersion ∧ hs'.config.formats = hs.config.formats)
    (hnegotiated : hs'.negotiated = hs.negotiated) (hevents : hs'.events = hs.events)
    (hout : hs'.outbox = hs.outbox) : hs'.Kept configs role { base with lock := lock } said := by
  refine ⟨hfixed.1.trans h.role_eq, hfixed.2.1.trans h.opened, hconfig.1.trans h.version,
    hconfig.2.trans h.formats, ?_, ?_, hfixed.2.2, ?_, ?_⟩
  · rw [hnegotiated]
    exact h.settled
  · rw [hevents]
    exact h.unsurprised
  · rw [hout]
    exact h.grown
  · rw [hout]
    exact h.queued

theorem set (hfixed : hs'.role = hs.role ∧ hs'.cmiSent = hs.cmiSent ∧ hs'.lock = hs.lock)
    (hconfig : hs'.config.maxVersion = hs.config.maxVersion ∧ hs'.config.formats = hs.config.formats)
    (hnegotiated : hs'.negotiated = hs.negotiated) (hevents : hs'.events = hs.events)
    (hout : hs'.outbox = hs.outbox) : hs'.Kept configs role base said :=
  h.relock ⟨hfixed.1, hfixed.2.1, hfixed.2.2.trans h.locked⟩ hconfig hnegotiated hevents hout

theorem send {said' : Progress} {message : ShipMessage}
    (hmessage : said.say configs role message = some said') :
    (hs.send message).Kept configs role base said' := by
  refine ⟨h.role_eq, h.opened, h.version, h.formats, h.settled, h.unsurprised, h.locked,
    h.grown.trans (List.prefix_append _ _), ?_⟩
  change (hs.outbox ++ [message]).foldlM _ base.sent = _
  rw [List.foldlM_append, h.queued]
  simpa using hmessage

theorem report {event : HandshakeEvent}
    (hevent : ∀ phase, event ≠ .aborted (.unexpectedMessage phase)) :
    (hs.report event).Kept configs role base said := by
  refine ⟨h.role_eq, h.opened, h.version, h.formats, h.settled, fun phase hmem => ?_, h.locked,
    h.grown, h.queued⟩
  rcases List.mem_append.mp hmem with hmem | hmem
  · exact h.unsurprised phase hmem
  · exact hevent phase (List.mem_singleton.mp hmem).symm

theorem abort {reason : AbortReason} (hreason : ∀ phase, reason ≠ .unexpectedMessage phase) :
    (hs.abort reason).Kept configs role base said := by
  unfold Handshake.abort
  split
  · exact h
  · refine report ?_ (fun phase heq => hreason phase (HandshakeEvent.aborted.inj heq))
    exact h.set ⟨rfl, rfl, rfl⟩ ⟨rfl, rfl⟩ rfl rfl rfl

theorem finish (why : String) : (hs.finish (.closed why)).Kept configs role base said := by
  unfold Handshake.finish
  split
  · exact h
  · refine report ?_ nofun
    exact h.set ⟨rfl, rfl, rfl⟩ ⟨rfl, rfl⟩ rfl rfl rfl

end

end Kept

theorem Kept.ended (h : hs.Kept configs role base said) (hover : hs.isOver = true)
    (hneeds : (said.stage.needs role).rank ≤ heard.stage.rank) :
    hs.FollowsScript configs role base heard := ⟨said, h, hneeds, .ended hover⟩

theorem Kept.aborted (h : hs.Kept configs role base said) {reason : AbortReason}
    (hreason : ∀ phase, reason ≠ .unexpectedMessage phase)
    (hneeds : (said.stage.needs role).rank ≤ heard.stage.rank) :
    (hs.abort reason).FollowsScript configs role base heard :=
  (h.abort hreason).ended (abort_isOver reason) hneeds

theorem Kept.finished (h : hs.Kept configs role base said) (why : String)
    (hneeds : (said.stage.needs role).rank ≤ heard.stage.rank) :
    (hs.finish (.closed why)).FollowsScript configs role base heard :=
  (h.finish why).ended (finish_isOver _) hneeds

theorem armProlongation_timers (hs : Handshake) (now : Nat) : ∃ slot, hs.armProlongation now =
    { hs with timers := { hs.timers with sendProlongation := slot } } := by
  unfold armProlongation
  dsimp only
  repeat' split
  all_goals exact ⟨_, rfl⟩

structure InHello (configs : Role → HandshakeConfig) (role : Role) (base : Origin) (said heard : Progress)
    (hs : Handshake) : Prop where
  kept : hs.Kept configs role base said
  phase : hs.phase = .hello
  said_eq : said = ⟨if hs.helloLocalReady then .ready else .opened, false⟩
  heard_eq : heard = ⟨if hs.helloRemoteReady then .ready else .opened, false⟩
  proposed : hs.proposed = none
  timers : hs.timers.pinPenalty = none

namespace InHello

theorem needs (h : hs.InHello configs role base said heard) :
    (said.stage.needs role).rank ≤ heard.stage.rank := by
  have hsaid := h.said_eq
  split at hsaid
  all_goals
    rw [hsaid]
    cases role <;> exact Nat.zero_le _

theorem scripted (h : hs.InHello configs role base said heard)
    (hwaiting : (hs.helloLocalReady && hs.helloRemoteReady) = false) :
    hs.FollowsScript configs role base heard :=
  ⟨said, h.kept, h.needs, .hello h.phase h.said_eq h.heard_eq ⟨hwaiting, h.proposed⟩ h.timers⟩

theorem unheard (h : hs.InHello configs role base said ⟨.opened, false⟩) :
    (hs.helloLocalReady && hs.helloRemoteReady) = false := by
  have hremote := h.heard_eq
  cases hready : hs.helloRemoteReady with
  | false => exact Bool.and_false _
  | true =>
    rw [hready] at hremote
    cases hremote

section

variable (h : hs.InHello configs role base said heard)

include h

theorem set (hkept : hs'.Kept configs role base said) (hphase : hs'.phase = hs.phase)
    (hlocal : hs'.helloLocalReady = hs.helloLocalReady)
    (hremote : hs'.helloRemoteReady = hs.helloRemoteReady) (hproposed : hs'.proposed = hs.proposed)
    (htimers : hs'.timers.pinPenalty = hs.timers.pinPenalty) :
    hs'.InHello configs role base said heard :=
  ⟨hkept, hphase.trans h.phase, by rw [hlocal]; exact h.said_eq, by rw [hremote]; exact h.heard_eq,
    hproposed.trans h.proposed, htimers.trans h.timers⟩

theorem arm : (hs.armProlongation now).InHello configs role base said heard := by
  obtain ⟨slot, harm⟩ := armProlongation_timers hs now
  rw [harm]
  exact h.set (h.kept.set ⟨rfl, rfl, rfl⟩ ⟨rfl, rfl⟩ rfl rfl rfl) rfl rfl rfl rfl rfl

theorem say_again
    (hphase : hello.phase = some hs.helloPhase) (hwaiting : hello.waiting.isSome = true) :
    said.say configs role (.control (.connectionHello hello)) = some said := by
  have hsaid := h.said_eq
  unfold helloPhase at hphase
  split at hsaid
  all_goals
    rename_i hready
    rw [hsaid, Progress.say_control]
    simp [Stage.after, Stage.afterHello, hphase, hready, hwaiting]

theorem say
    (hphase : hello.phase = some hs.helloPhase) (hwaiting : hello.waiting.isSome = true) :
    (hs.send (.control (.connectionHello hello))).InHello configs role base said heard :=
  h.set (h.kept.send (h.say_again hphase hwaiting)) rfl rfl rfl rfl rfl

theorem announceHelloAs {phase : ConnectionHelloPhase} (hphase : phase = hs.helloPhase) :
    (hs.announceHelloAs phase now).InHello configs role base said heard := by
  unfold Handshake.announceHelloAs
  refine arm ?_
  have hsaid : (hs.send (.control (.connectionHello
      { phase := some phase, waiting := some (millis hs.config.helloInit),
        keyMaterialState := hs.helloKeyMaterial }))).InHello configs role base said heard :=
    h.say (congrArg some hphase) rfl
  exact hsaid.set (hsaid.kept.set ⟨rfl, rfl, rfl⟩ ⟨rfl, rfl⟩ rfl rfl rfl) rfl rfl rfl rfl rfl

theorem say_ready
    (hphase : hello.phase = some .ready) (hwaiting : hello.waiting.isSome = true) :
    said.say configs role (.control (.connectionHello hello)) = some ⟨.ready, false⟩ := by
  have hsaid := h.said_eq
  split at hsaid
  all_goals
    rw [hsaid, Progress.say_control]
    simp [Stage.after, Stage.afterHello, hphase, hwaiting]

theorem say_refusal (hphase : hello.phase = some .aborted) :
    said.say configs role (.control (.connectionHello hello)) = some said := by
  have hsaid := h.said_eq
  split at hsaid
  all_goals
    rw [hsaid, Progress.say_control]
    simp [Stage.after, Stage.afterHello, hphase]

theorem announceReady :
    ({ hs with helloLocalReady := true }.announceHelloAs .ready now).InHello configs role base
      ⟨.ready, false⟩ heard := by
  unfold Handshake.announceHelloAs
  refine arm ⟨?_, h.phase, rfl, h.heard_eq, h.proposed, h.timers⟩
  have hready : said.say configs role (.control (.connectionHello
      { phase := some .ready, waiting := some (millis hs.config.helloInit),
        keyMaterialState := hs.helloKeyMaterial })) = some ⟨.ready, false⟩ := h.say_ready rfl rfl
  exact (h.kept.send hready).set ⟨rfl, rfl, rfl⟩ ⟨rfl, rfl⟩ rfl rfl rfl

theorem announceHello (now : Nat)
    (hpending : hs.trust = .pending → hs.helloLocalReady = false) :
    (∃ said', (hs.announceHello now).InHello configs role base said' heard) ∨
      ((hs.announceHello now).FollowsScript configs role base heard ∧
        (hs.announceHello now).isOver = true ∧
        (hs.announceHello now).helloLocalReady = hs.helloLocalReady ∧
        (hs.announceHello now).helloRemoteReady = hs.helloRemoteReady) := by
  have hrunning : hs.isOver = false := by rw [isOver, h.phase]
  have hrefused : hs.refuseHello.FollowsScript configs role base heard ∧ hs.refuseHello.isOver = true ∧
      hs.refuseHello.helloLocalReady = hs.helloLocalReady ∧
      hs.refuseHello.helloRemoteReady = hs.helloRemoteReady := by
    refine ⟨?_, abort_isOver _, ?_, ?_⟩
    · exact (h.kept.send (h.say_refusal rfl)).aborted (fun _ h => by cases h) h.needs
    all_goals
      simp only [refuseHello, abort]
      split <;> rfl
  unfold Handshake.announceHello
  split
  · split
    · exact .inr hrefused
    · exact .inl ⟨_, h.announceReady⟩
  case h_2 htrust =>
    left
    have hlocal : hs.helloLocalReady = false := hpending htrust
    dsimp only
    split
    · exact ⟨said, h.announceHelloAs (by simp [helloPhase, hlocal])⟩
    · refine ⟨said, announceHelloAs ?_ (by simp [helloPhase, hlocal, report])⟩
      refine h.set (Kept.report ?_ fun _ h => by cases h) rfl rfl rfl rfl rfl
      exact h.kept.set ⟨rfl, rfl, rfl⟩ ⟨rfl, rfl⟩ rfl rfl rfl
  · exact .inr hrefused

theorem noteHello (hello : ConnectionHello) :
    (hs.noteHello hello now).InHello configs role base said heard := by
  have hwaits : ∀ {hs : Handshake}, hs.InHello configs role base said heard → ∀ waiting deadline,
      { hs with helloPeerWaiting := waiting, helloPeerDeadline := deadline }.InHello configs role base
        said heard :=
    fun h _ _ => h.set (h.kept.set ⟨rfl, rfl, rfl⟩ ⟨rfl, rfl⟩ rfl rfl rfl) rfl rfl rfl rfl rfl
  have hreports : ∀ {hs : Handshake}, hs.InHello configs role base said heard → ∀ counter,
      (hs.report (.peerKeyMaterialCounter counter)).InHello configs role base said heard :=
    fun h _ => h.set (h.kept.report nofun) rfl rfl rfl rfl rfl
  unfold Handshake.noteHello
  cases hello.waiting with
  | none =>
    dsimp only
    split
    · exact hreports h _
    · exact h
  | some ms =>
    dsimp only
    split
    · exact hreports (hwaits h _ _) _
    · exact hwaits h _ _

theorem continueHello (hello : ConnectionHello) :
    (hs.continueHello hello now).InHello configs role base said heard := by
  have harmed : ∀ {hs : Handshake}, hs.InHello configs role base said heard →
      (if hs.phase = .hello then hs.armProlongation now else hs).InHello configs role base said heard := by
    intro hs h
    split
    · exact h.arm
    · exact h
  unfold Handshake.continueHello Handshake.acceptProlongation
  refine harmed ?_
  split
  · refine say ?_ rfl rfl
    exact h.set (h.kept.set ⟨rfl, rfl, rfl⟩ ⟨rfl, rfl⟩ rfl rfl rfl) rfl rfl rfl rfl rfl
  · exact h

theorem enterProtocolHandshake (hboth : hs.helloLocalReady = true ∧ hs.helloRemoteReady = true)
    (htimers : hs.timers.sendProlongation = none) :
    (hs.enterProtocolHandshake now).FollowsScript configs role base heard ∧
      (hs.enterProtocolHandshake now).phase = .protocolHandshake := by
  have hsaid : said = ⟨.ready, false⟩ := by rw [h.said_eq, if_pos hboth.1]
  have hheard : heard = ⟨.ready, false⟩ := by rw [h.heard_eq, if_pos hboth.2]
  have hentered : ({ hs with
      phase := .protocolHandshake
      timers := { hs.timers with wait := some (now + hs.config.waitTimer) } } :
      Handshake).Kept configs role base said := h.kept.set ⟨rfl, rfl, rfl⟩ ⟨rfl, rfl⟩ rfl rfl rfl
  unfold Handshake.enterProtocolHandshake
  dsimp only
  split
  case h_1 hrole =>
    have hclient : role = .client := h.kept.role_eq.symm.trans hrole
    subst hclient
    have hoffer : said.say configs .client (.control (.messageProtocolHandshake
        ⟨some .announceMax, some ⟨some hs.config.maxVersion.major, some hs.config.maxVersion.minor⟩,
          some (some hs.config.formats)⟩)) = some ⟨.proposed, false⟩ := by
      rw [hsaid, Progress.say_control, h.kept.version, h.kept.formats]
      simp [Stage.after, Stage.afterProtocol, offer]
    have hturn : (Stage.proposed.needs .client).rank ≤ Stage.ready.rank := by decide
    exact ⟨⟨_, hentered.send hoffer, hheard ▸ hturn, .announced rfl rfl rfl hheard ⟨htimers, h.timers⟩⟩,
      rfl⟩
  case h_2 hrole =>
    have hserver : role = .server := h.kept.role_eq.symm.trans hrole
    exact ⟨⟨said, hentered, h.needs, .listening rfl hserver hsaid hheard h.proposed ⟨htimers, h.timers⟩⟩,
      rfl⟩

theorem tryFinishHello (now : Nat) :
    (hs.tryFinishHello now = hs ∧ (hs.helloLocalReady && hs.helloRemoteReady) = false) ∨
      ((hs.tryFinishHello now).FollowsScript configs role base heard ∧
        (hs.tryFinishHello now).phase = .protocolHandshake) := by
  unfold Handshake.tryFinishHello
  split
  case isTrue hboth =>
    rw [Bool.and_eq_true] at hboth
    right
    refine enterProtocolHandshake (?_ : InHello configs role base said heard _) hboth rfl
    exact h.set (h.kept.set ⟨rfl, rfl, rfl⟩ ⟨rfl, rfl⟩ rfl rfl rfl) rfl rfl rfl rfl rfl
  case isFalse hboth => exact .inl ⟨rfl, Bool.not_eq_true _ ▸ hboth⟩

theorem finished : (hs.tryFinishHello now).FollowsScript configs role base heard := by
  obtain ⟨heq, hwaiting⟩ | ⟨hfollows, -⟩ := h.tryFinishHello now
  · rw [heq]
    exact h.scripted hwaiting
  · exact hfollows

theorem continued (hello : ConnectionHello)
    (hwaiting : (hs.helloLocalReady && hs.helloRemoteReady) = false) :
    (hs.continueHello hello now).FollowsScript configs role base heard := by
  have hcore : (hs.continueHello hello now).core = hs.core := continueHello_core hello
  refine (h.continueHello hello).scripted ?_
  rw [← hwaiting]
  exact congrArg (fun c => c.localReady && c.remoteReady) hcore

theorem advanced (hello : ConnectionHello) :
    ((hs.tryFinishHello now).continueHello hello now).FollowsScript configs role base heard := by
  obtain ⟨heq, hwaiting⟩ | ⟨hfollows, hphase⟩ := h.tryFinishHello now
  · rw [heq]
    exact h.continued hello hwaiting
  · have hpast : (hs.tryFinishHello now).continueHello hello now = hs.tryFinishHello now := by
      simp [Handshake.continueHello, hphase]
    rw [hpast]
    exact hfollows

end

end InHello

section

variable (h : hs.Stands configs role said heard)

include h

theorem Stands.listens (hrunning : hs.isOver = false) : heard.closing = false := by
  cases h with
  | closing _ _ heard_eq => exact heard_eq
  | ended hover => simp [hover] at hrunning
  | _ => simp only [*]

theorem Stands.open_of_pin (hphase : hs.phase = .pin) : said.closing = false := by
  cases h with
  | confirmed _ said_eq | heldUp _ said_eq => rw [said_eq]
  | ended hover => simp [isOver, hphase] at hover
  | cmi phase | hello phase | announced phase | listening phase | selected phase | exchanging phase
  | closing phase => cases hphase.symm.trans phase

theorem Stands.heard_of_data (hphase : hs.phase = .dataExchange) :
    heard = ⟨.pinned, false⟩ := by
  cases h with
  | exchanging _ _ heard_eq => exact heard_eq
  | ended hover => simp [isOver, hphase] at hover
  | cmi phase | hello phase | announced phase | listening phase | selected phase | confirmed phase
  | heldUp phase | closing phase => cases hphase.symm.trans phase

theorem Stands.closes (hphase : hs.phase = .closing) : said.closing = true := by
  cases h with
  | closing _ said_eq => exact said_eq
  | ended hover => simp [isOver, hphase] at hover
  | cmi phase | hello phase | announced phase | listening phase | selected phase | confirmed phase
  | heldUp phase | exchanging phase => cases hphase.symm.trans phase

theorem Stands.pinned (hsaid : Stage.pinned.rank ≤ said.stage.rank) :
    said.closing = true ∨ hs.isOver = true ∨ hs.phase = .pin ∨ hs.localPinState ≠ .required := by
  cases h with
  | confirmed phase | heldUp phase => exact .inr (.inr (.inl phase))
  | exchanging _ _ _ met => exact .inr (.inr (.inr met))
  | closing _ said_eq => exact .inl said_eq
  | ended hover => exact .inr (.inl hover)
  | hello _ said_eq =>
    rw [said_eq] at hsaid
    split at hsaid <;> exact absurd hsaid (by decide)
  | cmi _ said_eq | announced _ _ said_eq | listening _ _ said_eq | selected _ _ said_eq =>
    rw [said_eq] at hsaid
    exact absurd hsaid (by decide)

end

namespace Scripted

variable {heard' : Progress}

theorem follows (h : hs.Scripted configs role base said heard) :
    hs.FollowsScript configs role base heard := ⟨said, h⟩

theorem onCmi (h : hs.Scripted configs role base said heard) (hrunning : hs.isOver = false)
    (hclosing : hs.phase ≠ .closing)
    (hheard : heard.hear configs role.other .cmi = some heard') :
    (hs.onCmi now).FollowsScript configs role base heard' := by
  have hopen : heard.closing = false := h.stands.listens hrunning
  simp only [Progress.hear, hopen, Bool.false_eq_true, if_false] at hheard
  split at hheard
  case isFalse => cases hheard
  case isTrue hsilent =>
    cases hheard
    cases h.stands with
    | cmi hphase said_eq _ waiting timers =>
      have hgreets : ({ hs with
          phase := .hello
          cmiReceived := true
          timers := { hs.timers with cmi := none } } :
          Handshake).InHello configs role base said ⟨.opened, false⟩ :=
        ⟨h.kept.set ⟨rfl, rfl, rfl⟩ ⟨rfl, rfl⟩ rfl rfl rfl, rfl, by simp [said_eq, waiting.1],
          by simp [waiting.2.1], waiting.2.2, timers.2⟩
      unfold Handshake.onCmi
      rw [if_neg (not_not.mpr hphase)]
      dsimp only
      rw [if_pos (by rw [h.kept.opened]; rfl)]
      obtain ⟨said', hsaid⟩ | hrefused := hgreets.announceHello now fun _ => waiting.1
      · exact hsaid.scripted hsaid.unheard
      · exact hrefused.1
    | closing hphase => exact absurd hphase hclosing
    | ended hover => simp [hover] at hrunning
    | hello _ _ heard_eq =>
      rw [heard_eq] at hsilent
      split at hsilent <;> cases hsilent
    | confirmed _ _ heard_eq =>
      rw [heard_eq] at hsilent
      cases role <;> cases hsilent
    | _ =>
      simp only [*] at hsilent
      cases hsilent

theorem helloHeard {stage stage' : Stage} (h : hs.InHello configs role base said ⟨stage, false⟩)
    (hwaiting : (hs.helloLocalReady && hs.helloRemoteReady) = false)
    (hheard : stage.afterHello hello = some stage') :
    (hs.onHello hello now).FollowsScript configs role base ⟨stage', false⟩ := by
  have hnoted : (hs.noteHello hello now).InHello configs role base said ⟨stage, false⟩ :=
    h.noteHello hello
  have hcore : (hs.noteHello hello now).core = hs.core := noteHello_core hello
  have hwaiting' : ((hs.noteHello hello now).helloLocalReady &&
      (hs.noteHello hello now).helloRemoteReady) = false := by
    rw [← hwaiting]
    exact congrArg (fun c => c.localReady && c.remoteReady) hcore
  unfold Handshake.onHello
  rw [if_neg (not_not.mpr h.phase)]
  dsimp only
  generalize hs.noteHello hello now = noted at hnoted hwaiting' ⊢
  split
  case h_1 hready =>
    obtain ⟨hnamed, rfl⟩ := Stage.afterHello_ready hready hheard
    rw [if_neg (by simp [Option.isNone_eq_false_iff.mpr hnamed])]
    refine InHello.advanced (?_ : InHello configs role base said _ _) hello
    exact ⟨hnoted.kept.set ⟨rfl, rfl, rfl⟩ ⟨rfl, rfl⟩ rfl rfl rfl, hnoted.phase, hnoted.said_eq, rfl,
      hnoted.proposed, hnoted.timers⟩
  case h_2 hpending =>
    obtain ⟨rfl, rfl⟩ := Stage.afterHello_pending hpending hheard
    have hunready : { noted with
        helloRemoteReady := false
        timers := { noted.timers with prolongationReply := none } }.InHello configs role base said
        ⟨.opened, false⟩ :=
      ⟨hnoted.kept.set ⟨rfl, rfl, rfl⟩ ⟨rfl, rfl⟩ rfl rfl rfl, hnoted.phase, hnoted.said_eq, rfl,
        hnoted.proposed, hnoted.timers⟩
    split
    · refine InHello.continued (?_ : InHello configs role base said _ _) hello (Bool.and_false _)
      exact hunready.set (hunready.kept.report nofun) rfl rfl rfl rfl rfl
    · exact hunready.continued hello (Bool.and_false _)
  case h_3 haborted =>
    obtain rfl := Stage.afterHello_aborted haborted hheard
    exact hnoted.kept.aborted nofun hnoted.needs
  case h_4 hnone => simp [Stage.afterHello, hnone] at hheard

theorem onHello (h : hs.Scripted configs role base said heard) (hrunning : hs.isOver = false)
    (hheard : heard.hear configs role.other (.control (.connectionHello hello)) = some heard') :
    (hs.onHello hello now).FollowsScript configs role base heard' := by
  obtain ⟨stage, closing⟩ := heard
  obtain rfl : closing = false := h.stands.listens hrunning
  obtain ⟨stage', hstage', rfl⟩ := Option.map_eq_some_iff.mp hheard
  -- outside the hello phase nothing is made of it
  have hkeep : hs.phase ≠ .hello → hs.Stands configs role said ⟨stage', false⟩ →
      (hs.onHello hello now).FollowsScript configs role base ⟨stage', false⟩ := by
    intro hphase hstands
    unfold Handshake.onHello
    rw [if_pos hphase]
    have hrank : stage.rank ≤ stage'.rank := Stage.after_rank hstage'
    exact ⟨said, h.kept, h.needs.trans hrank, hstands⟩
  cases h.stands with
  | hello hphase said_eq heard_eq waiting timers =>
    exact helloHeard ⟨h.kept, hphase, said_eq, heard_eq, waiting.2, timers⟩ waiting.1 hstage'
  | announced hphase role_eq said_eq heard_eq timers =>
    cases heard_eq
    obtain rfl := Stage.afterHello_of_ready hstage'
    exact hkeep (by rw [hphase]; decide) (.announced hphase role_eq said_eq rfl timers)
  | listening hphase role_eq said_eq heard_eq proposed timers =>
    cases heard_eq
    obtain rfl := Stage.afterHello_of_ready hstage'
    exact hkeep (by rw [hphase]; decide) (.listening hphase role_eq said_eq rfl proposed timers)
  | closing hphase said_eq =>
    exact hkeep (by rw [hphase]; decide) (.closing hphase said_eq rfl)
  | ended hover => simp [hover] at hrunning
  | cmi _ _ heard_eq | selected _ _ _ heard_eq | heldUp _ _ heard_eq | exchanging _ _ heard_eq =>
    cases heard_eq
    exact absurd (Stage.afterHello_early hstage') (by decide)
  | confirmed _ _ heard_eq =>
    cases heard_eq
    cases role <;> exact absurd (Stage.afterHello_early hstage') (by decide)

end Scripted

theorem readVersion_selectionOf (chosen : ShipVersion × String) :
    readVersion (selectionOf chosen) = some chosen.1 := rfl

theorem Kept.selectVersion (h : hs.Kept configs .server base said)
    (hmajor : ∀ role, 1 ≤ (configs role).maxVersion.major) : hs.selectVersion (offer configs) =
      some (lowerVersion (configs .client).maxVersion (configs .server).maxVersion) := by
  have hchosen := lowerVersion_major (hmajor .client) (hmajor .server)
  have hread : readVersion (offer configs) = some (configs .client).maxVersion := rfl
  simp only [Handshake.selectVersion, hread, Option.bind_some, h.version]
  exact if_pos hchosen

theorem Kept.selectFormat (h : hs.Kept configs .server base said) :
    hs.selectFormat (offer configs) =
      (configs .server).formats.find? fun ours => (configs .client).formats.contains ours := by
  rw [← h.formats]
  rfl

theorem Kept.failProtocol (h : hs.Kept configs role base said) (hphase : hs.phase = .protocolHandshake)
    (error : Nat) {reason : AbortReason} (hreason : ∀ phase, reason ≠ .unexpectedMessage phase)
    (hneeds : (said.stage.needs role).rank ≤ heard.stage.rank) :
    (hs.failProtocol error reason).FollowsScript configs role base heard := by
  unfold Handshake.failProtocol Handshake.sendProtocolError
  rw [if_pos hphase]
  refine Kept.aborted (h.send ?_) hreason hneeds
  obtain ⟨stage, closing⟩ := said
  cases closing <;> rfl

theorem Kept.sendPinState (h : hs.Kept configs role base said)
    (hstage : said.stage = .pinned ∨ said.stage = Stage.pinned.needs role.other)
    (hopen : said.closing = false) : hs.sendPinState.Kept configs role base ⟨.pinned, false⟩ :=
  h.send (Progress.hear_pinState rfl hstage hopen)

theorem Kept.enterPin (h : hs.Kept configs role base said)
    (hstage : said.stage = Stage.pinned.needs role.other) (hopen : said.closing = false)
    (hheard : heard = ⟨Stage.pinned.needs role, false⟩)
    (htimers : hs.timers.sendProlongation = none) :
    (hs.enterPin now).FollowsScript configs role base heard := by
  refine ⟨⟨.pinned, false⟩, ?_, ?_, .confirmed rfl rfl hheard htimers⟩
  · refine sendPinState (?_ : Kept configs role base said _) (.inr hstage) hopen
    exact h.set ⟨rfl, rfl, rfl⟩ ⟨rfl, rfl⟩ rfl rfl rfl
  · rw [hheard]

theorem Kept.proposeProtocol (h : hs.Kept configs .server base ⟨.ready, false⟩)
    (hmajor : ∀ role, 1 ≤ (configs role).maxVersion.major) (hphase : hs.phase = .protocolHandshake)
    (htimers : hs.timers.sendProlongation = none ∧ hs.timers.pinPenalty = none) :
    (hs.proposeProtocol (offer configs) now).FollowsScript configs .server base ⟨.proposed, false⟩ := by
  have hneeds : (Stage.ready.needs .server).rank ≤ Stage.proposed.rank := by decide
  unfold Handshake.proposeProtocol
  rw [if_neg (by simp [offer]), h.selectVersion hmajor, h.selectFormat]
  cases hformat : (configs .server).formats.find? fun ours => (configs .client).formats.contains ours with
  | none => exact h.failProtocol hphase 3 nofun hneeds
  | some format =>
    have hchoice : choice configs = some (lowerVersion (configs .client).maxVersion
        (configs .server).maxVersion, format) := by rw [choice, hformat]; rfl
    have hnegotiated : ({ hs with
        proposed := some (selectionOf (lowerVersion (configs .client).maxVersion
          (configs .server).maxVersion, format))
        negotiated := some (lowerVersion (configs .client).maxVersion (configs .server).maxVersion,
          format) } : Handshake).Kept configs .server base ⟨.ready, false⟩ :=
      ⟨h.role_eq, h.opened, h.version, h.formats, .inr hchoice.symm, h.unsurprised, h.locked,
        h.grown, h.queued⟩
    have hselects : (⟨.ready, false⟩ : Progress).say configs .server (.control
        (.messageProtocolHandshake (selectionOf (lowerVersion (configs .client).maxVersion
          (configs .server).maxVersion, format)))) = some ⟨.proposed, false⟩ := by
      rw [Progress.say_control]
      simp [Stage.after, Stage.afterProtocol, hchoice]
    refine ⟨⟨.proposed, false⟩, (hnegotiated.send hselects).set ⟨rfl, rfl, rfl⟩ ⟨rfl, rfl⟩ rfl rfl rfl,
      by decide, ?_⟩
    exact .selected hphase rfl rfl rfl ⟨rfl, by rw [hchoice]; rfl⟩ htimers

theorem Kept.confirmProtocol (h : hs.Kept configs .client base ⟨.proposed, false⟩)
    (hmajor : ∀ role, 1 ≤ (configs role).maxVersion.major)
    (hmsg : (choice configs).map selectionOf = some msg)
    (htimers : hs.timers.sendProlongation = none) :
    (hs.confirmProtocol msg now).FollowsScript configs .client base ⟨.proposed, false⟩ := by
  obtain ⟨chosen, hchoice, rfl⟩ := Option.map_eq_some_iff.mp hmsg
  obtain ⟨format, hformat, rfl⟩ := Option.map_eq_some_iff.mp hchoice
  have hversion : hs.supportsVersion
      (lowerVersion (configs .client).maxVersion (configs .server).maxVersion) = true := by
    simp only [Handshake.supportsVersion, Bool.and_eq_true, decide_eq_true_eq]
    rw [h.version]
    exact ⟨lowerVersion_major (hmajor .client) (hmajor .server), lowerVersion_le _ _⟩
  have hoffered : hs.config.formats.contains format = true := by
    rw [h.formats]
    exact List.find?_some hformat
  have hnegotiated : ({ hs with
      negotiated := some (lowerVersion (configs .client).maxVersion (configs .server).maxVersion,
        format) } : Handshake).Kept configs .client base ⟨.proposed, false⟩ :=
    ⟨h.role_eq, h.opened, h.version, h.formats, .inr hchoice.symm, h.unsurprised, h.locked,
      h.grown, h.queued⟩
  have hechoes : (⟨.proposed, false⟩ : Progress).say configs .client (.control
      (.messageProtocolHandshake (selectionOf (lowerVersion (configs .client).maxVersion
        (configs .server).maxVersion, format)))) = some ⟨.confirmed, false⟩ := by
    rw [Progress.say_control]
    simp [Stage.after, Stage.afterProtocol, hchoice]
  unfold Handshake.confirmProtocol
  rw [if_neg (by simp [selectionOf]), readVersion_selectionOf]
  simp only [Option.filter_some, hversion, if_true]
  dsimp only [selectionOf, readFormats, Option.bind_some, id, Option.getD_some]
  rw [if_neg (by simp only [hoffered]; decide)]
  exact (hnegotiated.send hechoes).enterPin rfl rfl rfl htimers

theorem onProtocolHandshake_server (hrole : hs.role = .server)
    (hphase : hs.phase = .protocolHandshake) :
    hs.onProtocolHandshake msg now =
      if hs.proposed = none then
        { hs with timers := { hs.timers with wait := none } }.proposeProtocol msg now
      else if hs.proposed ≠ some msg then
        { hs with timers := { hs.timers with wait := none } }.failProtocol 3 .selectionMismatch
      else { hs with timers := { hs.timers with wait := none } }.enterPin now := by
  unfold Handshake.onProtocolHandshake
  rw [if_neg (not_not.mpr hphase)]
  dsimp only
  split
  · rfl
  case h_2 hclient => simp [hrole] at hclient

theorem onProtocolHandshake_client (hrole : hs.role = .client)
    (hphase : hs.phase = .protocolHandshake) :
    hs.onProtocolHandshake msg now =
      { hs with timers := { hs.timers with wait := none } }.confirmProtocol msg now := by
  unfold Handshake.onProtocolHandshake
  rw [if_neg (not_not.mpr hphase)]
  dsimp only
  split
  case h_1 hserver => simp [hrole] at hserver
  · rfl

namespace Scripted

variable {heard' : Progress}

theorem hello_complete (h : hs.Scripted configs role base said ⟨.ready, false⟩)
    (hrunning : hs.isOver = false) (hclosing : hs.phase ≠ .closing)
    (hsaid : Stage.ready.rank ≤ said.stage.rank) :
    hs.phase = .protocolHandshake ∧ said = ⟨Stage.proposed.needs role.other, false⟩ ∧
      (role = .server → hs.proposed = none) ∧
      hs.timers.sendProlongation = none ∧ hs.timers.pinPenalty = none := by
  cases h.stands with
  | hello hphase said_eq heard_eq waiting timers =>
    have hremote : hs.helloRemoteReady = true := by
      cases hready : hs.helloRemoteReady with
      | true => rfl
      | false => simp [hready] at heard_eq
    have hlocal : hs.helloLocalReady = false := by simpa [hremote] using waiting.1
    rw [said_eq, hlocal] at hsaid
    exact absurd hsaid (by decide)
  | announced hphase role_eq said_eq _ timers =>
    subst role_eq
    exact ⟨hphase, said_eq, nofun, timers⟩
  | listening hphase role_eq said_eq _ proposed timers =>
    subst role_eq
    exact ⟨hphase, said_eq, fun _ => proposed, timers⟩
  | confirmed _ _ heard_eq => cases role <;> cases heard_eq
  | closing hphase => exact absurd hphase hclosing
  | ended hover => simp [hover] at hrunning
  | cmi _ _ heard_eq | selected _ _ _ heard_eq | heldUp _ _ heard_eq | exchanging _ _ heard_eq =>
    cases heard_eq

theorem selection_out (h : hs.Scripted configs .server base said ⟨.proposed, false⟩)
    (hrunning : hs.isOver = false) (hclosing : hs.phase ≠ .closing) :
    hs.phase = .protocolHandshake ∧ said = ⟨.proposed, false⟩ ∧
      (choice configs).map selectionOf = hs.proposed ∧ hs.timers.sendProlongation = none := by
  cases h.stands with
  | selected hphase _ said_eq _ proposed timers => exact ⟨hphase, said_eq, proposed.2, timers.1⟩
  | hello _ _ heard_eq => split at heard_eq <;> cases heard_eq
  | closing hphase => exact absurd hphase hclosing
  | ended hover => simp [hover] at hrunning
  | announced _ role_eq => cases role_eq
  | cmi _ _ heard_eq | listening _ _ _ heard_eq | confirmed _ _ heard_eq | heldUp _ _ heard_eq
  | exchanging _ _ heard_eq => cases heard_eq

theorem onProtocolHandshake (h : hs.Scripted configs role base said heard)
    (hmajor : ∀ role, 1 ≤ (configs role).maxVersion.major) (hrunning : hs.isOver = false)
    (hclosing : hs.phase ≠ .closing)
    (hheard : heard.hear configs role.other (.control (.messageProtocolHandshake msg)) = some heard')
    (hturn : (heard'.stage.needs role.other).rank ≤ said.stage.rank) :
    (hs.onProtocolHandshake msg now).FollowsScript configs role base heard' := by
  obtain ⟨stage, closing⟩ := heard
  obtain rfl : closing = false := h.stands.listens hrunning
  obtain ⟨stage', hstage', rfl⟩ := Option.map_eq_some_iff.mp hheard
  have hkept : ({ hs with timers := { hs.timers with wait := none } } : Handshake).Kept configs role base
      said := h.kept.set ⟨rfl, rfl, rfl⟩ ⟨rfl, rfl⟩ rfl rfl rfl
  obtain ⟨hother, rfl, rfl, rfl⟩ | ⟨hother, rfl, rfl, hmsg⟩ | ⟨hother, rfl, rfl, hmsg⟩ :=
    Stage.afterProtocol_cases hstage'
  · -- the client's announcement
    obtain rfl : role = .server := by cases role <;> first | rfl | cases hother
    obtain ⟨hphase, rfl, hproposed, htimers⟩ := h.hello_complete hrunning hclosing hturn
    rw [onProtocolHandshake_server h.kept.role_eq hphase, if_pos (hproposed rfl)]
    exact hkept.proposeProtocol hmajor hphase htimers
  · -- its confirmation
    obtain rfl : role = .server := by cases role <;> first | rfl | cases hother
    obtain ⟨hphase, rfl, hproposed, htimers⟩ := h.selection_out hrunning hclosing
    have hagreed : hs.proposed = some msg := hproposed.symm.trans hmsg
    rw [onProtocolHandshake_server h.kept.role_eq hphase, if_neg (by rw [hagreed]; nofun),
      if_neg (not_not.mpr hagreed)]
    exact hkept.enterPin rfl rfl rfl htimers
  · -- the server's selection
    obtain rfl : role = .client := by cases role <;> first | rfl | cases hother
    obtain ⟨hphase, rfl, -, htimers⟩ := h.hello_complete hrunning hclosing
      (Nat.le_trans (by decide) hturn)
    rw [onProtocolHandshake_client h.kept.role_eq hphase]
    exact hkept.confirmProtocol hmajor hmsg htimers.1

end Scripted

end Handshake

end Eebus.Ship
