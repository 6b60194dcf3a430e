import Eebus.Ship.ScriptedCalls
import Eebus.Ship.Terminal

/-!
A client and a server at the two ends of a connection, each keeping to its script. Whatever the
interleaving of their calls, their messages and their data, the two settle the same version and format,
and neither is surprised by a message.
-/

namespace Eebus.Ship

open Eebus.Library

inductive NodeCall
  | handleTimeout (now : Nat)
  | trust (level : TrustLevel) (now : Nat)
  | close (reason : ConnectionCloseReason) (maxTime now : Nat)
  | sendPin (pin : String)
  | sendPinIfPermitted
  | sendKeyMaterial (now : Nat)
  | requestKeyMaterial (knownUpdateCounter : Nat)
  | requestAccessMethods
  | pollEvent

def NodeCall.op : NodeCall → HandshakeOp
  | .handleTimeout now => .handleTimeout now
  | .trust level now => .setTrust (.trusted level) now
  | .close reason maxTime now => .close reason maxTime now
  | .sendPin pin => .sendPin pin
  | .sendPinIfPermitted => .sendPinIfPermitted
  | .sendKeyMaterial now => .sendKeyMaterial now
  | .requestKeyMaterial known => .requestKeyMaterial known
  | .requestAccessMethods => .requestAccessMethods
  | .pollEvent => .pollEvent

/-- The two handshakes, and what each has sent that the other has not read yet. -/
structure Pair where
  node : Role → Handshake
  wire : Role → List ShipMessage

inductive PairOp
  | call (role : Role) (call : NodeCall)
  /-- The next message of the node's queue goes on the wire. -/
  | transmit (role : Role)
  /-- The node reads the next message off the wire. -/
  | deliver (role : Role) (now : Nat)
  /-- The node, if it is ready for data, sends a payload after all that is queued. -/
  | sendData (role : Role)

namespace Pair

def start (configs : Role → HandshakeConfig) (trust : Role → Trust) (now : Role → Nat) : Pair where
  node role := Handshake.new role (configs role) (trust role) (now role)
  wire _ := []

def setNode (pair : Pair) (role : Role) (hs : Handshake) : Pair :=
  { pair with node := Function.update pair.node role hs }

def setWire (pair : Pair) (role : Role) (messages : List ShipMessage) : Pair :=
  { pair with wire := Function.update pair.wire role messages }

end Pair

/-- The connection as a machine over the steps of both nodes. -/
def connection : Machine Pair PairOp Unit where
  step pair op :=
    match op with
    | .call role call => (pair.setNode role (handshake.next (pair.node role) call.op), ())
    | .transmit role =>
      ((pair.setWire role (pair.wire role ++ (pair.node role).outbox.take 1)).setNode role
        (handshake.next (pair.node role) .pollTransmit), ())
    | .deliver role now =>
      match pair.wire role.other with
      | [] => (pair, ())
      | message :: rest =>
        ((pair.setWire role.other rest).setNode role
          (handshake.next (pair.node role) (.handleMessage message now)), ())
    | .sendData role =>
      if (pair.node role).isReadyForData then
        ((pair.setWire role (pair.wire role ++ (pair.node role).outbox ++ [.data])).setNode role
          { pair.node role with outbox := [] }, ())
      else (pair, ())

/-- Data goes out only when the PIN the peer waits for, if it does, is there or goes before it; and a
node that has announced its close is past the opening and the protocol handshake. -/
def PairOp.Permitted (pair : Pair) : PairOp → Prop
  | .deliver role _ => ∀ message ∈ (pair.wire role.other).head?, message.opens = true →
    (pair.node role).phase ≠ .closing
  | .sendData role => (pair.node role).phase = .dataExchange → (pair.node role.other).phase = .pin →
    (pair.node role.other).lock.admits (pair.wire role ++ (pair.node role).outbox ++ [.data]) = true
  | _ => True

@[simp] theorem Role.other_other (role : Role) : role.other.other = role := by cases role <;> rfl

@[simp] theorem Role.other_ne (role : Role) : role.other ≠ role := by cases role <;> decide

@[simp] theorem Role.ne_other (role : Role) : role ≠ role.other := by cases role <;> decide

theorem Role.both {P : Role → Prop} (role : Role) (h : P role) (hother : P role.other) (r : Role) : P r := by
  cases role <;> cases r <;> assumption

namespace Pair

variable {pair : Pair} {role : Role} {hs : Handshake} {messages : List ShipMessage}

@[simp] theorem setNode_node : (pair.setNode role hs).node role = hs := Function.update_self ..

@[simp] theorem setNode_other : (pair.setNode role hs).node role.other = pair.node role.other :=
  Function.update_of_ne role.other_ne _ _

@[simp] theorem setNode_wire : (pair.setNode role hs).wire = pair.wire := rfl

@[simp] theorem setWire_wire : (pair.setWire role messages).wire role = messages :=
  Function.update_self ..

@[simp] theorem setWire_other : (pair.setWire role messages).wire role.other = pair.wire role.other :=
  Function.update_of_ne role.other_ne _ _

@[simp] theorem setWire_self : (pair.setWire role.other messages).wire role = pair.wire role :=
  Function.update_of_ne role.ne_other _ _

@[simp] theorem setWire_same : pair.setWire role (pair.wire role) = pair := by
  simp [setWire]

@[simp] theorem setWire_node : (pair.setWire role messages).node = pair.node := rfl

end Pair

variable {configs : Role → HandshakeConfig} {pair : Pair} {role : Role} {hs hs' : Handshake}
  {sent said heard : Role → Progress} {now : Nat}

theorem Handshake.Scripted.grown {base : Origin} {lock : PinLock} {said said' heard heard' : Progress}
    (h : hs.Scripted configs role base said heard)
    (h' : hs'.Scripted configs role ⟨base.sent, hs.outbox, lock⟩ said' heard') :
    ∃ more, hs'.outbox = hs.outbox ++ more ∧ (∀ message ∈ more, message.isData = false) ∧
      (said.closing = true → said'.closing = true) := by
  obtain ⟨more, hmore⟩ := h'.kept.grown
  have hqueued := h'.kept.queued
  rw [← hmore, List.foldlM_append, h.kept.queued] at hqueued
  obtain ⟨hdataless, hheard⟩ := Progress.foldlM_say (hqueued : more.foldlM _ said = some said')
  refine ⟨more, hmore.symm, hdataless, fun hclosing => ?_⟩
  rw [Progress.foldlM_closing hheard hclosing]
  exact hclosing

theorem Handshake.Scripted.anchor {base : Origin} {said heard : Progress} (h : hs.Scripted configs role base said heard) :
    hs.Scripted configs role { base with queue := hs.outbox } said heard :=
  ⟨{ h.kept with grown := List.prefix_rfl }, h.needs, h.stands⟩

theorem Handshake.Scripted.call {base : Origin} {said heard : Progress}
    (h : hs.Scripted configs role base said heard) (call : NodeCall) :
    (handshake.next hs call.op).FollowsEased configs role base heard := by
  cases call with
  | handleTimeout now => exact h.handleTimeout
  | trust level now => exact (h.setTrust level).steady
  | close reason maxTime now => exact (h.close reason maxTime).steady
  | sendPin pin => exact (h.sendPin pin).follows.steady
  | sendPinIfPermitted => exact h.sendPinIfPermitted.follows.steady
  | sendKeyMaterial now => exact h.sendKeyMaterial.follows.steady
  | requestKeyMaterial known => exact (h.requestKeyMaterial known).follows.steady
  | requestAccessMethods => exact h.requestAccessMethods.follows.steady
  | pollEvent => exact h.pollEvent.follows.steady

/-- Both nodes keep to their scripts. Each has sent, and has in its queue besides, what leads from what
the other has heard to what it says it has said; and each will have the PIN it asks for when data comes,
as long as it does not close. -/
structure Talks (configs : Role → HandshakeConfig) (pair : Pair) (sent said heard : Role → Progress) :
    Prop where
  node : ∀ role, (pair.node role).Scripted configs role ⟨sent role, [], (pair.node role).lock⟩ (said role)
    (heard role)
  read : ∀ role, (pair.wire role).foldlM (Progress.hear configs role) (heard role.other) =
    some (sent role)
  admitted : ∀ role, (said role).closing = true ∨ (pair.node role).isOver = true ∨
    (pair.node role).lock.admits (pair.wire role.other ++ (pair.node role.other).outbox) = true

namespace Talks

open Pair

section

variable (h : Talks configs pair sent said heard)

include h

theorem sent_le (role : Role) : (sent role).stage.rank ≤ (said role).stage.rank :=
  Progress.foldlM_rank (Progress.foldlM_say (h.node role).kept.queued).2

theorem heard_le (role : Role) :
    (heard role.other).stage.rank ≤ (sent role).stage.rank := Progress.foldlM_rank (h.read role)

theorem under_way (role : Role) :
    (pair.wire role ++ (pair.node role).outbox).foldlM (Progress.hear configs role)
      (heard role.other) = some (said role) := by
  rw [List.foldlM_append, h.read role]
  exact (Progress.foldlM_say (h.node role).kept.queued).2

theorem move {lock : PinLock} {said' heard' : Progress} {rest : List ShipMessage}
    (hmoved : hs'.Scripted configs role ⟨sent role, (pair.node role).outbox, lock⟩ said' heard')
    (hread : rest.foldlM (Progress.hear configs role.other) heard' = some (sent role.other))
    (hadmitted : said'.closing = true ∨ hs'.isOver = true ∨
      lock.admits (rest ++ (pair.node role.other).outbox) = true) :
    Talks configs ((pair.setWire role.other rest).setNode role hs') sent (Function.update said role said')
      (Function.update heard role heard') := by
  obtain ⟨more, hmore, hdataless, -⟩ := (h.node role).grown hmoved
  have hlock : hs'.lock = lock := hmoved.kept.locked
  have hkept : hs'.Kept configs role ⟨sent role, [], hs'.lock⟩ said' :=
    { hmoved.kept with locked := rfl, grown := List.nil_prefix }
  refine ⟨Role.both role ?_ ?_, Role.both role ?_ ?_, Role.both role ?_ ?_⟩
  · simpa using ⟨hkept, hmoved.needs, hmoved.stands⟩
  · simpa using h.node role.other
  · simpa using h.read role
  · simpa using hread
  · simpa [hlock] using hadmitted
  · have hother := h.admitted role.other
    simp only [Role.other_other] at hother
    simp only [Role.other_other, setNode_other, setNode_wire, setWire_self, setWire_node, setNode_node,
      ne_eq, Role.other_ne, not_false_eq_true, Function.update_of_ne]
    refine hother.imp id (Or.imp id fun hadmits => ?_)
    rw [hmore, ← List.append_assoc]
    exact PinLock.admits_append hadmits fun _ => PinLock.admits_dataless hdataless

theorem call (role : Role) (call : NodeCall) :
    ∃ said' heard', Talks configs (connection.next pair (.call role call)) sent said' heard' := by
  obtain ⟨lock, hlock, said', hmoved⟩ := (h.node role).anchor.call call
  obtain ⟨-, -, -, hclosing⟩ := (h.node role).grown hmoved
  have hread := h.read role.other
  rw [Role.other_other] at hread
  have hmoves := h.move hmoved hread ?_
  · rw [setWire_same] at hmoves
    exact ⟨_, _, hmoves⟩
  refine (h.admitted role).imp hclosing (Or.imp (fun hover => ?_) fun hadmits => ?_)
  · exact (Handshake.isOver_congr (Handshake.over_idle hover call.op).1).trans hover
  · obtain rfl | rfl := hlock
    · exact hadmits
    · exact PinLock.admits_eased hadmits

theorem in_turn (role : Role) {heard' : Progress}
    (hheard : heard'.stage.rank ≤ (sent role.other).stage.rank) :
    (heard'.stage.needs role.other).rank ≤ (said role).stage.rank := by
  have hother : (heard role).stage.rank ≤ (sent role.other).stage.rank := by
    simpa using h.heard_le role.other
  calc (heard'.stage.needs role.other).rank
      ≤ ((said role.other).stage.needs role.other).rank :=
        Stage.needs_mono _ (hheard.trans (h.sent_le role.other))
    _ ≤ (heard role.other).stage.rank := (h.node role.other).needs
    _ ≤ (sent role).stage.rank := h.heard_le role
    _ ≤ (said role).stage.rank := h.sent_le role

theorem deliver (hmajor : ∀ role, 1 ≤ (configs role).maxVersion.major) (role : Role) (now : Nat)
    (hpermitted : (PairOp.deliver role now).Permitted pair) :
    ∃ said' heard', Talks configs (connection.next pair (.deliver role now)) sent said' heard' := by
  cases hwire : pair.wire role.other with
  | nil =>
    have hstays : connection.next pair (.deliver role now) = pair := by
      simp [connection, Machine.next, hwire]
    rw [hstays]
    exact ⟨said, heard, h⟩
  | cons message rest =>
    have hnext : connection.next pair (.deliver role now) = (pair.setWire role.other rest).setNode role
        (((pair.node role).handleMessage message now).getD (pair.node role)) := by
      simp [connection, Machine.next, hwire, handshake]
    rw [hnext]
    have hread := h.read role.other
    rw [hwire, Role.other_other] at hread
    obtain ⟨heard', hheard, hrest⟩ := Option.bind_eq_some_iff.mp hread
    cases hover : (pair.node role).isOver with
    | true =>
      have hignored : (pair.node role).handleMessage message now = none := by
        simp [Handshake.handleMessage, hover]
      rw [hignored, Option.getD_none]
      have hnode := (h.node role).anchor
      refine ⟨_, _, h.move ⟨hnode.kept, hnode.needs.trans (Progress.hear_rank hheard), .ended hover⟩ hrest
        (.inr (.inl hover))⟩
    | false =>
      have hadmitted : (said role).closing = true ∨
          (pair.node role).lock.admits (message :: (rest ++ (pair.node role.other).outbox)) = true := by
        have hold := h.admitted role
        rw [hwire, hover] at hold
        simpa using hold
      have hopen : message.isData = true → (pair.node role).phase = .pin →
          (pair.node role).localPinState ≠ .required := by
        intro hdata hpin
        cases hadmitted with
        | inl hclosing => exact absurd hclosing (by simp [(h.node role).stands.open_of_pin hpin])
        | inr hadmits =>
          refine ((PinLock.admits_cons.mp hadmits).resolve_left fun hannounces => ?_).1 hdata
          cases message with
          | data => cases hannounces
          | _ => cases hdata
      obtain ⟨said', hmoved⟩ := (h.node role).anchor.handleMessage now hmajor hover
        (hpermitted message (by rw [hwire]; rfl)) hopen hheard
        (h.in_turn role (Progress.foldlM_rank hrest))
      obtain ⟨-, -, -, hclosing⟩ := (h.node role).grown hmoved
      refine ⟨_, _, h.move hmoved hrest ?_⟩
      cases hannounces : message.announces with
      | true =>
        refine .inr (.inl ?_)
        by_contra hrunning
        have hlistens := hmoved.stands.listens (Bool.not_eq_true _ ▸ hrunning)
        rw [Progress.hear_announces hheard ((h.node role).stands.listens hover), hannounces] at hlistens
        cases hlistens
      | false =>
        refine hadmitted.imp hclosing fun hadmits => .inr ?_
        exact ((PinLock.admits_cons.mp hadmits).resolve_left (by simp [hannounces])).2

theorem advance {sent' : Progress}
    {messages : List ShipMessage} (hlock : hs'.lock = (pair.node role).lock)
    (hover : hs'.isOver = (pair.node role).isOver)
    (hmoved : hs'.Scripted configs role ⟨sent', [], (pair.node role).lock⟩ (said role) (heard role))
    (hread : messages.foldlM (Progress.hear configs role) (heard role.other) = some sent')
    (hadmitted : (said role.other).closing = true ∨ (pair.node role.other).isOver = true ∨
      (pair.node role.other).lock.admits (messages ++ hs'.outbox) = true) :
    Talks configs ((pair.setWire role messages).setNode role hs') (Function.update sent role sent') said
      heard := by
  refine ⟨Role.both role ?_ ?_, Role.both role ?_ ?_, Role.both role ?_ ?_⟩
  · simpa [hlock] using hmoved
  · simpa using h.node role.other
  · simpa using hread
  · simpa using h.read role.other
  · simpa [hlock, hover] using h.admitted role
  · simpa using hadmitted

theorem transmit (role : Role) :
    ∃ sent', Talks configs (connection.next pair (.transmit role)) sent' said heard := by
  cases hout : (pair.node role).outbox with
  | nil =>
    have hstays : connection.next pair (.transmit role) = pair := by
      have hnode : ({ pair.node role with outbox := [] } : Handshake) = pair.node role := by
        rw [← hout]
      simp [connection, Machine.next, handshake, hout, hnode, setNode]
    rw [hstays]
    exact ⟨sent, h⟩
  | cons message rest =>
    have hnext : connection.next pair (.transmit role) =
        (pair.setWire role (pair.wire role ++ [message])).setNode role
          { pair.node role with outbox := rest } := by
      simp [connection, Machine.next, handshake, hout]
    rw [hnext]
    obtain ⟨sent', hsent, hmoved⟩ := (h.node role).transmit hout List.nil_prefix
    refine ⟨_, h.advance rfl rfl hmoved ?_ ?_⟩
    · rw [List.foldlM_append, h.read role]
      simpa using (Progress.say_hear hsent).2
    · have hadmitted := h.admitted role.other
      rw [Role.other_other, hout] at hadmitted
      simpa using hadmitted

theorem data_admitted (role : Role)
    (hready : (pair.node role).isReadyForData = true) (hpermitted : (PairOp.sendData role).Permitted pair) :
    (said role.other).closing = true ∨ (pair.node role.other).isOver = true ∨
      (pair.node role.other).lock.admits
        (pair.wire role ++ (pair.node role).outbox ++ [.data]) = true := by
  have hphase : (pair.node role).phase = .dataExchange ∨ (pair.node role).phase = .closing := by
    unfold Handshake.isReadyForData at hready
    split at hready <;> simp_all
  cases hphase with
  | inl hdata =>
    have hheard : (heard role).stage.rank ≤ (sent role.other).stage.rank := by
      simpa using h.heard_le role.other
    rw [(h.node role).stands.heard_of_data hdata] at hheard
    refine ((h.node role.other).stands.pinned (hheard.trans (h.sent_le role.other))).imp id
      (Or.imp id fun hstate => ?_)
    cases hstate with
    | inl hpin => exact hpermitted hdata hpin
    | inr hmet => exact PinLock.admits_met hmet _
  | inr hclosing =>
    cases hover : (pair.node role.other).isOver with
    | true => exact .inr (.inl rfl)
    | false =>
      -- the announcement of the close goes before the data
      have hannounced := Progress.foldlM_announces (h.under_way role)
        ((h.node role.other).stands.listens hover) ((h.node role).stands.closes hclosing)
      have hadmitted := h.admitted role.other
      rw [Role.other_other, hover] at hadmitted
      exact hadmitted.imp id (Or.imp id fun hadmits => PinLock.admits_announced hadmits hannounced)

theorem sendData (role : Role) (hpermitted : (PairOp.sendData role).Permitted pair) :
    ∃ sent', Talks configs (connection.next pair (.sendData role)) sent' said heard := by
  cases hready : (pair.node role).isReadyForData with
  | false =>
    have hstays : connection.next pair (.sendData role) = pair := by
      simp [connection, Machine.next, hready]
    rw [hstays]
    exact ⟨sent, h⟩
  | true =>
    have hnext : connection.next pair (.sendData role) =
        (pair.setWire role (pair.wire role ++ (pair.node role).outbox ++ [.data])).setNode role
          { pair.node role with outbox := [] } := by
      simp [connection, Machine.next, hready]
    rw [hnext]
    have hdata := (h.node role).hear_data hready
    refine ⟨_, h.advance rfl rfl (h.node role).flush ?_ ?_⟩
    · rw [List.foldlM_append, h.under_way role]
      simpa using hdata
    · simp only [List.append_nil]
      exact h.data_admitted role hready hpermitted

theorem step
    (hmajor : ∀ role, 1 ≤ (configs role).maxVersion.major) (op : PairOp) (hpermitted : op.Permitted pair) :
    ∃ sent' said' heard', Talks configs (connection.next pair op) sent' said' heard' := by
  cases op with
  | call role call => exact ⟨sent, h.call role call⟩
  | transmit role =>
    obtain ⟨sent', h'⟩ := h.transmit role
    exact ⟨sent', said, heard, h'⟩
  | deliver role now => exact ⟨sent, h.deliver hmajor role now hpermitted⟩
  | sendData role =>
    obtain ⟨sent', h'⟩ := h.sendData role hpermitted
    exact ⟨sent', said, heard, h'⟩

end

theorem start (configs : Role → HandshakeConfig) (trust : Role → Trust) (now : Role → Nat) :
    Talks configs (Pair.start configs trust now) (fun _ => ⟨.silent, false⟩)
      (fun _ => ⟨.opened, false⟩) (fun _ => ⟨.silent, false⟩) where
  node role := Handshake.scripted_new configs role (trust role) (now role)
  read _ := rfl
  admitted _ := .inr (.inr (PinLock.admits_dataless (by simp [Pair.start, Handshake.new, ShipMessage.isData])))

theorem run (configs : Role → HandshakeConfig) (hmajor : ∀ role, 1 ≤ (configs role).maxVersion.major)
    (trust : Role → Trust) (now : Role → Nat) (ops : List PairOp)
    (hpermitted : connection.Admits (fun pair op => op.Permitted pair)
      (Pair.start configs trust now) ops) :
    ∃ sent said heard, Talks configs (connection.run (Pair.start configs trust now) ops) sent said heard :=
  connection.run_invariant (fun pair op => op.Permitted pair)
    (fun pair => ∃ sent said heard, Talks configs pair sent said heard)
    (fun _ op ⟨_, _, _, h⟩ hop => h.step hmajor op hop) ops _ ⟨_, _, _, start configs trust now⟩
    hpermitted

end Talks

/-- Neither node has met a message it did not expect, and once both have settled the protocol they have
settled the same: the lower of the two versions, and the first format of the server's that the client
offers. -/
structure Pair.Agrees (configs : Role → HandshakeConfig) (pair : Pair) : Prop where
  unsurprised : ∀ role phase, .aborted (.unexpectedMessage phase) ∉ (pair.node role).events
  settled : ∀ chosen chosen', (pair.node .client).negotiated = some chosen →
    (pair.node .server).negotiated = some chosen' →
      chosen = chosen' ∧
      chosen.1 = lowerVersion (configs .client).maxVersion (configs .server).maxVersion ∧
      (configs .server).formats.find? (fun ours => (configs .client).formats.contains ours) =
        some chosen.2

def HandshakeEvent.isSurprise : HandshakeEvent → Bool
  | .aborted (.unexpectedMessage _) => true
  | _ => false

theorem Pair.Agrees.noSurprise (h : pair.Agrees configs) (role : Role) :
    (pair.node role).events.any HandshakeEvent.isSurprise = false := by
  rw [List.any_eq_false]
  intro event hmem hsurprise
  unfold HandshakeEvent.isSurprise at hsurprise
  split at hsurprise
  · exact h.unsurprised role _ hmem
  · cases hsurprise

theorem Talks.agrees (h : Talks configs pair sent said heard) : pair.Agrees configs := by
  refine ⟨fun role => (h.node role).kept.unsurprised, fun chosen chosen' hclient hserver => ?_⟩
  have hchosen : choice configs = some chosen := by
    rw [← hclient]
    exact ((h.node .client).kept.settled.resolve_left (by simp [hclient])).symm
  have hchosen' : choice configs = some chosen' := by
    rw [← hserver]
    exact ((h.node .server).kept.settled.resolve_left (by simp [hserver])).symm
  obtain ⟨format, hformat, rfl⟩ := Option.map_eq_some_iff.mp hchosen
  exact ⟨Option.some.inj (hchosen.symm.trans hchosen'), rfl, hformat⟩

/-- At every point of every run in which data waits for the PIN the peer requires, and closes for the end
of the protocol handshake, two honest nodes agree. -/
theorem honest_nodes_agree (configs : Role → HandshakeConfig)
    (hmajor : ∀ role, 1 ≤ (configs role).maxVersion.major) (trust : Role → Trust) (now : Role → Nat)
    (ops : List PairOp)
    (hpermitted : connection.Admits (fun pair op => op.Permitted pair)
      (Pair.start configs trust now) ops) :
    ∀ before, before <+: ops →
      (connection.run (Pair.start configs trust now) before).Agrees configs := by
  intro before hprefix
  obtain ⟨sent, said, heard, h⟩ :=
    Talks.run configs hmajor trust now before (connection.admits_prefix hpermitted hprefix)
  exact h.agrees

instance decidablePermitted (pair : Pair) : ∀ op : PairOp, Decidable (op.Permitted pair)
  | .call _ _ => .isTrue trivial
  | .transmit _ => .isTrue trivial
  | .deliver role _ => inferInstanceAs (Decidable (∀ message ∈ (pair.wire role.other).head?,
      message.opens = true → (pair.node role).phase ≠ .closing))
  | .sendData role => inferInstanceAs (Decidable ((pair.node role).phase = .dataExchange →
      (pair.node role.other).phase = .pin → (pair.node role.other).lock.admits
        (pair.wire role ++ (pair.node role).outbox ++ [.data]) = true))

/-- Both say hello and settle the protocol; the client states that it asks for no PIN. -/
def openConnection : List PairOp :=
  [.transmit .client, .transmit .server, .deliver .server 1, .deliver .client 1,
    .transmit .client, .transmit .server, .deliver .server 2, .deliver .client 2,
    .transmit .client, .deliver .server 3, .transmit .server, .deliver .client 4,
    .transmit .client, .transmit .client, .deliver .server 5, .deliver .server 5,
    .transmit .server, .deliver .client 6]

/-- A client that knows the server's PIN; its data follows the PIN. -/
theorem honest_nodes_agree_pin :
    let configs : Role → HandshakeConfig
      | .client => { peerPin := some "1234" }
      | .server => { maxVersion := ⟨1, 0⟩, pin := .required "1234" }
    let ops := openConnection ++ [.sendData .client, .deliver .server 7, .deliver .server 7]
    let pair := connection.run (Pair.start configs (fun _ => .trusted .userVerified) fun _ => 0) ops
    (pair.node .client).phase = .dataExchange ∧ (pair.node .server).phase = .dataExchange ∧
      pair.Agrees configs := by
  intro configs ops pair
  refine ⟨by decide +kernel, by decide +kernel, ?_⟩
  exact honest_nodes_agree configs (by intro role; cases role <;> decide) _ _ ops (by decide +kernel) ops
    List.prefix_rfl

/-- A client that does not know the server's PIN is ready for data all the same; the server ends the
connection over it. -/
theorem honest_nodes_disagree :
    let configs : Role → HandshakeConfig
      | .client => {}
      | .server => { pin := .required "1234" }
    let ops := openConnection ++ [.sendData .client, .deliver .server 7]
    ¬(connection.run (Pair.start configs (fun _ => .trusted .userVerified) fun _ => 0) ops).Agrees
      configs := by
  intro configs ops h
  exact absurd (h.noSurprise .server) (by decide +kernel)

end Eebus.Ship
