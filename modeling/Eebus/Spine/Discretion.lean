import Eebus.Spine.Dispatch

/-!
What a peer can learn of the relations this device has with others: nothing. Two engines that differ
only in relations that do not concern a peer answer its reads and notify it alike.
-/

namespace Eebus.Spine

open Eebus.Library Eebus.Model

variable {S : Schema}

/-- The tables hold the same relations for this recipient. One that names no device is shown none. -/
structure Relations.AlikeFor (recipient : Option AddressDevice) (r r' : Relations) : Prop where
  bindings : ∀ device, recipient = some device → r'.bindingsWith device = r.bindingsWith device
  subscriptions : ∀ device, recipient = some device →
    r'.subscriptionsWith device = r.subscriptionsWith device

theorem Relations.AlikeFor.removeDevice {recipient : Option AddressDevice} {r r' : Relations}
    (h : r.AlikeFor recipient r') (device : AddressDevice) :
    (r.removeDevice device).AlikeFor recipient (r'.removeDevice device) := by
  have hkeep : ∀ {l l' : List Relation} {p q : Relation → Bool}, l'.filter p = l.filter p →
      (l'.filter q).filter p = (l.filter q).filter p := fun h => by
    rw [List.filter_comm, h, List.filter_comm]
  exact ⟨fun d hd => hkeep (h.bindings d hd), fun d hd => hkeep (h.subscriptions d hd)⟩

namespace Engine

/-- The engines differ at most in relations that do not concern the recipient. -/
def AlikeFor (recipient : Option AddressDevice) (e e' : Engine S) : Prop :=
  ∃ r', e' = { e with relations := r' } ∧ e.relations.AlikeFor recipient r'

variable {recipient : Option AddressDevice} {e e' : Engine S}

section

variable (h : AlikeFor recipient e e')

include h

theorem AlikeFor.removePeer (device : AddressDevice) :
    AlikeFor recipient (e.removePeer device) (e'.removePeer device) := by
  obtain ⟨r', rfl, hr⟩ := h
  exact ⟨r'.removeDevice device, rfl, hr.removeDevice device⟩

theorem AlikeFor.evict : AlikeFor recipient e.evict e'.evict := by
  have hremove := h.removePeer
  obtain ⟨r', rfl, hr⟩ := h
  unfold Engine.evict
  cases hevicted : e.peers[e.evictIndex]?.bind fun peer => peer.remote.address with
  | some evicted =>
    have hsame : ({ e with relations := r' } : Engine S).peers[
        ({ e with relations := r' } : Engine S).evictIndex]?.bind
          (fun peer => peer.remote.address) = some evicted := hevicted
    rw [hsame]
    exact hremove evicted
  | none =>
    have hsame : ({ e with relations := r' } : Engine S).peers[
        ({ e with relations := r' } : Engine S).evictIndex]?.bind
          (fun peer => peer.remote.address) = none := hevicted
    rw [hsame]
    exact ⟨r', rfl, hr⟩

theorem AlikeFor.peers : e'.peers = e.peers := by
  obtain ⟨r', rfl, -⟩ := h
  rfl

theorem AlikeFor.withPeers (peers : List (Peer S)) :
    AlikeFor recipient { e with peers := peers } { e' with peers := peers } := by
  obtain ⟨r', rfl, hr⟩ := h
  exact ⟨r', rfl, hr⟩

theorem AlikeFor.append (peer : Peer S) :
    AlikeFor recipient { e with peers := e.peers ++ [peer] } { e' with peers := e'.peers ++ [peer] } :=
  h.peers ▸ h.withPeers _

theorem AlikeFor.peerEntry (device : AddressDevice) :
    AlikeFor recipient (e.peerEntry device) (e'.peerEntry device) := by
  unfold Engine.peerEntry
  rw [h.peers]
  split
  · exact h
  split
  · exact h.evict.append _
  · exact h.append _

theorem AlikeFor.observeSource (source : FeatureAddress) (counter : MsgCounter) :
    AlikeFor recipient (e.observeSource source counter).1 (e'.observeSource source counter).1 ∧
      (e'.observeSource source counter).2 = (e.observeSource source counter).2 := by
  unfold Engine.observeSource
  split
  case h_1 => exact ⟨h, rfl⟩
  case h_2 device hdevice =>
    have hentry := h.peerEntry device
    simp only [observeCounter, peerAt, findPeer, updatePeer, hentry.peers]
    exact ⟨hentry.withPeers _, trivial⟩

theorem AlikeFor.nodeManagementData (function : Function S.Other) :
    e'.nodeManagementData function recipient = e.nodeManagementData function recipient := by
  obtain ⟨r', rfl, hr⟩ := h
  have hbindings : recipient.map r'.bindingsWith = recipient.map e.relations.bindingsWith := by
    cases recipient with
    | none => rfl
    | some device => exact congrArg some (hr.bindings device rfl)
  have hsubscriptions : recipient.map r'.subscriptionsWith =
      recipient.map e.relations.subscriptionsWith := by
    cases recipient with
    | none => rfl
    | some device => exact congrArg some (hr.subscriptions device rfl)
  simp only [Engine.nodeManagementData, hbindings, hsubscriptions]

theorem AlikeFor.device : e'.device = e.device := by
  obtain ⟨r', rfl, -⟩ := h
  rfl

end

theorem AlikeFor.readAnswer {source : FeatureAddress} (h : AlikeFor source.device e e') (cmd : Cmd S)
    (destination : FeatureAddress) :
    e'.readAnswer cmd source destination = e.readAnswer cmd source destination := by
  simp only [Engine.readAnswer, h.device, h.nodeManagementData]

theorem AlikeFor.sendCmd (h : AlikeFor recipient e e') (source destination : FeatureAddress)
    (classifier : CmdClassifier) (reference : Option MsgCounter) (cmd : Cmd S) :
    AlikeFor recipient (e.sendCmd source destination classifier reference cmd)
      (e'.sendCmd source destination classifier reference cmd) := by
  obtain ⟨r', rfl, hr⟩ := h
  exact ⟨r', rfl, hr⟩

theorem AlikeFor.sendResult (h : AlikeFor recipient e e') (source destination : FeatureAddress)
    (reference : MsgCounter) (error : ErrorNumber) :
    AlikeFor recipient (e.sendResult source destination reference error)
      (e'.sendResult source destination reference error) := by
  obtain ⟨r', rfl, hr⟩ := h
  exact ⟨r', rfl, hr⟩

theorem AlikeFor.handleRead {source : FeatureAddress} (h : AlikeFor source.device e e') (cmd : Cmd S)
    (destination : FeatureAddress) (counter : MsgCounter) :
    AlikeFor source.device (e.handleRead cmd source destination counter).1
        (e'.handleRead cmd source destination counter).1 ∧
      (e'.handleRead cmd source destination counter).2 =
        (e.handleRead cmd source destination counter).2 := by
  simp only [Engine.handleRead, h.readAnswer cmd destination]
  split
  · exact ⟨h, rfl⟩
  · simp only [localAddress, h.device]
    exact ⟨h.sendCmd _ _ _ _ _, trivial⟩

theorem AlikeFor.handleCommands {source : FeatureAddress} (h : AlikeFor source.device e e')
    (commands : List (Cmd S)) (destination : FeatureAddress) (counter : MsgCounter)
    (reference : Option MsgCounter) (ackRequest : Bool) (now : Nat) : AlikeFor source.device
        (e.handleCommands commands source destination .read counter reference ackRequest now).1
        (e'.handleCommands commands source destination .read counter reference ackRequest now).1 ∧
      (e'.handleCommands commands source destination .read counter reference ackRequest now).2 =
        (e.handleCommands commands source destination .read counter reference ackRequest now).2 := by
  match commands with
  | [] => exact ⟨h, rfl⟩
  | [cmd] =>
    obtain ⟨halike, herror⟩ := h.handleRead cmd destination counter
    exact ⟨halike, congrArg CmdOutcome.answer herror⟩
  | _ :: _ :: _ => exact ⟨h, rfl⟩

theorem AlikeFor.serve {source : FeatureAddress} (h : AlikeFor source.device e e')
    (datagram : Datagram S) (destination : FeatureAddress) (counter : MsgCounter)
    (reference : Option MsgCounter) (ackRequest : Bool) (now : Nat) : AlikeFor source.device
      (e.serve datagram source destination .read counter reference ackRequest now)
      (e'.serve datagram source destination .read counter reference ackRequest now) := by
  obtain ⟨halike, houtcome⟩ :=
    h.handleCommands datagram.commands destination counter reference ackRequest now
  simp only [Engine.serve, houtcome, acknowledge]
  split
  · exact halike
  split
  · exact halike.sendResult _ _ _ _
  · exact halike

/-- The datagram is a read, from this device or from one it does not name. -/
def isReadFrom (recipient : Option AddressDevice) (datagram : Datagram S) : Prop :=
  ∃ header source, datagram.header = some header ∧ header.cmdClassifier = some .read ∧
    header.addressSource = some source ∧ source.device = recipient

theorem AlikeFor.handleDatagram (h : AlikeFor recipient e e') {datagram : Datagram S}
    (hread : isReadFrom recipient datagram) (now : Nat) :
    AlikeFor recipient (e.handleDatagram datagram now).1 (e'.handleDatagram datagram now).1 := by
  obtain ⟨header, source, hheader, hclassifier, hsource, rfl⟩ := hread
  have htrusted : e'.sourceTrusted source = e.sourceTrusted source := by
    simp only [sourceTrusted, h.device]
  simp only [Engine.handleDatagram, hheader, hclassifier, hsource, h.device]
  split
  case h_2 => exact h
  case h_1 counter classifier source' destination hcounter hread hfrom hdestination =>
    obtain rfl := Option.some.inj hread
    obtain rfl := Option.some.inj hfrom
    obtain ⟨hfiled, hfresh⟩ := h.observeSource source counter
    rw [hfresh, htrusted]
    split
    · exact h
    split
    · dsimp only
      split
      · exact h.sendResult _ _ _ _
      · exact h
    split
    · dsimp only
      split
      · exact hfiled.sendResult _ _ _ _
      · exact hfiled
    split
    · exact hfiled
    · exact hfiled.serve _ _ _ _ _ _

def payloadsTo (device : AddressDevice) (e : Engine S) : List (Option (Payload S)) :=
  (e.outbox.filter fun d => (d.header.bind Header.addressDestination).any fun destination =>
    destination.device == some device).map Datagram.payload

def notifiedTo (device : AddressDevice) (e : Engine S) (feature : FeatureAddress)
    (function : Function S.Other) (subscriber : FeatureAddress) : Option (Option (Payload S)) :=
  if subscriber.device = some device then
    (e.notification feature function subscriber).map fun data => some ⟨some [Cmd.withData data]⟩
  else none

theorem payloadsTo_notifySubscriber (device : AddressDevice) (e : Engine S) (feature : FeatureAddress)
    (function : Function S.Other) (subscriber : FeatureAddress) :
    payloadsTo device (notifySubscriber feature function e subscriber) =
      payloadsTo device e ++ (notifiedTo device e feature function subscriber).toList := by
  unfold notifySubscriber notifiedTo
  cases e.notification feature function subscriber with
  | none => simp
  | some data =>
    by_cases hto : subscriber.device = some device
    · simp [payloadsTo, Engine.sendCmd, send, advanceCounter, header, hto]
    · simp [payloadsTo, Engine.sendCmd, send, advanceCounter, header, hto]

theorem notification_notifySubscriber (e : Engine S) (feature : FeatureAddress)
    (function : Function S.Other) (subscriber : FeatureAddress) :
    (notifySubscriber feature function e subscriber).notification feature function =
      e.notification feature function := by
  unfold notifySubscriber
  split
  · rfl
  · rfl

theorem payloadsTo_notify (device : AddressDevice) (e : Engine S) (feature : FeatureAddress)
    (function : Function S.Other) :
    payloadsTo device (e.notify feature function) = payloadsTo device e ++
      (if !isNodeManagement feature && (e.device.data feature function).isNone then []
        else (e.relations.subscribersOf feature).filterMap (notifiedTo device e feature function)) := by
  have hloop : ∀ (subscribers : List FeatureAddress) (e' : Engine S),
      e'.notification feature function = e.notification feature function →
      payloadsTo device (subscribers.foldl (notifySubscriber feature function) e') =
        payloadsTo device e' ++ subscribers.filterMap (notifiedTo device e feature function) := by
    intro subscribers
    induction subscribers with
    | nil => intro e' _; simp
    | cons subscriber rest ih =>
      intro e' hsame
      have hfirst : notifiedTo device e' feature function subscriber =
          notifiedTo device e feature function subscriber := by
        simp only [notifiedTo, hsame]
      rw [List.foldl_cons, ih _ ((notification_notifySubscriber _ _ _ _).trans hsame),
        payloadsTo_notifySubscriber, hfirst, List.append_assoc, List.filterMap_cons]
      cases notifiedTo device e feature function subscriber <;> rfl
  unfold notify
  split
  · simp
  · exact hloop _ e rfl

theorem filterMap_subscribersOf {β : Type} (r : Relations) (device : AddressDevice)
    (feature : FeatureAddress) {g : FeatureAddress → Option β}
    (hg : ∀ subscriber, subscriber.device ≠ some device → g subscriber = none) :
    (r.subscribersOf feature).filterMap g =
      ((r.subscriptionsWith device).filter fun s => !s.held && sameFeature s.server feature).filterMap
        fun s => g s.client := by
  unfold Relations.subscribersOf Relations.subscriptionsWith
  rw [List.filterMap_map, List.filterMap_filter, List.filterMap_filter, List.filterMap_filter]
  refine List.filterMap_congr fun s _ => ?_
  by_cases hon : s.client.device = some device
  · simp [Relation.concerns, hon]
  · simp [hg s.client hon]

theorem AlikeFor.notification {device : AddressDevice} (h : AlikeFor (some device) e e')
    (feature : FeatureAddress) (function : Function S.Other) {subscriber : FeatureAddress}
    (hon : subscriber.device = some device) :
    e'.notification feature function subscriber = e.notification feature function subscriber := by
  rw [← hon] at h
  simp only [Engine.notification, h.device, h.nodeManagementData]

theorem AlikeFor.payloadsTo_notify {device : AddressDevice} (h : AlikeFor (some device) e e')
    (feature : FeatureAddress) (function : Function S.Other) :
    payloadsTo device (e'.notify feature function) = payloadsTo device (e.notify feature function) := by
  have hnone : ∀ (e : Engine S) subscriber, subscriber.device ≠ some device →
      notifiedTo device e feature function subscriber = none := fun e subscriber hne => if_neg hne
  have hsame : notifiedTo device e' feature function = notifiedTo device e feature function := by
    funext subscriber
    unfold notifiedTo
    split
    case isTrue hon => rw [h.notification feature function hon]
    case isFalse => rfl
  have hoff : e'.outbox = e.outbox := by
    obtain ⟨r', rfl, -⟩ := h
    rfl
  have hsubscriptions : e'.relations.subscriptionsWith device =
      e.relations.subscriptionsWith device := by
    obtain ⟨r', rfl, hr⟩ := h
    exact hr.subscriptions device rfl
  rw [Engine.payloadsTo_notify, Engine.payloadsTo_notify, h.device, hsame,
    filterMap_subscribersOf _ device feature (hnone e),
    filterMap_subscribersOf _ device feature (hnone e), hsubscriptions]
  simp only [payloadsTo, hoff]

theorem AlikeFor.outbox (h : AlikeFor recipient e e') : e'.outbox = e.outbox := by
  obtain ⟨r', rfl, -⟩ := h
  rfl

theorem alikeFor_none (e : Engine S) (r : Relations) : AlikeFor none e { e with relations := r } :=
  ⟨r, rfl, nofun, nofun⟩

/-- Two engines that differ only in relations that do not concern a device answer its reads alike
and notify it alike. A reader that names no device is answered as if there were no relations: the tables
are empty for it. -/
theorem relation_tables_leak_nothing {device : AddressDevice} (h : AlikeFor (some device) e e')
    (now : Nat) :
    (∀ datagram, isReadFrom (some device) datagram →
      (e'.handleDatagram datagram now).1.outbox = (e.handleDatagram datagram now).1.outbox) ∧
    (∀ feature function, payloadsTo device (e'.notify feature function) =
      payloadsTo device (e.notify feature function)) ∧
    (∀ datagram, isReadFrom none datagram → (e.handleDatagram datagram now).1.outbox =
      ({ e with relations := Relations.new e.relations.policy }.handleDatagram datagram now).1.outbox) ∧
    e.nodeManagementData (.known .nodeManagementBindingData) none =
        some ⟨.nodeManagementBindingData, ⟨none⟩⟩ ∧
      e.nodeManagementData (.known .nodeManagementSubscriptionData) none =
        some ⟨.nodeManagementSubscriptionData, ⟨none⟩⟩ := by
  refine ⟨fun datagram hread => (h.handleDatagram hread now).outbox,
    fun feature function => h.payloadsTo_notify feature function, fun datagram hread => ?_,
    rfl, rfl⟩
  exact ((alikeFor_none e _).handleDatagram hread now).outbox.symm

end Engine

namespace DiscretionScenario

def gateway : AddressDevice := "d:_i:1_Gateway"
def heatPump : AddressDevice := "d:_i:2_HeatPump"
def gridOperator : AddressDevice := "d:_i:3_GridOperator"

/-- The heat pump is told of the gateway's entities. -/
def known : Engine Schema.limitsOnly :=
  (Engine.new (.fromAddress gateway "EnergyManagementSystem")).insertSubscription
    (nodeManagement heatPump) (nodeManagement gateway)

def shared : Engine Schema.limitsOnly :=
  known.insertSubscription (nodeManagement gridOperator) (nodeManagement gateway)

theorem shared_alike : Engine.AlikeFor (some heatPump) known shared := by
  refine ⟨shared.relations, rfl, ?_, ?_⟩
  · rintro _ ⟨⟩
    rfl
  · rintro _ ⟨⟩
    rfl

theorem relation_tables_leak_nothing_shared :
    (∀ datagram, Engine.isReadFrom (some heatPump) datagram →
      (shared.handleDatagram datagram 0).1.outbox = (known.handleDatagram datagram 0).1.outbox) ∧
    ∀ feature function, Engine.payloadsTo heatPump (shared.notify feature function) =
      Engine.payloadsTo heatPump (known.notify feature function) := by
  obtain ⟨hreads, hnotifies, -⟩ := Engine.relation_tables_leak_nothing shared_alike 0
  exact ⟨hreads, hnotifies⟩

end DiscretionScenario

end Eebus.Spine
