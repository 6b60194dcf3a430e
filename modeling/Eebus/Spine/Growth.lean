import Eebus.Spine.Operations
import Eebus.Spine.Session

/-! What the engine may come to hold that it did not hold before. One operation can only add
relations, records, requests and deferred writes of a certain kind; that nothing is held for a
device, and that every relation has this device at one end, follow from the kind alone. -/

namespace Eebus.Spine

open Eebus.Library Eebus.Model

variable {S : Schema}

/-- The kinds of things an operation may add: relations, the device a record or a deferred write is
filed under, and requests. -/
structure Kinds (S : Schema) where
  relation : Relation → Prop
  source : Option AddressDevice
  request : FeatureAddress → List (Cmd S) → Prop

def SameRequest (p p' : Pending S) : Prop :=
  p'.destination = p.destination ∧ p'.datagram.commands = p.datagram.commands

structure Grows (K : Kinds S) (e e' : Engine S) : Prop where
  bindings : ∀ r ∈ e'.relations.bindings, r ∈ e.relations.bindings ∨ K.relation r
  subscriptions : ∀ r ∈ e'.relations.subscriptions, r ∈ e.relations.subscriptions ∨ K.relation r
  records : ∀ device, e'.tracks device = true → e.tracks device = true ∨ K.source = some device
  pending : ∀ p ∈ e'.pending, (∃ q ∈ e.pending, SameRequest q p) ∨
    K.request p.destination p.datagram.commands
  deferred : ∀ w ∈ e'.deferred, w ∈ e.deferred ∨ w.peer.device = K.source
  address : e'.device.address = e.device.address

theorem SameRequest.refl (p : Pending S) : SameRequest p p := ⟨rfl, rfl⟩

theorem SameRequest.trans {p q r : Pending S} (h : SameRequest p q) (h' : SameRequest q r) :
    SameRequest p r :=
  ⟨h'.1.trans h.1, h'.2.trans h.2⟩

namespace Grows

variable {K : Kinds S} {e e' e'' : Engine S}

theorem of_subset (hbindings : ∀ r ∈ e'.relations.bindings, r ∈ e.relations.bindings)
    (hsubscriptions : ∀ r ∈ e'.relations.subscriptions, r ∈ e.relations.subscriptions)
    (hrecords : ∀ device, e'.tracks device = true → e.tracks device = true)
    (hpending : ∀ p ∈ e'.pending, p ∈ e.pending) (hdeferred : ∀ w ∈ e'.deferred, w ∈ e.deferred)
    (haddress : e'.device.address = e.device.address) : Grows K e e' :=
  ⟨fun r hr => .inl (hbindings r hr), fun r hr => .inl (hsubscriptions r hr),
    fun device hd => .inl (hrecords device hd), fun p hp => .inl ⟨p, hpending p hp, .refl p⟩,
    fun w hw => .inl (hdeferred w hw), haddress⟩

theorem refl (K : Kinds S) (e : Engine S) : Grows K e e :=
  of_subset (fun _ h => h) (fun _ h => h) (fun _ h => h) (fun _ h => h) (fun _ h => h) rfl

theorem trans (h : Grows K e e') (h' : Grows K e' e'') : Grows K e e'' where
  bindings r hr := by
    cases h'.bindings r hr with
    | inl hr => exact h.bindings r hr
    | inr hr => exact .inr hr
  subscriptions r hr := by
    cases h'.subscriptions r hr with
    | inl hr => exact h.subscriptions r hr
    | inr hr => exact .inr hr
  records device hd := by
    cases h'.records device hd with
    | inl hd => exact h.records device hd
    | inr hd => exact .inr hd
  pending p hp := by
    cases h'.pending p hp with
    | inr hp => exact .inr hp
    | inl hp =>
      obtain ⟨q, hq, hsame⟩ := hp
      cases h.pending q hq with
      | inr hq =>
        rw [← hsame.1, ← hsame.2] at hq
        exact .inr hq
      | inl hq =>
        obtain ⟨q', hq', hsame'⟩ := hq
        exact .inl ⟨q', hq', hsame'.trans hsame⟩
  deferred w hw := by
    cases h'.deferred w hw with
    | inl hw => exact h.deferred w hw
    | inr hw => exact .inr hw
  address := h'.address.trans h.address

theorem of_sends {P : Datagram S → Prop} (h : Sends P e e') : Grows K e e' :=
  of_subset (by rw [h.relations]; exact fun _ h => h) (by rw [h.relations]; exact fun _ h => h)
    (fun device hd => by rwa [Engine.tracks, h.peers] at hd)
    (by rw [h.pending]; exact fun _ h => h) (by rw [h.deferred]; exact fun _ h => h)
    (by rw [h.device])

end Grows

def requestedEnds (commands : List (Cmd S)) : Option (FeatureAddress × FeatureAddress) :=
  match commands.head?.bind Cmd.data with
  | some ⟨.nodeManagementBindingRequestCall, call⟩ => Engine.requestEnds call
  | some ⟨.nodeManagementSubscriptionRequestCall, call⟩ => Engine.requestEnds call
  | _ => none

variable {device : AddressDevice}

namespace Engine

variable {K : Kinds S}

theorem tracks_of_sublist {e e' : Engine S} (h : ∀ p ∈ e'.peers, p ∈ e.peers)
    (device : AddressDevice) (hd : e'.tracks device = true) : e.tracks device = true := by
  simp only [tracks, List.any_eq_true] at hd ⊢
  obtain ⟨p, hp, hat⟩ := hd
  exact ⟨p, h p hp, hat⟩

theorem grows_removePeer (e : Engine S) (device : AddressDevice) :
    Grows K e (e.removePeer device) :=
  .of_subset (fun _ h => (List.mem_filter.mp h).1) (fun _ h => (List.mem_filter.mp h).1)
    (tracks_of_sublist fun _ h => (List.mem_filter.mp h).1) (fun _ h => (List.mem_filter.mp h).1)
    (fun _ h => (List.mem_filter.mp h).1) rfl

theorem grows_evict (e : Engine S) : Grows K e e.evict := by
  simp only [evict]
  split
  · exact e.grows_removePeer _
  · exact .of_subset (fun _ h => h) (fun _ h => h)
      (tracks_of_sublist fun _ h => List.mem_of_mem_eraseIdx h) (fun _ h => h) (fun _ h => h) rfl

theorem grows_peerEntry (e : Engine S) (h : K.source = some device) :
    Grows K e (e.peerEntry device) := by
  have hadd : ∀ e : Engine S, Grows K e { e with peers := e.peers ++ [Peer.new device] } := by
    intro e
    refine ⟨fun _ hr => .inl hr, fun _ hr => .inl hr, fun d hd => ?_, fun p hp => .inl ⟨p, hp, .refl p⟩,
      fun _ hw => .inl hw, rfl⟩
    simp only [tracks, List.any_append, Bool.or_eq_true] at hd
    cases hd with
    | inl hd => exact .inl hd
    | inr hd =>
      have heq : device = d := by simpa [Peer.isAt, Peer.new, RemoteDevice.unknown] using hd
      exact .inr (by rw [h, heq])
  simp only [peerEntry]
  split
  · exact .refl K e
  · split
    · exact e.grows_evict.trans (hadd e.evict)
    · exact hadd e

theorem grows_updatePeer (e : Engine S) {g : Peer S → Peer S}
    (hg : ∀ p, Peer.isAt device p = true → (g p).remote.address = p.remote.address) :
    Grows K e (e.updatePeer device g) := by
  refine .of_subset (fun _ h => h) (fun _ h => h) (fun d hd => ?_) (fun _ h => h) (fun _ h => h) rfl
  have hmap : (e.updatePeer device g).peers.map (fun p => p.remote.address) =
      e.peers.map fun p => p.remote.address :=
    map_modifyFirst (fun p : Peer S => p.remote.address) e.peers hg
  have htracks : ∀ e : Engine S, e.tracks d =
      (e.peers.map fun p => p.remote.address).any (· == some d) := by
    intro e
    simp only [tracks, List.any_map]
    rfl
  rwa [htracks, hmap, ← htracks] at hd

theorem grows_observeSource (e : Engine S) (source : FeatureAddress) (counter : MsgCounter)
    (h : K.source = source.device) : Grows K e (e.observeSource source counter).1 := by
  simp only [observeSource]
  split
  case h_1 => exact .refl K e
  case h_2 device hdevice =>
    refine (e.grows_peerEntry (h.trans hdevice)).trans ?_
    exact grows_updatePeer _ fun _ _ => rfl

theorem grows_emit (e : Engine S) (event : SpineEvent S) : Grows K e (e.emit event) :=
  .of_subset (fun _ h => h) (fun _ h => h) (fun _ h => h) (fun _ h => h) (fun _ h => h) rfl

theorem grows_absorb (e : Engine S) {source : FeatureAddress}
    (data : CmdData S) (ops : WriteOps S) (hsource : source.device = some device)
    (h : K.source = some device) : Grows K e (e.absorb source data ops).1 := by
  have hentry := e.grows_peerEntry h
  simp only [absorb]
  split
  · simp only [absorbDiscovery, discoveryDevice, hsource, Option.some_or]
    refine (hentry.trans (grows_updatePeer _ fun p hp => ?_)).trans (grows_emit _ _)
    have haddress : p.remote.address = some device := by simpa [Peer.isAt] using hp
    rw [haddress]
    exact RemoteDevice.applyDetailedDiscovery_address _ _ _ haddress
  · simp only [absorbUseCases, hsource]
    refine (hentry.trans (grows_updatePeer _ fun p _ => ?_)).trans (grows_emit _ _)
    exact RemoteDevice.applyUseCaseData_address _ _
  · simp only [resolveRemote, hsource]
    refine hentry.trans (grows_updatePeer _ fun p _ => ?_)
    rfl

theorem grows_resolvePending (e : Engine S) (reference : Option MsgCounter)
    (origin : FeatureAddress) : Grows K e (e.resolvePending reference origin).1 := by
  have hpending := hearing_pending.resolvePending e reference origin
  cases reference <;> exact .of_subset (fun _ h => h) (fun _ h => h) (fun _ h => h)
    (fun _ h => hpending.subset h) (fun _ h => h) rfl

theorem grows_handleIncomingData (e : Engine S) (cmd : Cmd S) {source : FeatureAddress}
    (classifier : CmdClassifier) (hsource : source.device = some device)
    (h : K.source = some device) : Grows K e (e.handleIncomingData cmd source classifier).1 := by
  simp only [handleIncomingData]
  split
  · exact .refl K e
  · exact (e.grows_absorb _ _ hsource h).trans (grows_emit _ _)

theorem mem_addBinding {r : Relations} {client server : FeatureAddress} {b : Relation}
    (h : b ∈ (r.addBinding client server).1.bindings) :
    b ∈ r.bindings ∨ ∃ id, b = Relation.granted id client server := by
  rcases r.addBinding_cases client server with hsame | ⟨-, -, -, -, hadd⟩
  · rw [hsame] at h
    exact .inl h
  · rw [hadd] at h
    cases List.mem_append.mp h with
    | inl h => exact .inl h
    | inr h => exact .inr ⟨_, List.mem_singleton.mp h⟩

theorem addBinding_subscriptions (r : Relations) (client server : FeatureAddress) :
    (r.addBinding client server).1.subscriptions = r.subscriptions := by
  rcases r.addBinding_cases client server with hsame | ⟨-, -, -, -, hadd⟩
  · rw [hsame]
  · rw [hadd]

theorem mem_addSubscription {r : Relations} {client server : FeatureAddress} {b : Relation}
    (h : b ∈ (r.addSubscription client server).1.subscriptions) :
    b ∈ r.subscriptions ∨ ∃ id, b = Relation.granted id client server := by
  rcases r.addSubscription_cases client server with hsame | ⟨-, -, hadd⟩
  · rw [hsame] at h
    exact .inl h
  · rw [hadd] at h
    cases List.mem_append.mp h with
    | inl h => exact .inl h
    | inr h => exact .inr ⟨_, List.mem_singleton.mp h⟩

theorem addSubscription_bindings (r : Relations) (client server : FeatureAddress) :
    (r.addSubscription client server).1.bindings = r.bindings := by
  rcases r.addSubscription_cases client server with hsame | ⟨-, -, hadd⟩
  · rw [hsame]
  · rw [hadd]

theorem mem_record {into : List Relation} {client server : FeatureAddress} {b : Relation}
    (h : b ∈ Eebus.Spine.record into client server) :
    b ∈ into ∨ b = Relation.recorded client server := by
  rcases Relations.record_cases into client server with hsame | hadd
  · rw [hsame] at h
    exact .inl h
  · rw [hadd] at h
    cases List.mem_append.mp h with
    | inl h => exact .inl h
    | inr h => exact .inr (List.mem_singleton.mp h)

/-- Where a relation recorded on a request comes from: the ends the request named. -/
def RecordedFor (commands : List (Cmd S)) (b : Relation) : Prop :=
  ∃ client server, requestedEnds commands = some (client, server) ∧
    b = Relation.recorded client server

theorem mem_recordRelation (r : Relations) (request : Datagram S) (b : Relation) :
    (b ∈ (recordRelation r request).bindings → b ∈ r.bindings ∨ RecordedFor request.commands b) ∧
      (b ∈ (recordRelation r request).subscriptions →
        b ∈ r.subscriptions ∨ RecordedFor request.commands b) := by
  have hheld : ∀ client server,
      (b ∈ (r.removeHeld client server).bindings → b ∈ r.bindings ∨ RecordedFor request.commands b) ∧
      (b ∈ (r.removeHeld client server).subscriptions →
        b ∈ r.subscriptions ∨ RecordedFor request.commands b) :=
    fun client server => ⟨fun h => .inl (List.mem_filter.mp h).1, fun h => .inl (List.mem_filter.mp h).1⟩
  simp only [recordRelation]
  split
  case h_1 call hcall =>
    split
    case h_1 client server hends =>
      refine ⟨fun h => ?_, .inl⟩
      cases mem_record h with
      | inl h => exact .inl h
      | inr h => exact .inr ⟨client, server, by simp [requestedEnds, hcall, hends], h⟩
    case h_2 => exact ⟨.inl, .inl⟩
  case h_2 call hcall =>
    split
    case h_1 client server hends =>
      refine ⟨.inl, fun h => ?_⟩
      cases mem_record h with
      | inl h => exact .inl h
      | inr h => exact .inr ⟨client, server, by simp [requestedEnds, hcall, hends], h⟩
    case h_2 => exact ⟨.inl, .inl⟩
  case h_3 =>
    split
    · exact hheld _ _
    · exact ⟨.inl, .inl⟩
  case h_4 =>
    split
    · exact hheld _ _
    · exact ⟨.inl, .inl⟩
  case h_5 => exact ⟨.inl, .inl⟩

theorem grows_handleResult (e : Engine S) (cmd : Cmd S) (reference : Option MsgCounter)
    (origin : FeatureAddress)
    (h : ∀ p ∈ e.pending, ∀ b, RecordedFor p.datagram.commands b → K.relation b) :
    Grows K e (e.handleResult cmd reference origin) := by
  have hresolve := e.grows_resolvePending (K := K) reference origin
  cases reference with
  | none => simpa [handleResult, resolvePending] using Grows.refl K e
  | some reference =>
    cases hfind : e.pending.find? (answers reference origin) with
    | none => simpa [handleResult, resolvePending, hfind] using hresolve
    | some request =>
      have hmem := List.mem_of_find?_eq_some hfind
      simp only [handleResult, resolvePending, hfind] at hresolve ⊢
      refine (hresolve.trans ?_).trans (grows_emit _ _)
      split
      · refine ⟨fun b hb => ?_, fun b hb => ?_, fun _ hd => .inl hd, fun p hp => .inl ⟨p, hp, .refl p⟩,
          fun _ hw => .inl hw, rfl⟩
        · exact ((mem_recordRelation e.relations request.datagram b).1 hb).imp_right (h request hmem b)
        · exact ((mem_recordRelation e.relations request.datagram b).2 hb).imp_right (h request hmem b)
      · exact .refl K _

theorem grows_handleCall (e : Engine S) (cmd : Cmd S) (source : FeatureAddress)
    (hbind : ∀ call named server client id,
      cmd.data = some ⟨.nodeManagementBindingRequestCall, call⟩ →
      requestEnds call = some (named, server) → clientOfCaller named source = .ok client →
      (e.device.resolve server).isSome = true → K.relation (.granted id client server))
    (hsubscribe : ∀ call named server client id,
      cmd.data = some ⟨.nodeManagementSubscriptionRequestCall, call⟩ →
      requestEnds call = some (named, server) → clientOfCaller named source = .ok client →
      K.relation (.granted id client server)) : Grows K e (e.handleCall cmd source).1 := by
  obtain ⟨hpeers, hpending, hdeferred⟩ := e.handleCall_frame cmd source
  have hdevice := e.handleCall_device cmd source
  have heffect := e.handleCall_effect cmd source
  have hrelations : (∀ r ∈ (e.handleCall cmd source).1.relations.bindings,
        r ∈ e.relations.bindings ∨ K.relation r) ∧
      ∀ r ∈ (e.handleCall cmd source).1.relations.subscriptions,
        r ∈ e.relations.subscriptions ∨ K.relation r := by
    generalize (e.handleCall cmd source).1.relations = relations at heffect
    cases heffect with
    | nothing => exact ⟨fun _ => .inl, fun _ => .inl⟩
    | bind call named server client hcmd hends hclient hresolved =>
      refine ⟨fun r hr => ?_, fun r hr => ?_⟩
      · cases mem_addBinding hr with
        | inl hr => exact .inl hr
        | inr hr =>
          obtain ⟨id, rfl⟩ := hr
          exact .inr (hbind call named server client id hcmd hends hclient hresolved)
      · rw [addBinding_subscriptions] at hr
        exact .inl hr
    | subscribe call named server client hcmd hends hclient _ =>
      refine ⟨fun r hr => ?_, fun r hr => ?_⟩
      · rw [addSubscription_bindings] at hr
        exact .inl hr
      · cases mem_addSubscription hr with
        | inl hr => exact .inl hr
        | inr hr =>
          obtain ⟨id, rfl⟩ := hr
          exact .inr (hsubscribe call named server client id hcmd hends hclient)
    | unbind => exact ⟨fun _ hr => .inl (List.mem_filter.mp hr).1, fun _ => .inl⟩
    | unsubscribe => exact ⟨fun _ => .inl, fun _ hr => .inl (List.mem_filter.mp hr).1⟩
  refine ⟨hrelations.1, hrelations.2, fun d hd => .inl ?_, fun p hp => .inl ⟨p, ?_, .refl p⟩,
    fun w hw => .inl ?_, by rw [hdevice]⟩
  · rwa [tracks, hpeers] at hd
  · rwa [hpending] at hp
  · rwa [hdeferred] at hw

theorem grows_decideWrite (e : Engine S) (w : DatagramWrite S) (now : Nat)
    (h : w.source.device = K.source) : Grows K e (e.decideWrite w now).1 := by
  simp only [decideWrite]
  split
  · split
    · exact .refl K e
    · refine ⟨fun _ => .inl, fun _ => .inl, fun _ => .inl, fun p hp => .inl ⟨p, hp, .refl p⟩,
        fun write hw => ?_, rfl⟩
      cases List.mem_append.mp hw with
      | inl hw => exact .inl hw
      | inr hw =>
        rw [List.mem_singleton.mp hw]
        exact .inr h
  · obtain ⟨said, -, hsends⟩ := e.applyWrite_sends w.feature w.data w.ops w.source w.destination
    refine Grows.trans ?_ (.of_sends hsends)
    exact .of_subset (fun _ h => h) (fun _ h => h) (fun _ h => h) (fun _ h => h) (fun _ h => h)
      (e.device.update_address w.destination fun _ => (w.ops.applyTo w.feature w.data).1)

def Signed (e : Engine S) (datagram : Datagram S) : Prop :=
  ∀ v, TakenUp e datagram v →
    v.classifier = .call ∨ v.classifier = .reply ∨ v.classifier = .notify →
    v.source.device.isSome = true

def originDevice (datagram : Datagram S) : Option AddressDevice :=
  (datagram.header.bind Header.addressSource).bind FeatureAddress.device

theorem originDevice_of_takenUp {e : Engine S} {datagram : Datagram S} {v : Envelope}
    (h : TakenUp e datagram v) : originDevice datagram = v.source.device := by
  obtain ⟨header, hheader, -, -, hsource, -⟩ := h.header
  simp [originDevice, hheader, hsource]

theorem grows_handleDatagram (e : Engine S) (datagram : Datagram S) (now : Nat)
    (hsource : K.source = originDevice datagram) (hsigned : Signed e datagram)
    (hgrant : ∀ v cmd call named server client id, TakenUp e datagram v → v.classifier = .call →
      datagram.commands = [cmd] →
      (cmd.data = some ⟨.nodeManagementBindingRequestCall, call⟩ ∧
          (e.device.resolve server).isSome = true ∨
        cmd.data = some ⟨.nodeManagementSubscriptionRequestCall, call⟩) →
      requestEnds call = some (named, server) → clientOfCaller named v.source = .ok client →
      K.relation (.granted id client server))
    (hrecord : ∀ p ∈ e.pending, ∀ b, RecordedFor p.datagram.commands b → K.relation b) :
    Grows K e (e.handleDatagram datagram now).1 := by
  rcases e.handleDatagram_served datagram now with hdiscarded | ⟨v, e', hv, hserved, hsends⟩
  · cases hdiscarded with
    | unread hsends => exact .of_sends hsends
    | filed source counter horigin _ hsends =>
      refine (e.grows_observeSource source counter ?_).trans (.of_sends hsends)
      simp [hsource, originDevice, horigin]
  · rw [originDevice_of_takenUp hv] at hsource
    have hfiled : Grows K e (v.filed e).1 := e.grows_observeSource _ _ hsource
    have hresolve : ∀ server, (v.filed e).1.device.resolve server = e.device.resolve server := by
      intro server
      rw [Envelope.filed, observeSource_device]
    refine (hfiled.trans ?_).trans (.of_sends hsends)
    cases hserved with
    | answered _ _ hanswered => exact .of_sends hanswered
    | written w _ => exact grows_decideWrite _ w now hsource.symm
    | called _ cmd hcall hcommand =>
      refine grows_handleCall _ cmd _ ?_ ?_
      · intro call named server client id hcmd hends hclient hresolved
        rw [hresolve] at hresolved
        exact hgrant v cmd call named server client id hv hcall hcommand (.inl ⟨hcmd, hresolved⟩)
          hends hclient
      · intro call named server client id hcmd hends hclient
        exact hgrant v cmd call named server client id hv hcall hcommand (.inr hcmd) hends hclient
    | informed _ cmd hclassifier _ =>
      obtain ⟨device, hdevice⟩ := Option.isSome_iff_exists.mp (hsigned v hv (.inr hclassifier))
      exact (grows_resolvePending _ _ _).trans
        (grows_handleIncomingData _ cmd _ hdevice (hsource.trans hdevice))
    | settled _ cmd _ _ =>
      refine grows_handleResult _ cmd _ _ fun p hp => ?_
      have hsub : (v.filed e).1.pending.Sublist e.pending := hearing_pending.observeSource e _ _
      exact hrecord p (hsub.subset hp)

theorem grows_request (e : Engine S) (source destination : FeatureAddress)
    (classifier : CmdClassifier) (ackRequest : Bool) (cmd : Cmd S) (now : Nat)
    (h : K.request destination [cmd]) :
    Grows K e (e.request source destination classifier ackRequest cmd now).1 := by
  obtain ⟨p, hpending, hdestination, hcommands⟩ :=
    e.request_pending source destination classifier ackRequest cmd now
  refine ⟨fun _ => .inl, fun _ => .inl, fun _ => .inl, fun q hq => ?_, fun _ => .inl, rfl⟩
  rw [hpending] at hq
  cases List.mem_append.mp hq with
  | inl hq => exact .inl ⟨q, List.mem_of_mem_drop hq, .refl q⟩
  | inr hq =>
    rw [List.mem_singleton.mp hq, hdestination, hcommands]
    exact .inr h

theorem grows_handleTimeout (e : Engine S) (now : Nat) : Grows K e (e.handleTimeout now) := by
  obtain ⟨hrelations, hpeers, hdeferred, hdevice⟩ := e.handleTimeout_frame now
  refine ⟨fun r hr => .inl (hrelations ▸ hr), fun r hr => .inl (hrelations ▸ hr), fun d hd => .inl ?_,
    fun p hp => .inl ?_, fun w hw => .inl (hdeferred hw), by rw [hdevice]⟩
  · rwa [tracks, hpeers] at hd
  · obtain ⟨q, hq, -, hdestination, hdatagram⟩ := e.handleTimeout_kept now p hp
    refine ⟨q, hq, hdestination, ?_⟩
    rcases hdatagram with hsame | ⟨counter, hsame⟩
    · rw [hsame]
    · rw [hsame]
      rfl

end Engine

/-- The engine holds nothing for `device`. -/
structure Clear (device : AddressDevice) (e : Engine S) : Prop where
  bindings : ∀ r ∈ e.relations.bindings, r.concerns device = false
  subscriptions : ∀ r ∈ e.relations.subscriptions, r.concerns device = false
  record : e.tracks device = false
  pending : ∀ p ∈ e.pending, goesTo device p = false
  deferred : ∀ w ∈ e.deferred, cameFrom device w = false

theorem Grows.clear {K : Kinds S} {e e' : Engine S} (h : Grows K e e')
    (hclear : Clear device e) (hrelation : ∀ r, K.relation r → r.concerns device = false)
    (hsource : K.source ≠ some device)
    (hrequest : ∀ destination commands, K.request destination commands →
      destination.device ≠ some device) : Clear device e' where
  bindings r hr := (h.bindings r hr).elim (hclear.bindings r) (hrelation r)
  subscriptions r hr := (h.subscriptions r hr).elim (hclear.subscriptions r) (hrelation r)
  record := by
    by_contra htracks
    cases h.records device (by simpa using htracks) with
    | inl hold => simp [hclear.record] at hold
    | inr hnew => exact hsource hnew
  pending p hp := by
    cases h.pending p hp with
    | inl hold =>
      obtain ⟨q, hq, hdestination, -⟩ := hold
      have hclear := hclear.pending q hq
      rwa [goesTo, ← hdestination] at hclear
    | inr hnew => simpa [goesTo] using hrequest _ _ hnew
  deferred w hw := by
    cases h.deferred w hw with
    | inl hold => exact hclear.deferred w hold
    | inr hnew =>
      rw [cameFrom, hnew]
      simpa using hsource

theorem clear_removePeer (e : Engine S) (device : AddressDevice) :
    Clear device (e.removePeer device) := by
  have hkept : ∀ {relations : List Relation} {r : Relation},
      r ∈ relations.filter (fun x => !x.concerns device) → r.concerns device = false := by
    intro relations r hr
    simpa using (List.mem_filter.mp hr).2
  refine ⟨fun r hr => hkept hr, fun r hr => hkept hr, ?_, fun p hp => ?_, fun w hw => ?_⟩
  · simp only [Engine.tracks, Engine.removePeer, List.any_eq_false]
    intro p hp
    simpa using (List.mem_filter.mp hp).2
  · simpa [goesTo] using (List.mem_filter.mp hp).2
  · simpa [cameFrom] using (List.mem_filter.mp hw).2

/-- The server of a granted relation is this device's, and so is the client of one it holds. -/
def OneEnd (address : AddressDevice) (r : Relation) : Prop :=
  if r.held then r.client.device = some address
  else r.server.device = none ∨ r.server.device = some address

/-- A request for a relation is sent to the device of the server it names. -/
def AsksServer (address : AddressDevice) (destination : FeatureAddress) (commands : List (Cmd S)) :
    Prop :=
  ∀ b, Engine.RecordedFor commands b →
    b.client.device = some address ∧ b.server.device = destination.device

structure Paired (e : Engine S) : Prop where
  bindings : ∀ r ∈ e.relations.bindings, OneEnd e.device.address r
  subscriptions : ∀ r ∈ e.relations.subscriptions, OneEnd e.device.address r
  requests : ∀ p ∈ e.pending, AsksServer e.device.address p.destination p.datagram.commands

theorem Grows.paired {K : Kinds S} {e e' : Engine S} (h : Grows K e e') (hpaired : Paired e)
    (hrelation : ∀ r, K.relation r → OneEnd e.device.address r)
    (hrequest : ∀ destination commands, K.request destination commands →
      AsksServer e.device.address destination commands) : Paired e' where
  bindings r hr := by
    rw [h.address]
    exact (h.bindings r hr).elim (hpaired.bindings r) (hrelation r)
  subscriptions r hr := by
    rw [h.address]
    exact (h.subscriptions r hr).elim (hpaired.subscriptions r) (hrelation r)
  requests p hp := by
    rw [h.address]
    cases h.pending p hp with
    | inl hold =>
      obtain ⟨q, hq, hdestination, hcommands⟩ := hold
      rw [hdestination, hcommands]
      exact hpaired.requests q hq
    | inr hnew => exact hrequest _ _ hnew

theorem OneEnd.concerns_unique {address other : AddressDevice} {r : Relation}
    (h : OneEnd address r) (hdevice : device ≠ address) (hother : other ≠ address)
    (hne : device ≠ other) (hr : r.concerns device = true) : r.concerns other = false := by
  simp only [Relation.concerns, Bool.or_eq_true, beq_iff_eq, Bool.or_eq_false_iff,
    beq_eq_false_iff_ne, ne_eq] at hr ⊢
  simp only [OneEnd] at h
  split at h
  · rw [h] at hr ⊢
    have hserver : r.server.device = some device :=
      hr.resolve_left fun heq => hdevice (Option.some.inj heq).symm
    rw [hserver]
    exact ⟨fun heq => hother (Option.some.inj heq).symm, fun heq => hne (Option.some.inj heq)⟩
  · have hclient : r.client.device = some device := by
      refine hr.resolve_right fun heq => ?_
      rw [heq] at h
      simp [hdevice] at h
    rw [hclient]
    refine ⟨fun heq => hne (Option.some.inj heq), fun heq => ?_⟩
    rw [heq] at h
    simp [hother] at h

/-- The two engines hold the same for `device`, relations at either end included. -/
structure SameSession (device : AddressDevice) (e e' : Engine S) : Prop where
  bindings : e'.relations.bindings.filter (·.concerns device) =
    e.relations.bindings.filter (·.concerns device)
  subscriptions : e'.relations.subscriptions.filter (·.concerns device) =
    e.relations.subscriptions.filter (·.concerns device)
  record : e'.peers.filter (Peer.isAt device) = e.peers.filter (Peer.isAt device)
  pending : e'.pending.filter (goesTo device) = e.pending.filter (goesTo device)
  deferred : e'.deferred.filter (cameFrom device) = e.deferred.filter (cameFrom device)

namespace SameSession

variable {device other : AddressDevice} {e e' e'' : Engine S}

theorem refl (device : AddressDevice) (e : Engine S) : SameSession device e e :=
  ⟨rfl, rfl, rfl, rfl, rfl⟩

theorem trans (h : SameSession device e e') (h' : SameSession device e' e'') :
    SameSession device e e'' :=
  ⟨h'.bindings.trans h.bindings, h'.subscriptions.trans h.subscriptions, h'.record.trans h.record,
    h'.pending.trans h.pending, h'.deferred.trans h.deferred⟩

theorem filter_keep {α : Type} {p keep : α → Bool} {xs : List α}
    (h : ∀ x ∈ xs, p x = true → keep x = true) : (xs.filter keep).filter p = xs.filter p := by
  rw [List.filter_filter]
  refine List.filter_congr fun x hx => ?_
  cases hp : p x with
  | true => simp [h x hx hp]
  | false => rfl

theorem removePeer (hpaired : Paired e) (hdevice : device ≠ e.device.address)
    (hother : other ≠ e.device.address) (hne : device ≠ other) :
    SameSession device e (e.removePeer other) where
  bindings := filter_keep fun r hr hconcerns => by
    simp [(hpaired.bindings r hr).concerns_unique hdevice hother hne hconcerns]
  subscriptions := filter_keep fun r hr hconcerns => by
    simp [(hpaired.subscriptions r hr).concerns_unique hdevice hother hne hconcerns]
  record := filter_keep fun p _ hp => by
    simp [Engine.not_isAt hne.symm hp]
  pending := filter_keep fun p _ hp => by
    have hdestination : p.destination.device = some device := by simpa [goesTo] using hp
    simpa [hdestination] using hne
  deferred := filter_keep fun w _ hw => by
    have hpeer : w.peer.device = some device := by simpa [cameFrom] using hw
    simpa [hpeer] using hne

end SameSession

end Eebus.Spine
