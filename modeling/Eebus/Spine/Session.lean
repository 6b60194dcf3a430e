import Eebus.Spine.Operations

/-! What the engine holds for each of its peers, and what a datagram from one peer does to what is
held for another: the relations it was granted, its record, the requests outstanding against it and
the writes it has waiting. -/

namespace Eebus.Spine

open Eebus.Library Eebus.Model

variable {S : Schema}

namespace Engine

inductive CallEffect (e : Engine S) (cmd : Cmd S) (source : FeatureAddress) : Relations → Prop
  | nothing : CallEffect e cmd source e.relations
  | bind (call : RelationRequestCall) (named server client : FeatureAddress)
      (payload : cmd.data = some ⟨.nodeManagementBindingRequestCall, call⟩)
      (ends : requestEnds call = some (named, server))
      (caller : clientOfCaller named source = .ok client)
      (resolved : (e.device.resolve server).isSome = true) :
      CallEffect e cmd source (e.relations.addBinding client server).1
  | subscribe (call : RelationRequestCall) (named server client : FeatureAddress)
      (payload : cmd.data = some ⟨.nodeManagementSubscriptionRequestCall, call⟩)
      (ends : requestEnds call = some (named, server))
      (caller : clientOfCaller named source = .ok client)
      (reachable : isNodeManagement server = true ∨ (e.device.resolve server).isSome = true) :
      CallEffect e cmd source (e.relations.addSubscription client server).1
  | unbind (call : RelationDeleteCall) (named server client : FeatureAddress)
      (payload : cmd.data = some ⟨.nodeManagementBindingDeleteCall, call⟩)
      (ends : deleteEnds call = some (named, server))
      (caller : clientOfCaller named source = .ok client) :
      CallEffect e cmd source (e.relations.removeBinding client server)
  | unsubscribe (call : RelationDeleteCall) (named server client : FeatureAddress)
      (payload : cmd.data = some ⟨.nodeManagementSubscriptionDeleteCall, call⟩)
      (ends : deleteEnds call = some (named, server))
      (caller : clientOfCaller named source = .ok client) :
      CallEffect e cmd source (e.relations.removeSubscription client server)

theorem handleCall_effect (e : Engine S) (cmd : Cmd S) (source : FeatureAddress) :
    CallEffect e cmd source (e.handleCall cmd source).1.relations := by
  simp only [handleCall]
  split
  case h_1 call hcmd =>
    simp only [handleBindingRequest]
    split
    case h_1 => exact .nothing
    case h_2 named server hends =>
      split
      case h_1 => exact .nothing
      case h_2 client hclient =>
        split
        case isTrue => exact .nothing
        case isFalse hresolved =>
          have hadd := CallEffect.bind (e := e) call named server client hcmd hends hclient
            (by simpa [Option.isSome_iff_ne_none] using hresolved)
          split
          case h_1 relations id heq => rwa [heq] at hadd
          case h_2 relations error heq => rwa [heq] at hadd
  case h_2 call hcmd =>
    simp only [handleSubscriptionRequest]
    split
    case h_1 => exact .nothing
    case h_2 named server hends =>
      split
      case h_1 => exact .nothing
      case h_2 client hclient =>
        split
        case isTrue => exact .nothing
        case isFalse hreachable =>
          have hadd := CallEffect.subscribe (e := e) call named server client hcmd hends hclient (by
            cases hnode : isNodeManagement server with
            | true => exact .inl rfl
            | false => exact .inr (by simpa [hnode, Option.isSome_iff_ne_none] using hreachable))
          split
          case h_1 relations id heq => rwa [heq] at hadd
          case h_2 relations error heq => rwa [heq] at hadd
  case h_3 call hcmd =>
    simp only [handleBindingDelete]
    split
    case h_1 => exact .nothing
    case h_2 named server hends =>
      split
      case h_1 => exact .nothing
      case h_2 client hclient => exact .unbind call named server client hcmd hends hclient
  case h_4 call hcmd =>
    simp only [handleSubscriptionDelete]
    split
    case h_1 => exact .nothing
    case h_2 named server hends =>
      split
      case h_1 => exact .nothing
      case h_2 client hclient => exact .unsubscribe call named server client hcmd hends hclient
  case h_5 => exact .nothing

theorem handleCall_frame (e : Engine S) (cmd : Cmd S) (source : FeatureAddress) :
    (e.handleCall cmd source).1.peers = e.peers ∧
      (e.handleCall cmd source).1.pending = e.pending ∧
      (e.handleCall cmd source).1.deferred = e.deferred := by
  obtain ⟨relations, said, hsame, -⟩ := e.handleCall_says cmd source
  rw [hsame]
  exact ⟨rfl, rfl, rfl⟩

end Engine

variable {device : AddressDevice} {client source : FeatureAddress}

theorem clientOfCaller_device {named : FeatureAddress}
    (h : Engine.clientOfCaller named source = .ok client) :
    client.device = named.device.or source.device := by
  simp only [Engine.clientOfCaller] at h
  split at h
  case h_1 device sender hnamed hsource =>
    split at h
    · simp at h
    · cases h
      simp [hnamed]
  case h_2 sender hnamed hsource =>
    cases h
    simp [hnamed, hsource]
  case h_3 hsource =>
    cases h
    simp [hsource]

theorem clientOfCaller_sender {named : FeatureAddress} {sender : AddressDevice}
    (h : Engine.clientOfCaller named source = .ok client) (hsource : source.device = some sender) :
    client.device = some sender := by
  rw [clientOfCaller_device h]
  simp only [Engine.clientOfCaller, hsource] at h
  cases hnamed : named.device with
  | none => simpa using hsource
  | some device =>
    rw [hnamed] at h
    by_cases heq : device = sender
    · rw [heq]
      rfl
    · simp [heq] at h

/-- A relation this device has granted to one of `peer`'s clients. -/
def grantedFor (peer : AddressDevice) (r : Relation) : Bool :=
  !r.held && r.client.device == some peer

def goesTo (peer : AddressDevice) (p : Pending S) : Bool := p.destination.device == some peer

def cameFrom (peer : AddressDevice) (write : DeferredWrite S) : Bool :=
  write.peer.device == some peer

structure SameFor (peer : AddressDevice) (e e' : Engine S) : Prop where
  bindings : e'.relations.bindings.filter (grantedFor peer) =
    e.relations.bindings.filter (grantedFor peer)
  subscriptions : e'.relations.subscriptions.filter (grantedFor peer) =
    e.relations.subscriptions.filter (grantedFor peer)
  record : e'.peers.filter (Peer.isAt peer) = e.peers.filter (Peer.isAt peer)
  pending : e'.pending.filter (goesTo peer) = e.pending.filter (goesTo peer)
  deferred : e'.deferred.filter (cameFrom peer) = e.deferred.filter (cameFrom peer)

namespace SameFor

variable {peer : AddressDevice} {e e' e'' : Engine S}

theorem refl (peer : AddressDevice) (e : Engine S) : SameFor peer e e := ⟨rfl, rfl, rfl, rfl, rfl⟩

theorem trans (h : SameFor peer e e') (h' : SameFor peer e' e'') : SameFor peer e e'' :=
  ⟨h'.bindings.trans h.bindings, h'.subscriptions.trans h.subscriptions, h'.record.trans h.record,
    h'.pending.trans h.pending, h'.deferred.trans h.deferred⟩

theorem of_sends {P : Datagram S → Prop} (h : Sends P e e') : SameFor peer e e' :=
  ⟨by rw [h.relations], by rw [h.relations], by rw [h.peers], by rw [h.pending],
    by rw [h.deferred]⟩

end SameFor

namespace Engine

/-- Whether the engine keeps a record of `device`. -/
def tracks (e : Engine S) (device : AddressDevice) : Bool := e.peers.any (Peer.isAt device)

/-- The peer that gives way to `device` when it is heard of: none, unless it is new and as many
are tracked as can be. -/
def evictedFor (e : Engine S) (device : AddressDevice) : Option AddressDevice :=
  if e.tracks device then none
  else if maxPeers ≤ e.peers.length then
    e.peers[e.evictIndex]?.bind fun peer => peer.remote.address
  else none

def without (e : Engine S) : Option AddressDevice → Engine S
  | none => e
  | some device => e.removePeer device

theorem isAt_new {peer : AddressDevice} (h : peer ≠ device) :
    Peer.isAt peer (Peer.new device : Peer S) = false := by
  simpa [Peer.isAt, Peer.new, RemoteDevice.unknown] using h.symm

theorem sameFor_addPeer (e : Engine S) {peer : AddressDevice} (h : peer ≠ device) :
    SameFor peer e { e with peers := e.peers ++ [Peer.new device] } :=
  ⟨rfl, rfl, by simp [isAt_new h], rfl, rfl⟩

theorem sameFor_peerEntry (e : Engine S) {peer : AddressDevice} (h : peer ≠ device) :
    SameFor peer (e.without (e.evictedFor device)) (e.peerEntry device) := by
  cases htracks : e.peers.any (Peer.isAt device) with
  | true => simpa [peerEntry, evictedFor, tracks, htracks, without] using SameFor.refl peer e
  | false =>
    by_cases hfull : maxPeers ≤ e.peers.length
    · cases hevicted : e.peers[e.evictIndex]?.bind fun peer => peer.remote.address with
      | some evicted =>
        have hevict : e.evict = e.removePeer evicted := by
          simp only [evict, hevicted]
        have hentry : e.peerEntry device =
            { e.removePeer evicted with
              peers := (e.removePeer evicted).peers ++ [Peer.new device] } := by
          simp only [peerEntry, htracks, Bool.false_eq_true, if_false, if_pos hfull, hevict]
        rw [hentry]
        simpa [evictedFor, tracks, htracks, hfull, hevicted, without] using
          sameFor_addPeer (e.removePeer evicted) h
      | none =>
        have hevict : e.evict = { e with peers := e.peers.eraseIdx e.evictIndex } := by
          simp only [evict, hevicted]
        have herase : SameFor peer e { e with peers := e.peers.eraseIdx e.evictIndex } := by
          refine ⟨rfl, rfl, filter_eraseIdx e.peers _ fun p hp => ?_, rfl, rfl⟩
          have haddress : p.remote.address = none := by simpa [hp] using hevicted
          simp [Peer.isAt, haddress]
        have hentry : e.peerEntry device =
            { e with peers := e.peers.eraseIdx e.evictIndex ++ [Peer.new device] } := by
          simp only [peerEntry, htracks, Bool.false_eq_true, if_false, if_pos hfull, hevict]
        rw [hentry]
        simpa [evictedFor, tracks, htracks, hfull, hevicted, without] using
          herase.trans (sameFor_addPeer { e with peers := e.peers.eraseIdx e.evictIndex } h)
    · simpa [peerEntry, evictedFor, tracks, htracks, hfull, without] using sameFor_addPeer e h

theorem tracks_peerEntry (e : Engine S) (device : AddressDevice) :
    (e.peerEntry device).tracks device = true := by
  simp only [peerEntry, tracks]
  split
  case isTrue htracks => exact htracks
  case isFalse => simp [Peer.isAt, Peer.new, RemoteDevice.unknown]

theorem evictedFor_of_tracks {e : Engine S}
    (h : e.tracks device = true) : e.evictedFor device = none := by
  simp [evictedFor, h]

section Updates

variable {peer device : AddressDevice}

theorem not_isAt {p : Peer S} (h : peer ≠ device) (hp : Peer.isAt device p = true) :
    Peer.isAt peer p = false := by
  simp only [Peer.isAt, beq_iff_eq, beq_eq_false_iff_ne, ne_eq] at hp ⊢
  rw [hp]
  simpa using h.symm

theorem sameFor_updatePeer (e : Engine S) (h : peer ≠ device) {g : Peer S → Peer S}
    (hg : ∀ p, Peer.isAt device p = true → Peer.isAt device (g p) = true) :
    SameFor peer e (e.updatePeer device g) :=
  ⟨rfl, rfl, filter_modifyFirst e.peers fun p hp => ⟨not_isAt h hp, not_isAt h (hg p hp)⟩, rfl, rfl⟩

theorem tracks_updatePeer (e : Engine S) {g : Peer S → Peer S}
    (hg : ∀ p, Peer.isAt device p = true → Peer.isAt device (g p) = true) :
    (e.updatePeer device g).tracks device = e.tracks device := by
  simp only [tracks, updatePeer]
  induction e.peers with
  | nil => rfl
  | cons p rest ih =>
    cases hp : Peer.isAt device p with
    | true => simp [modifyFirst_cons_pos rest hp, hp, hg p hp]
    | false => simp [modifyFirst_cons_neg rest hp, hp, ih]

theorem sameFor_observeSource (e : Engine S) (counter : MsgCounter)
    (hsource : source.device = some device) (h : peer ≠ device) :
    SameFor peer (e.without (e.evictedFor device)) (e.observeSource source counter).1 := by
  simp only [observeSource, hsource, observeCounter]
  exact (e.sameFor_peerEntry h).trans (sameFor_updatePeer _ h fun _ hp => hp)

theorem tracks_observeSource (e : Engine S) (counter : MsgCounter)
    (hsource : source.device = some device) :
    (e.observeSource source counter).1.tracks device = true := by
  simp only [observeSource, hsource, observeCounter]
  refine (tracks_updatePeer _ ?_).trans (e.tracks_peerEntry device)
  exact fun _ hp => hp

theorem sameFor_peerEntry_tracked {e : Engine S} (h : peer ≠ device)
    (htracks : e.tracks device = true) : SameFor peer e (e.peerEntry device) := by
  have hentry := e.sameFor_peerEntry h
  rwa [evictedFor_of_tracks htracks] at hentry

theorem sameFor_emit (e : Engine S) (event : SpineEvent S) : SameFor peer e (e.emit event) :=
  ⟨rfl, rfl, rfl, rfl, rfl⟩

theorem sameFor_absorb {e : Engine S} (data : CmdData S)
    (ops : WriteOps S) (hsource : source.device = some device) (h : peer ≠ device)
    (htracks : e.tracks device = true) : SameFor peer e (e.absorb source data ops).1 := by
  have hentry := sameFor_peerEntry_tracked h htracks
  simp only [absorb]
  split
  · simp only [absorbDiscovery, discoveryDevice, hsource, Option.some_or]
    refine (hentry.trans (sameFor_updatePeer _ h fun p hp => ?_)).trans (sameFor_emit _ _)
    have haddress : p.remote.address = some device := by simpa [Peer.isAt] using hp
    simp [Peer.isAt, RemoteDevice.applyDetailedDiscovery_address _ _ _ haddress]
  · simp only [absorbUseCases, hsource]
    refine (hentry.trans (sameFor_updatePeer _ h ?_)).trans (sameFor_emit _ _)
    exact fun _ hp => hp
  · simp only [resolveRemote, hsource]
    exact hentry.trans (sameFor_updatePeer _ h fun _ hp => hp)

theorem sameFor_resolvePending (e : Engine S) (reference : Option MsgCounter)
    {origin : FeatureAddress} (horigin : origin.device ≠ some peer) :
    SameFor peer e (e.resolvePending reference origin).1 := by
  cases reference with
  | none => exact SameFor.refl peer e
  | some reference =>
    refine ⟨rfl, rfl, rfl, filter_eraseP e.pending fun p hp => ?_, rfl⟩
    simp only [answers, Bool.and_eq_true] at hp
    cases hdestination : p.destination.device with
    | none => simp [goesTo, hdestination]
    | some destination =>
      have heq : origin.device = some destination := by simpa [hdestination] using hp.2
      simpa [goesTo, hdestination, ← heq] using horigin

theorem tracks_resolvePending (e : Engine S) (reference : Option MsgCounter)
    (origin : FeatureAddress) :
    (e.resolvePending reference origin).1.tracks device = e.tracks device := by
  cases reference <;> rfl

theorem not_joins {r : Relation} {server : FeatureAddress} (hr : grantedFor peer r = true)
    (hclient : client.device = some device) (h : peer ≠ device) : r.joins client server = false := by
  have hdevice : r.client.device = some peer := by
    simp only [grantedFor, Bool.and_eq_true, beq_iff_eq] at hr
    exact hr.2
  simp [Relation.joins, sameFeature, devicesAgree, hdevice, hclient, h]

theorem filter_grantedFor_keep {relations : List Relation} {keep : Relation → Bool}
    (h : ∀ r ∈ relations, grantedFor peer r = true → keep r = true) :
    (relations.filter keep).filter (grantedFor peer) = relations.filter (grantedFor peer) := by
  rw [List.filter_filter]
  refine List.filter_congr fun r hmem => ?_
  cases hr : grantedFor peer r with
  | true => simp [h r hmem hr]
  | false => rfl

theorem filter_grantedFor_addBinding (r : Relations)
    (server : FeatureAddress) (hclient : client.device ≠ some peer) :
    (r.addBinding client server).1.bindings.filter (grantedFor peer) =
        r.bindings.filter (grantedFor peer) ∧
      (r.addBinding client server).1.subscriptions = r.subscriptions := by
  rcases r.addBinding_cases client server with hsame | ⟨-, -, -, -, hadd⟩
  · rw [hsame]
    exact ⟨rfl, rfl⟩
  · have hnew : grantedFor peer (Relation.granted r.nextBinding client server) = false := by
      simpa [grantedFor, Relation.granted] using hclient
    rw [hadd]
    exact ⟨by simp [hnew], rfl⟩

theorem filter_grantedFor_addSubscription (r : Relations)
    (server : FeatureAddress) (hclient : client.device ≠ some peer) :
    (r.addSubscription client server).1.subscriptions.filter (grantedFor peer) =
        r.subscriptions.filter (grantedFor peer) ∧
      (r.addSubscription client server).1.bindings = r.bindings := by
  rcases r.addSubscription_cases client server with hsame | ⟨-, -, hadd⟩
  · rw [hsame]
    exact ⟨rfl, rfl⟩
  · have hnew : grantedFor peer (Relation.granted r.nextSubscription client server) = false := by
      simpa [grantedFor, Relation.granted] using hclient
    rw [hadd]
    exact ⟨by simp [hnew], rfl⟩

/-- The call neither names a client of `peer`'s, nor relations that were granted to one. -/
structure LeavesAlone (peer : AddressDevice) (e : Engine S) (cmd : Cmd S) (source : FeatureAddress) : Prop where
  bound : ∀ call named server client, cmd.data = some ⟨.nodeManagementBindingRequestCall, call⟩ →
    requestEnds call = some (named, server) → clientOfCaller named source = .ok client →
    client.device ≠ some peer
  subscribed : ∀ call named server client,
    cmd.data = some ⟨.nodeManagementSubscriptionRequestCall, call⟩ →
    requestEnds call = some (named, server) → clientOfCaller named source = .ok client →
    client.device ≠ some peer
  unbound : ∀ call named server client, cmd.data = some ⟨.nodeManagementBindingDeleteCall, call⟩ →
    deleteEnds call = some (named, server) → clientOfCaller named source = .ok client →
    ∀ r ∈ e.relations.bindings, grantedFor peer r = true → r.joins client server = false
  unsubscribed : ∀ call named server client,
    cmd.data = some ⟨.nodeManagementSubscriptionDeleteCall, call⟩ →
    deleteEnds call = some (named, server) → clientOfCaller named source = .ok client →
    ∀ r ∈ e.relations.subscriptions, grantedFor peer r = true → r.joins client server = false

theorem leavesAlone_of_source (e : Engine S) (cmd : Cmd S)
    (hsource : source.device = some device) (h : peer ≠ device) : LeavesAlone peer e cmd source := by
  have hclient : ∀ {named client : FeatureAddress}, clientOfCaller named source = .ok client →
      client.device = some device := fun hcaller => clientOfCaller_sender hcaller hsource
  have hother : ∀ {named client : FeatureAddress}, clientOfCaller named source = .ok client →
      client.device ≠ some peer := fun hcaller => by
    rw [hclient hcaller]
    simpa using h.symm
  exact ⟨fun _ _ _ _ _ _ => hother, fun _ _ _ _ _ _ => hother,
    fun _ _ _ _ _ _ hcaller _ _ hr => not_joins hr (hclient hcaller) h,
    fun _ _ _ _ _ _ hcaller _ _ hr => not_joins hr (hclient hcaller) h⟩

theorem sameFor_handleCall {e : Engine S} {cmd : Cmd S}
    (h : LeavesAlone peer e cmd source) : SameFor peer e (e.handleCall cmd source).1 := by
  obtain ⟨hpeers, hpending, hdeferred⟩ := e.handleCall_frame cmd source
  have heffect := e.handleCall_effect cmd source
  have hrelations : (e.handleCall cmd source).1.relations.bindings.filter (grantedFor peer) =
        e.relations.bindings.filter (grantedFor peer) ∧
      (e.handleCall cmd source).1.relations.subscriptions.filter (grantedFor peer) =
        e.relations.subscriptions.filter (grantedFor peer) := by
    generalize (e.handleCall cmd source).1.relations = relations at heffect
    cases heffect with
    | nothing => exact ⟨rfl, rfl⟩
    | bind call named server client hcmd hends hclient _ =>
      obtain ⟨hbindings, hsubscriptions⟩ := filter_grantedFor_addBinding e.relations
        server (h.bound call named server client hcmd hends hclient)
      exact ⟨hbindings, by rw [hsubscriptions]⟩
    | subscribe call named server client hcmd hends hclient _ =>
      obtain ⟨hsubscriptions, hbindings⟩ := filter_grantedFor_addSubscription
        e.relations server (h.subscribed call named server client hcmd hends hclient)
      exact ⟨by rw [hbindings], hsubscriptions⟩
    | unbind call named server client hcmd hends hclient =>
      refine ⟨filter_grantedFor_keep fun r hmem hr => ?_, rfl⟩
      simp [h.unbound call named server client hcmd hends hclient r hmem hr]
    | unsubscribe call named server client hcmd hends hclient =>
      refine ⟨rfl, filter_grantedFor_keep fun r hmem hr => ?_⟩
      simp [h.unsubscribed call named server client hcmd hends hclient r hmem hr]
  exact ⟨hrelations.1, hrelations.2, by rw [hpeers], by rw [hpending], by rw [hdeferred]⟩

theorem filter_grantedFor_record (relations : List Relation) (client server : FeatureAddress) :
    (Eebus.Spine.record relations client server).filter (grantedFor peer) =
      relations.filter (grantedFor peer) := by
  simp only [Eebus.Spine.record]
  repeat' split
  · rfl
  · rfl
  · simp [grantedFor, Relation.recorded]

theorem filter_grantedFor_recordRelation (peer : AddressDevice) (r : Relations)
    (request : Datagram S) : (recordRelation r request).bindings.filter (grantedFor peer) =
        r.bindings.filter (grantedFor peer) ∧
      (recordRelation r request).subscriptions.filter (grantedFor peer) =
        r.subscriptions.filter (grantedFor peer) := by
  have hheld : ∀ (relations : List Relation) (client server : FeatureAddress), ∀ x ∈ relations,
      grantedFor peer x = true → (!(x.held && x.joins client server)) = true := by
    intro relations client server x _ hx
    simp only [grantedFor, Bool.and_eq_true, Bool.not_eq_true'] at hx
    simp [hx.1]
  simp only [recordRelation]
  split
  · split
    · exact ⟨filter_grantedFor_record _ _ _, rfl⟩
    · exact ⟨rfl, rfl⟩
  · split
    · exact ⟨rfl, filter_grantedFor_record _ _ _⟩
    · exact ⟨rfl, rfl⟩
  · split
    · exact ⟨filter_grantedFor_keep (hheld _ _ _), filter_grantedFor_keep (hheld _ _ _)⟩
    · exact ⟨rfl, rfl⟩
  · split
    · exact ⟨filter_grantedFor_keep (hheld _ _ _), filter_grantedFor_keep (hheld _ _ _)⟩
    · exact ⟨rfl, rfl⟩
  · exact ⟨rfl, rfl⟩

theorem sameFor_handleResult (e : Engine S) (cmd : Cmd S) (reference : Option MsgCounter)
    {origin : FeatureAddress} (horigin : origin.device ≠ some peer) :
    SameFor peer e (e.handleResult cmd reference origin) := by
  have hpending := e.sameFor_resolvePending reference horigin
  simp only [handleResult]
  split
  case h_1 e' heq => rwa [heq] at hpending
  case h_2 e' request heq =>
    rw [heq] at hpending
    refine hpending.trans (SameFor.trans ?_ (sameFor_emit _ _))
    split
    · obtain ⟨hbindings, hsubscriptions⟩ :=
        filter_grantedFor_recordRelation peer e'.relations request.datagram
      exact ⟨hbindings, hsubscriptions, rfl, rfl, rfl⟩
    · exact SameFor.refl peer e'

theorem sameFor_decideWrite (e : Engine S) (w : DatagramWrite S) (now : Nat)
    (hsource : w.source.device ≠ some peer) : SameFor peer e (e.decideWrite w now).1 := by
  simp only [decideWrite]
  split
  · split
    · exact SameFor.refl peer e
    · refine ⟨rfl, rfl, rfl, rfl, ?_⟩
      simpa [deferWrite, cameFrom] using hsource
  · obtain ⟨said, -, hsends⟩ := e.applyWrite_sends w.feature w.data w.ops w.source w.destination
    refine SameFor.trans ?_ (SameFor.of_sends hsends)
    exact ⟨rfl, rfl, rfl, rfl, rfl⟩

end Updates

/-- A datagram that names its source leaves alone what is held for every other peer, but for the
one that gives way to a source not heard of before. -/
theorem handleDatagram_sameFor (e : Engine S) {datagram : Datagram S} (now : Nat)
    {peer : AddressDevice} (horigin : datagram.header.bind Header.addressSource = some source)
    (hsource : source.device = some device) (h : peer ≠ device) :
    SameFor peer e (e.handleDatagram datagram now).1 ∨
      SameFor peer (e.without (e.evictedFor device)) (e.handleDatagram datagram now).1 := by
  rcases e.handleDatagram_served datagram now with hdiscarded | ⟨v, e', hv, hserved, hsends⟩
  · cases hdiscarded with
    | unread hsends => exact .inl (SameFor.of_sends hsends)
    | filed source' counter horigin' _ hsends =>
      rw [horigin] at horigin'
      cases horigin'
      exact .inr ((e.sameFor_observeSource counter hsource h).trans (SameFor.of_sends hsends))
  · obtain ⟨header, hheader, -, -, hvsource, -⟩ := hv.header
    have heq : source = v.source := by simpa [hheader, hvsource] using horigin.symm
    subst heq
    have hfiled : SameFor peer (e.without (e.evictedFor device)) (v.filed e).1 :=
      e.sameFor_observeSource v.counter hsource h
    have htracks : (v.filed e).1.tracks device = true := e.tracks_observeSource v.counter hsource
    have hother : v.source.device ≠ some peer := by
      rw [hsource]
      simpa using h.symm
    refine .inr (hfiled.trans (SameFor.trans ?_ (SameFor.of_sends hsends)))
    cases hserved with
    | answered _ _ hanswered => exact SameFor.of_sends hanswered
    | written w _ => exact sameFor_decideWrite _ w now hother
    | called _ cmd _ _ => exact sameFor_handleCall (leavesAlone_of_source _ cmd hsource h)
    | informed _ cmd _ _ =>
      refine (sameFor_resolvePending _ v.reference hother).trans ?_
      simp only [handleIncomingData]
      split
      · exact SameFor.refl peer _
      · refine (sameFor_absorb _ _ hsource h ?_).trans (sameFor_emit _ _)
        rwa [tracks_resolvePending]
    | settled _ cmd _ _ => exact sameFor_handleResult _ cmd v.reference hother

def describes (cmd : Cmd S) : Option AddressDevice :=
  match cmd.data with
  | some ⟨.nodeManagementDetailedDiscoveryData, update⟩ => discoveryDevice ⟨none, none, none⟩ update
  | _ => none

def grantedBeside (device : AddressDevice) (r : Relation) : Bool :=
  !r.held && r.client.device.any (· != device)

/-- Whether a call whose source names no device acts in the name of another than `device`: it files a
client of another's, or deletes a relation granted to one. -/
def callsForAnother (device : AddressDevice) (relations : Relations) (cmd : Cmd S) : Bool :=
  match cmd.data with
  | some ⟨.nodeManagementBindingRequestCall, call⟩ =>
    (requestEnds call).any fun ends => ends.1.device.any (· != device)
  | some ⟨.nodeManagementSubscriptionRequestCall, call⟩ =>
    (requestEnds call).any fun ends => ends.1.device.any (· != device)
  | some ⟨.nodeManagementBindingDeleteCall, call⟩ => (deleteEnds call).any fun ends =>
    relations.bindings.any fun r => grantedBeside device r && r.joins ends.1 ends.2
  | some ⟨.nodeManagementSubscriptionDeleteCall, call⟩ => (deleteEnds call).any fun ends =>
    relations.subscriptions.any fun r => grantedBeside device r && r.joins ends.1 ends.2
  | _ => false

/-- Whether a write to a feature that requires a binding matches one granted to another than `device`. -/
def writesForAnother (device : AddressDevice) (e : Engine S) (source destination : FeatureAddress) : Bool :=
  (e.device.resolve destination).any (fun f => f.binding = .required) &&
    e.relations.bindings.any fun r => grantedBeside device r && r.joins source destination

/-- Whether a datagram whose source names no device acts in the name of another than `device`. -/
def actsForAnother (device : AddressDevice) (e : Engine S) (datagram : Datagram S) : Bool :=
  match datagram.header, datagram.commands with
  | some header, [cmd] =>
    match header.cmdClassifier, header.addressSource, header.addressDestination with
    | some .write, some source, some destination => writesForAnother device e source destination
    | some .call, _, _ => callsForAnother device e.relations cmd
    | some .reply, _, _ => (describes cmd).any (· != device)
    | some .notify, _, _ => (describes cmd).any (· != device)
    | _, _, _ => false
  | _, _ => false

section Unnamed

variable {peer device : AddressDevice} {e : Engine S} {source : FeatureAddress}

theorem grantedBeside_of_grantedFor (h : peer ≠ device) {r : Relation} (hr : grantedFor peer r = true) :
    grantedBeside device r = true := by
  simp only [grantedFor, Bool.and_eq_true, beq_iff_eq] at hr
  simp [grantedBeside, hr.1, hr.2, h]

theorem clientOfCaller_unnamed {named : FeatureAddress} (hsource : source.device = none)
    (h : clientOfCaller named source = .ok client) : client = named := by
  unfold clientOfCaller at h
  rw [hsource] at h
  cases hnamed : named.device <;> simp_all

theorem leavesAlone_unnamed {cmd : Cmd S} (hsource : source.device = none)
    (hown : callsForAnother device e.relations cmd = false) (h : peer ≠ device) :
    LeavesAlone peer e cmd source := by
  constructor
  · intro call named server client hcmd hends hcaller hclient
    rw [clientOfCaller_unnamed hsource hcaller] at hclient
    simp [callsForAnother, hcmd, hends, hclient, h] at hown
  · intro call named server client hcmd hends hcaller hclient
    rw [clientOfCaller_unnamed hsource hcaller] at hclient
    simp [callsForAnother, hcmd, hends, hclient, h] at hown
  · intro call named server client hcmd hends hcaller r hr hgranted
    rw [clientOfCaller_unnamed hsource hcaller]
    have hbeside := grantedBeside_of_grantedFor h hgranted
    simp only [callsForAnother, hcmd, hends, Option.any_some, List.any_eq_false, Bool.and_eq_true] at hown
    simpa [hbeside] using hown r hr
  · intro call named server client hcmd hends hcaller r hr hgranted
    rw [clientOfCaller_unnamed hsource hcaller]
    have hbeside := grantedBeside_of_grantedFor h hgranted
    simp only [callsForAnother, hcmd, hends, Option.any_some, List.any_eq_false, Bool.and_eq_true] at hown
    simpa [hbeside] using hown r hr

theorem sameFor_absorb_unnamed {cmd : Cmd S} {data : CmdData S} (hdata : cmd.data = some data)
    (hsource : source.device = none) (h : peer ≠ device)
    (hown : (describes cmd).any (· != device) = false)
    (htracked : describes cmd = some device → e.evictedFor device = none) :
    SameFor peer e (e.absorb source data (WriteOps.of cmd)).1 := by
  simp only [absorb]
  split
  · have hdescribes : ∀ update : NodeManagementDetailedDiscoveryData S.Other,
        discoveryDevice (S := S) source update = discoveryDevice (S := S) ⟨none, none, none⟩ update := by
      intro update
      simp [discoveryDevice, hsource]
    simp only [absorbDiscovery]
    split
    · exact SameFor.refl peer e
    · rename_i update _ named hnamed
      have hcmd : describes cmd = some named := by
        simp only [describes, hdata]
        exact (hdescribes update).symm.trans hnamed
      obtain rfl : named = device := by simpa [hcmd] using hown
      have hentry := e.sameFor_peerEntry h
      rw [htracked hcmd] at hentry
      refine (hentry.trans (sameFor_updatePeer _ h fun p hp => ?_)).trans (sameFor_emit _ _)
      have haddress : p.remote.address = some named := by simpa [Peer.isAt] using hp
      simp [Peer.isAt, RemoteDevice.applyDetailedDiscovery_address _ _ _ haddress]
  · simp only [absorbUseCases, hsource]
    exact SameFor.refl peer e
  · simp only [resolveRemote, hsource]
    exact SameFor.refl peer e

/-- A datagram whose source names no device, and that acts for `device` alone, leaves alone what is held
for every other peer, as long as nobody has to give way to `device`. -/
theorem handleDatagram_unnamed (e : Engine S) {datagram : Datagram S} (now : Nat)
    (horigin : datagram.header.bind Header.addressSource = some source) (hsource : source.device = none)
    (h : peer ≠ device) (hown : actsForAnother device e datagram = false)
    (htracked : datagram.commands.head?.bind describes = some device → e.evictedFor device = none) :
    SameFor peer e (e.handleDatagram datagram now).1 := by
  have hkept : ∀ counter, (e.observeSource source counter).1 = e := fun counter => by
    simp only [observeSource, hsource]
  rcases e.handleDatagram_served datagram now with hdiscarded | ⟨v, e', hv, hserved, hsends⟩
  · cases hdiscarded with
    | unread hsends => exact SameFor.of_sends hsends
    | filed source' counter horigin' _ hsends =>
      rw [horigin] at horigin'
      cases horigin'
      rw [hkept] at hsends
      exact SameFor.of_sends hsends
  · obtain ⟨header, hheader, -, hclassifier, hvsource, -⟩ := hv.header
    obtain rfl : source = v.source := by simpa [hheader, hvsource] using horigin.symm
    have hfiled : (v.filed e).1 = e := hkept v.counter
    have hother : v.source.device ≠ some peer := by simp [hsource]
    refine SameFor.trans ?_ (SameFor.of_sends hsends)
    cases hserved with
    | answered _ _ hanswered => exact hfiled ▸ SameFor.of_sends hanswered
    | written w _ =>
      rw [hfiled]
      exact sameFor_decideWrite _ w now hother
    | called _ cmd hcall hcommand =>
      rw [hfiled]
      refine sameFor_handleCall (leavesAlone_unnamed hsource ?_ h)
      simpa [actsForAnother, hheader, hcommand, hclassifier, hcall] using hown
    | informed _ cmd hinforms hcommand =>
      rw [hfiled]
      refine (sameFor_resolvePending _ v.reference hother).trans ?_
      simp only [handleIncomingData]
      split
      · exact SameFor.refl peer _
      case h_2 data hdata =>
        have hdescribes : (describes cmd).any (· != device) = false := by
          rcases hinforms with hreply | hnotify
          · simpa [actsForAnother, hheader, hcommand, hclassifier, hreply] using hown
          · simpa [actsForAnother, hheader, hcommand, hclassifier, hnotify] using hown
        refine (sameFor_absorb_unnamed hdata hsource h hdescribes fun hdescribed => ?_).trans
          (sameFor_emit _ _)
        have hsame : (e.resolvePending v.reference v.source).1.evictedFor device = e.evictedFor device := by
          cases v.reference <;> rfl
        rw [hsame]
        exact htracked (by simpa [hcommand] using hdescribed)
    | settled _ cmd _ _ =>
      rw [hfiled]
      exact sameFor_handleResult _ cmd v.reference hother

end Unnamed

theorem handleDatagram_untrusted {e : Engine S} {datagram : Datagram S}
    (horigin : datagram.header.bind Header.addressSource = some source)
    (h : e.sourceTrusted source = false) (now : Nat) : (e.handleDatagram datagram now).1 = e := by
  obtain ⟨header, hheader, hsource⟩ := Option.bind_eq_some_iff.mp horigin
  simp only [handleDatagram, hheader]
  split
  case h_1 counter classifier source' destination hcounter hclassifier hsource' hdestination =>
    rw [hsource] at hsource'
    cases hsource'
    simp [h]
  case h_2 => rfl

theorem pending_removePeer (e : Engine S) (device : AddressDevice) :
    (e.removePeer device).pending.Sublist e.pending := List.filter_sublist

theorem hearing_pending : Hearing fun e e' : Engine S => e'.pending.Sublist e.pending where
  refl _ := List.Sublist.refl _
  trans h h' := h'.trans h
  peers _ _ := List.Sublist.refl _
  removePeer := pending_removePeer
  news _ _ _ := List.Sublist.refl _
  resolvePending _ reference _ := match reference with
    | none => List.Sublist.refl _
    | some _ => List.eraseP_sublist
  recordRelation _ _ := List.Sublist.refl _

theorem pending_decideWrite (e : Engine S) (w : DatagramWrite S) (now : Nat) :
    (e.decideWrite w now).1.pending = e.pending := by
  simp only [decideWrite]
  split
  · split <;> rfl
  · obtain ⟨said, -, hsends⟩ := e.applyWrite_sends w.feature w.data w.ops w.source w.destination
    exact hsends.pending

theorem request_pending (e : Engine S) (source destination : FeatureAddress)
    (classifier : CmdClassifier) (ackRequest : Bool) (cmd : Cmd S) (now : Nat) :
    ∃ p, (e.request source destination classifier ackRequest cmd now).1.pending =
        e.pending.drop (e.pending.length + 1 - maxPendingRequests) ++ [p] ∧
      p.destination = destination ∧ p.datagram.commands = [cmd] :=
  ⟨_, rfl, rfl, rfl⟩

theorem handleDatagram_pending (e : Engine S) (datagram : Datagram S) (now : Nat) :
    (e.handleDatagram datagram now).1.pending.Sublist e.pending := by
  have hfiled : ∀ v : Envelope, (v.filed e).1.pending.Sublist e.pending :=
    fun v => hearing_pending.observeSource e _ _
  rcases e.handleDatagram_served datagram now with hdiscarded | ⟨v, e', -, hserved, hsends⟩
  · cases hdiscarded with
    | unread hsends => rw [hsends.pending]
    | filed source counter _ _ hsends =>
      rw [hsends.pending]
      exact hearing_pending.observeSource e source counter
  · rw [hsends.pending]
    cases hserved with
    | answered _ _ hanswered =>
      rw [hanswered.pending]
      exact hfiled v
    | written w _ =>
      rw [pending_decideWrite]
      exact hfiled w.toEnvelope
    | called _ cmd _ _ =>
      rw [(handleCall_frame _ cmd v.source).2.1]
      exact hfiled v
    | informed _ cmd _ _ => exact (hearing_pending.informed _ cmd v.source _ v.reference).trans (hfiled v)
    | settled _ cmd _ _ => exact (hearing_pending.handleResult _ cmd v.reference v.source).trans (hfiled v)

end Engine

/-- The calls that leave requests other than those there were. -/
def EngineOp.asks : EngineOp S → Bool
  | .readFiltered .. | .writeFiltered .. | .requestBinding .. | .requestSubscription ..
  | .handleTimeout _ => true
  | _ => false

theorem Engine.perform_pending (e : Engine S) {op : EngineOp S} (h : op.asks = false) :
    (e.perform op).pending.Sublist e.pending := by
  cases op with
  | handleDatagram datagram now => exact e.handleDatagram_pending datagram now
  | finishWrite token replacement =>
    obtain ⟨said, -, hbooks⟩ := e.finishWrite_books token replacement
    exact hbooks.pending_sublist
  | rejectWrite token error => exact (e.rejectWrite_books token error).pending_sublist
  | removePeer device => exact e.pending_removePeer device
  | pollTransmit | pollEvent => exact List.Sublist.refl _
  | readFiltered | writeFiltered | requestBinding | requestSubscription | handleTimeout => cases h
  | _ => exact SameBooks.pending_sublist (e.books_local rfl)

end Eebus.Spine
