import Eebus.Model.Spans
import Eebus.Spine.WriteAtomicity
import Eebus.Spine.Retransmission

/-! The durations an engine holds, and the instants it computes from them: a duration gets in with a
payload or with the device's own data, and is added to the clock when a request goes out, is sent
again, or a write is put to the application. -/

namespace Eebus.Spine

open Eebus.Library Eebus.Model

variable {S : Schema} {P : Nat → Prop}

/-- The durations a feature holds have the property: its response delay, and what the limits and
setpoints it stores are to last. -/
structure LocalFeature.Timed (P : Nat → Prop) (f : LocalFeature S) : Prop where
  delay : ∀ d, f.maxResponseDelay = some d → P d
  stored : ∀ entry ∈ f.functions, ∀ data, entry.data = some data → data.Lasting P

def LocalEntity.Timed (P : Nat → Prop) (entity : LocalEntity S) : Prop :=
  ∀ f ∈ entity.features, f.Timed P

def LocalDevice.Timed (P : Nat → Prop) (device : LocalDevice S) : Prop :=
  ∀ entity ∈ device.entities, entity.Timed P

theorem runDeletes_lasting {stored : CmdData S} (h : stored.Lasting P) (update : CmdData S)
    (steps : List (Option (FilterSelectors S) × Option (FilterElements S))) :
    (runSteps (deleteStep update) steps stored).1.Lasting P :=
  runSteps_preserves (R := fun s s' => s.Lasting P → s'.Lasting P) (fun _ hs => hs)
    (fun _ _ _ h h' hs => h' (h hs)) (fun _ _ _ hstep hs => hs.deleteRestricted hstep) steps stored h

theorem resolveWrite_lasting {held : Option (CmdData S)} {data : CmdData S}
    (h : ∀ stored, held = some stored → stored.Lasting P) (hdata : data.Lasting P)
    (ops : WriteOps S) : (resolveWrite held data ops).Lasting P := by
  unfold resolveWrite
  split
  · exact hdata
  case h_2 start hstart =>
    have hlasting : start.Lasting P := by
      cases held with
      | none => exact CmdData.lasting_empty (by simpa using hstart)
      | some stored => exact h start (by simpa using hstart)
    have hdeleted := runDeletes_lasting hlasting data ops.deleteSteps
    split
    case h_2 => exact hdata
    case h_1 resolved hresolved =>
      unfold WriteOps.resolve at hresolved
      split at hresolved
      · simp at hresolved
      case h_2 deleted hrun =>
        rw [hrun] at hdeleted
        split at hresolved
        · split at hresolved
          case h_1 merged hmerged =>
            cases hresolved
            exact hdeleted.apply hdata hmerged
          case h_2 => simp at hresolved
        · cases hresolved
          exact hdeleted

namespace LocalFeature.Timed

variable {f f' : LocalFeature S} {data : CmdData S}

theorem held (h : f.Timed P) {function : Function S.Other} (hdata : f.data function = some data) :
    data.Lasting P := by
  obtain ⟨entry, hentry, hstored⟩ := Option.bind_eq_some_iff.mp hdata
  exact h.stored entry (List.mem_of_find?_eq_some hentry) data hstored

theorem store (h : f.Timed P) (hdata : data.Lasting P) : (f.store data).Timed P where
  delay := h.delay
  stored := by
    refine forall_mem_modifyFirst h.stored fun entry hentry hmem other hother => ?_
    cases hother
    exact hdata

theorem setData {changed : Bool} (h : f.Timed P) (hdata : data.Lasting P)
    (hset : f.setData data = .ok (f', changed)) : f'.Timed P := by
  unfold LocalFeature.setData at hset
  repeat' split at hset
  · cases hset
  · cases hset
    exact h
  · cases hset
    exact h.store hdata

theorem deleteFiltered (h : f.Timed P) (data : CmdData S) (filter : Filter S) :
    (f.deleteFiltered data filter).1.Timed P := by
  unfold LocalFeature.deleteFiltered
  split
  · exact h
  case h_2 entry hentry =>
    obtain ⟨hfound, -⟩ := LocalFeature.writeableFunction_eq_ok.mp hentry
    split
    · exact h
    case h_2 stored hstored =>
      have hdeleted := runDeletes_lasting
        (h.stored entry (List.mem_of_find?_eq_some hfound) stored hstored) data (addressedBy filter)
      split
      all_goals
        rename_i hrun
        rw [hrun] at hdeleted
        exact h.store hdeleted

theorem apply {isPartial : Bool} (h : f.Timed P) (hdata : data.Lasting P)
    (happly : f.apply data isPartial = .ok f') : f'.Timed P := by
  unfold LocalFeature.apply at happly
  split at happly
  · cases happly
  case h_2 entry hentry =>
    repeat' split at happly
    all_goals cases happly
    case h_1.refl hstored _ merged hmerged =>
      have hheld := h.stored entry (List.mem_of_find?_eq_some hentry) _ hstored
      exact h.store (hheld.apply hdata hmerged)
    case h_2.refl => exact h.store hdata

theorem applyTo (h : f.Timed P) (hdata : data.Lasting P) (ops : WriteOps S) :
    (ops.applyTo f data).1.Timed P :=
  WriteOps.applyTo_keeps (fun _ filter h => h.deleteFiltered data filter)
    (fun h hok => h.apply hdata hok) h

theorem commit (h : f.Timed P) {write : DeferredWrite S} (hwrite : write.data.Lasting P)
    {replacement : Option (CmdData S)} (hreplacement : ∀ d, replacement = some d → d.Lasting P) :
    (Engine.commit write replacement f).1.Timed P := by
  unfold Engine.commit
  split
  case h_1 d =>
    split
    · split
      case h_1 f' changed hset => exact h.setData (hreplacement d rfl) hset
      case h_2 => exact h
    · exact h
  case h_2 => exact h.applyTo hwrite write.ops

end LocalFeature.Timed

namespace LocalDevice.Timed

variable {device : LocalDevice S}

theorem feature (h : device.Timed P) {address : FeatureAddress} {f : LocalFeature S}
    (hf : device.resolve address = some f) : f.Timed P := by
  obtain ⟨-, number, entity, -, hentity, hfeature⟩ := LocalDevice.resolve_eq_some.mp hf
  exact h entity (List.mem_of_find?_eq_some hentity) f (List.mem_of_find?_eq_some hfeature)

theorem update (h : device.Timed P) (address : FeatureAddress) {f : LocalFeature S}
    (hf : f.Timed P) : (device.update address fun _ => f).Timed P := by
  unfold LocalDevice.update
  split
  · exact h
  split
  · exact h
  · refine forall_mem_modifyFirst h fun entity hentity hmem => ?_
    exact forall_mem_modifyFirst (h entity hmem) fun _ _ _ => hf

end LocalDevice.Timed

def RemoteEntity.Timed {Other : Type} (P : Nat → Prop) (entity : RemoteEntity Other) : Prop :=
  ∀ f ∈ entity.features, ∀ d, f.maxResponseDelay = some d → P d

structure Peer.Timed (P : Nat → Prop) (p : Peer S) : Prop where
  discovery : p.discovery.Delaying P
  remote : ∀ entity ∈ p.remote.entities, entity.Timed P

section Discovery

variable {Other : Type}

theorem mem_replaceOrPush {α : Type} {Q : α → Prop} (same : α → Bool) {entry : α} {held : List α}
    (h : ∀ x ∈ held, Q x) (hentry : Q entry) : ∀ x ∈ replaceOrPush same entry held, Q x := by
  unfold replaceOrPush
  split
  · exact forall_mem_modifyFirst h fun _ _ _ => hentry
  split
  · intro x hx
    rcases List.mem_append.mp hx with hx | hx
    · exact h x hx
    · rwa [List.mem_singleton.mp hx]
  · exact h

theorem delaying_mergeEntity {held : List EntityInformation × List (FeatureInformation Other)}
    (h : ∀ f ∈ held.2, f.Delaying P) (entry : EntityInformation) :
    ∀ f ∈ (mergeEntity held entry).2, f.Delaying P := by
  unfold mergeEntity
  split
  · split
    · exact fun f hf => h f (List.mem_filter.mp hf).1
    · exact h
  · exact h

theorem delaying_mergeFeature {held : List (FeatureInformation Other)}
    (h : ∀ f ∈ held, f.Delaying P) {entry : FeatureInformation Other} (hentry : entry.Delaying P) :
    ∀ f ∈ mergeFeature held entry, f.Delaying P := by
  unfold mergeFeature
  split
  · split
    · exact fun f hf => h f (List.mem_filter.mp hf).1
    · exact mem_replaceOrPush _ h hentry
  · exact h

theorem delaying_merge {stored update : NodeManagementDetailedDiscoveryData Other}
    (h : stored.Delaying P) (hupdate : update.Delaying P) :
    (mergeDetailedDiscovery stored update).Delaying P := by
  have hentities := List.foldlRecOn
    (motive := fun held : List EntityInformation × List (FeatureInformation Other) =>
      ∀ f ∈ held.2, f.Delaying P)
    (update.entityInformation.getD []) mergeEntity
    (b := (stored.entityInformation.getD [], stored.featureInformation.getD [])) h
    fun _ hheld entry _ => delaying_mergeEntity hheld entry
  exact List.foldlRecOn (motive := fun held => ∀ f ∈ held, f.Delaying P)
    (update.featureInformation.getD []) mergeFeature hentities
    fun _ hheld entry hentry => delaying_mergeFeature hheld (hupdate entry hentry)

theorem delaying_markRemoved {data : NodeManagementDetailedDiscoveryData Other}
    (h : data.Delaying P) : (markRemoved data).Delaying P := by
  intro entry hentry description hdescription
  unfold markRemoved at hentry
  cases hfeatures : data.featureInformation with
  | none => simp [hfeatures] at hentry
  | some features =>
    simp only [hfeatures, Option.map_some, Option.getD_some, List.mem_map] at hentry
    obtain ⟨original, horiginal, rfl⟩ := hentry
    obtain ⟨held, hheld, rfl⟩ := Option.map_eq_some_iff.mp hdescription
    exact h original (by rwa [hfeatures]) held hheld

theorem timed_fileFeature (device : Option AddressDevice) {entities : List (RemoteEntity Other)}
    (h : ∀ entity ∈ entities, entity.Timed P) {description : FeatureInformationDescription Other}
    (hdescription : ∀ text d, description.maxResponseDelay = some text →
      parseIso8601Duration text = some d → P d) :
    ∀ entity ∈ RemoteDevice.fileFeature device entities description, entity.Timed P := by
  have hfiled : ∀ d, description.maxResponseDelay.bind parseIso8601Duration = some d → P d := by
    intro d hd
    obtain ⟨text, htext, hparse⟩ := Option.bind_eq_some_iff.mp hd
    exact hdescription text d htext hparse
  unfold RemoteDevice.fileFeature
  split
  case h_2 => exact h
  dsimp only
  split
  · refine forall_mem_modifyFirst h fun entity _ hmem f hf => ?_
    rcases List.mem_append.mp hf with hf | hf
    · exact h entity hmem f hf
    · rw [List.mem_singleton.mp hf]
      exact hfiled
  · intro entity hentity
    rcases List.mem_append.mp hentity with hentity | hentity
    · exact h entity hentity
    · rw [List.mem_singleton.mp hentity]
      intro f hf
      rw [List.mem_singleton.mp hf]
      exact hfiled

theorem timed_applyDetailedDiscovery (remote : RemoteDevice Other)
    {data : NodeManagementDetailedDiscoveryData Other} (h : data.Delaying P) :
    ∀ entity ∈ (remote.applyDetailedDiscovery data).entities, entity.Timed P := by
  unfold RemoteDevice.applyDetailedDiscovery
  refine List.foldlRecOn (motive := fun entities => ∀ entity ∈ entities, RemoteEntity.Timed P entity)
    _ (RemoteDevice.fileFeature _) ?_ fun entities hentities description hdescription => ?_
  · intro entity hentity
    obtain ⟨d, -, rfl⟩ := List.mem_map.mp hentity
    intro f hf
    simp at hf
  · obtain ⟨entry, hentry, hdescribed⟩ := List.mem_filterMap.mp hdescription
    exact timed_fileFeature _ hentities (h entry hentry description hdescribed)

end Discovery

/-- A write that is put to the application asks for durations with the property. -/
def SpineEvent.Timed (P : Nat → Prop) : SpineEvent S → Prop
  | .writeRequested write => write.resolved.Lasting P
  | _ => True

theorem SpineEvent.timed_of_relation {event : SpineEvent S} (h : event.ofRelation = true) :
    event.Timed P := by
  cases event <;> trivial

/-- Every duration the engine may add to the clock can be added at any instant up to the horizon,
and every instant it counts down to is one a `Duration` holds. -/
structure Engine.Timed (horizon : Nat) (e : Engine S) : Prop where
  delay : Addable horizon e.maxResponseDelay
  device : e.device.Timed (Addable horizon)
  peer : ∀ p ∈ e.peers, p.Timed (Addable horizon)
  deferred : ∀ w ∈ e.deferred, w.data.Lasting (Addable horizon) ∧ w.deadline ≤ durationMax
  pending : ∀ p ∈ e.pending, p.deadline ≤ durationMax
  events : ∀ event ∈ e.events, event.Timed (Addable horizon)

def Datagram.Timed (P : Nat → Prop) (datagram : Datagram S) : Prop :=
  ∀ cmd ∈ datagram.commands, ∀ data, cmd.data = some data → data.Timed P

/-- The durations an operation brings in. -/
def EngineOp.Timed (P : Nat → Prop) (e : Engine S) : EngineOp S → Prop
  | .handleDatagram datagram _ => Datagram.Timed P datagram
  | .finishWrite _ replacement => ∀ d, replacement = some d → d.Lasting P
  | .addEntity entity => entity.Timed P
  | .configure g => (g e.device).Timed P
  | _ => True

def EngineOp.time : EngineOp S → Option Nat
  | .handleDatagram _ now | .handleTimeout now | .readFiltered _ _ _ _ now
  | .writeFiltered _ _ _ _ now | .requestBinding _ _ now | .requestSubscription _ _ now => some now
  | _ => none

/-- The instants an engine counts down to: each is the sum of the time it was set at and a delay. -/
def Engine.instants (e : Engine S) : List Nat :=
  e.pending.map Pending.deadline ++ e.deferred.map DeferredWrite.deadline

namespace Engine.Timed

variable {horizon : Nat} {e e' : Engine S}

theorem instants (h : e.Timed horizon) : ∀ t ∈ e.instants, t ≤ durationMax := by
  intro t ht
  rcases List.mem_append.mp ht with ht | ht
  · obtain ⟨p, hp, rfl⟩ := List.mem_map.mp ht
    exact h.pending p hp
  · obtain ⟨w, hw, rfl⟩ := List.mem_map.mp ht
    exact (h.deferred w hw).2

theorem congr (h : e.Timed horizon) (hdelay : e'.maxResponseDelay = e.maxResponseDelay)
    (hdevice : e'.device = e.device) (hpeers : e'.peers = e.peers)
    (hdeferred : e'.deferred = e.deferred) (hpending : e'.pending = e.pending)
    (hevents : e'.events = e.events) : e'.Timed horizon where
  delay := by rw [hdelay]; exact h.delay
  device := by rw [hdevice]; exact h.device
  peer := by rw [hpeers]; exact h.peer
  deferred := by rw [hdeferred]; exact h.deferred
  pending := by rw [hpending]; exact h.pending
  events := by rw [hevents]; exact h.events

theorem of_sends {Q : Datagram S → Prop} (h : e.Timed horizon) (hsends : Sends Q e e') :
    e'.Timed horizon :=
  h.congr hsends.maxResponseDelay hsends.device hsends.peers hsends.deferred hsends.pending
    hsends.events

section

variable (h : e.Timed horizon)

include h

theorem say {said : List (SpineEvent S)}
    (hsaid : ∀ event ∈ said, event.Timed (Addable horizon)) :
    { e with events := e.events ++ said }.Timed horizon where
  delay := h.delay
  device := h.device
  peer := h.peer
  deferred := h.deferred
  pending := h.pending
  events event hevent := (List.mem_append.mp hevent).elim (h.events event) (hsaid event)

theorem emit {event : SpineEvent S} (hevent : event.Timed (Addable horizon)) :
    (e.emit event).Timed horizon :=
  h.say fun _ hmem => List.mem_singleton.mp hmem ▸ hevent

theorem relate (relations : Relations) :
    { e with relations := relations }.Timed horizon :=
  h.congr rfl rfl rfl rfl rfl rfl

theorem storeFeature (address : FeatureAddress) {f : LocalFeature S}
    (hf : f.Timed (Addable horizon)) : (e.storeFeature address f).Timed horizon where
  delay := h.delay
  device := h.device.update address hf
  peer := h.peer
  deferred := h.deferred
  pending := h.pending
  events := h.events

theorem removePeer (device : AddressDevice) :
    (e.removePeer device).Timed horizon where
  delay := h.delay
  device := h.device
  peer p hp := h.peer p (List.mem_filter.mp hp).1
  deferred w hw := h.deferred w (List.mem_filter.mp hw).1
  pending p hp := h.pending p (List.mem_filter.mp hp).1
  events event hevent := by
    rcases List.mem_append.mp hevent with hevent | hevent
    · exact h.events event hevent
    · obtain ⟨w, -, rfl⟩ := List.mem_map.mp hevent
      trivial

theorem evict : e.evict.Timed horizon := by
  unfold Engine.evict
  split
  · exact h.removePeer _
  · exact ⟨h.delay, h.device, fun p hp => h.peer p (List.mem_of_mem_eraseIdx hp), h.deferred,
      h.pending, h.events⟩

theorem peerEntry (device : AddressDevice) : (e.peerEntry device).Timed horizon := by
  have hadd : ∀ e : Engine S, e.Timed horizon →
      { e with peers := e.peers ++ [Peer.new device] }.Timed horizon := by
    intro e h
    refine ⟨h.delay, h.device, fun p hp => ?_, h.deferred, h.pending, h.events⟩
    rcases List.mem_append.mp hp with hp | hp
    · exact h.peer p hp
    · rw [List.mem_singleton.mp hp]
      exact ⟨fun f hf => by simp [Peer.new] at hf, fun entity hentity => by
        simp [Peer.new, RemoteDevice.unknown] at hentity⟩
  unfold Engine.peerEntry
  split
  · exact h
  dsimp only
  split
  · exact hadd e.evict h.evict
  · exact hadd e h

theorem updatePeer {device : AddressDevice} {g : Peer S → Peer S}
    (hg : ∀ p ∈ e.peers, p.Timed (Addable horizon) → (g p).Timed (Addable horizon)) :
    (e.updatePeer device g).Timed horizon where
  delay := h.delay
  device := h.device
  peer := forall_mem_modifyFirst h.peer fun p _ hmem => hg p hmem (h.peer p hmem)
  deferred := h.deferred
  pending := h.pending
  events := h.events

theorem peerAt (device : AddressDevice) :
    (e.peerAt device).discovery.Delaying (Addable horizon) := by
  unfold Engine.peerAt
  cases hfind : e.findPeer device with
  | none => exact fun f hf => by simp [Peer.new] at hf
  | some p => exact (h.peer p (List.mem_of_find?_eq_some hfind)).discovery

theorem observeSource (source : FeatureAddress) (counter : MsgCounter) :
    (e.observeSource source counter).1.Timed horizon := by
  unfold Engine.observeSource
  split
  · exact h
  · exact (h.peerEntry _).updatePeer fun p _ hp => ⟨hp.discovery, hp.remote⟩

theorem responseDelayOf (destination : FeatureAddress) :
    Addable horizon (e.responseDelayOf destination) := by
  unfold Engine.responseDelayOf
  cases hdelay : (do
      let peer ← e.findPeer (← destination.device)
      (← peer.remote.featureAt destination).maxResponseDelay : Option Nat) with
  | none => exact h.delay
  | some delay =>
    obtain ⟨device, -, hdelay⟩ := Option.bind_eq_some_iff.mp hdelay
    obtain ⟨peer, hpeer, hdelay⟩ := Option.bind_eq_some_iff.mp hdelay
    obtain ⟨feature, hfeature, hdelay⟩ := Option.bind_eq_some_iff.mp hdelay
    obtain ⟨entity, hentity, hfound⟩ := Option.bind_eq_some_iff.mp hfeature
    exact (h.peer peer (List.mem_of_find?_eq_some hpeer)).remote entity
      (List.mem_of_find?_eq_some hentity) feature (List.mem_of_find?_eq_some hfound) delay hdelay

theorem resolvePending (reference : Option MsgCounter)
    (origin : FeatureAddress) : (e.resolvePending reference origin).1.Timed horizon := by
  cases reference with
  | none => exact h
  | some reference =>
    exact ⟨h.delay, h.device, h.peer, h.deferred,
      fun p hp => h.pending p (List.eraseP_sublist.subset hp), h.events⟩

theorem handleCall (cmd : Cmd S) (source : FeatureAddress) :
    (e.handleCall cmd source).1.Timed horizon := by
  obtain ⟨relations, said, hsame, hsaid⟩ := e.handleCall_says cmd source
  rw [hsame]
  exact (h.relate relations).say fun event hevent => SpineEvent.timed_of_relation (hsaid event hevent)

theorem handleResult (cmd : Cmd S) (reference : Option MsgCounter)
    (origin : FeatureAddress) : (e.handleResult cmd reference origin).Timed horizon := by
  have hresolved := h.resolvePending reference origin
  unfold Engine.handleResult
  split
  case h_1 e' heq =>
    rw [heq] at hresolved
    exact hresolved
  case h_2 e' request heq =>
    rw [heq] at hresolved
    dsimp only
    split
    · exact (hresolved.relate _).emit trivial
    · exact hresolved.emit trivial

theorem absorbDiscovery (source : FeatureAddress)
    {update : NodeManagementDetailedDiscoveryData S.Other}
    (hupdate : update.Delaying (Addable horizon)) (ops : WriteOps S) :
    (e.absorbDiscovery source update ops).1.Timed horizon := by
  unfold Engine.absorbDiscovery
  split
  · exact h
  case h_2 device hdevice =>
    have hentry := h.peerEntry device
    have hstored := hentry.peerAt device
    refine (hentry.updatePeer fun p _ hp => ?_).emit trivial
    have hmerged : ∀ merged : NodeManagementDetailedDiscoveryData S.Other,
        merged.Delaying (Addable horizon) → Peer.Timed (Addable horizon)
          { p with discovery := merged, remote := p.remote.applyDetailedDiscovery merged } :=
      fun merged hmerged => ⟨hmerged, timed_applyDetailedDiscovery p.remote hmerged⟩
    refine hmerged _ ?_
    split
    · exact delaying_merge hstored (delaying_markRemoved hupdate)
    · split
      · exact delaying_merge hstored hupdate
      · exact hupdate

theorem absorbUseCases (source : FeatureAddress)
    (update : NodeManagementUseCaseData) (ops : WriteOps S) :
    (e.absorbUseCases source update ops).1.Timed horizon := by
  unfold Engine.absorbUseCases
  split
  · exact h
  · refine ((h.peerEntry _).updatePeer fun p _ hp => ?_).emit ?_
    · exact ⟨hp.discovery, hp.remote⟩
    · trivial

theorem resolveRemote (source : FeatureAddress) (data : CmdData S)
    (ops : WriteOps S) : (e.resolveRemote source data ops).1.Timed horizon := by
  unfold Engine.resolveRemote
  split
  · exact h
  · exact (h.peerEntry _).updatePeer fun p _ hp => ⟨hp.discovery, hp.remote⟩

theorem handleIncomingData {cmd : Cmd S}
    (hcmd : ∀ data, cmd.data = some data → data.Timed (Addable horizon)) (source : FeatureAddress)
    (classifier : CmdClassifier) : (e.handleIncomingData cmd source classifier).1.Timed horizon := by
  unfold Engine.handleIncomingData
  split
  · exact h
  case h_2 data hdata =>
    have htimed := (hcmd data hdata).2
    have habsorbed : (e.absorb source data (WriteOps.of cmd)).1.Timed horizon := by
      unfold Engine.absorb
      split
      · exact h.absorbDiscovery source htimed _
      · exact h.absorbUseCases source _ _
      · exact h.resolveRemote source _ _
    refine habsorbed.emit ?_
    split <;> trivial

theorem deferWrite {f : LocalFeature S} (hf : f.Timed (Addable horizon))
    {data : CmdData S} (hdata : data.Lasting (Addable horizon)) (ops : WriteOps S)
    (source destination : FeatureAddress) (counter : MsgCounter) (ackRequest : Bool) {now : Nat}
    (hnow : now ≤ horizon) :
    (e.deferWrite f data ops source destination counter ackRequest now).Timed horizon where
  delay := h.delay
  device := h.device
  peer := h.peer
  deferred w hw := by
    rcases List.mem_append.mp hw with hw | hw
    · exact h.deferred w hw
    · rw [List.mem_singleton.mp hw]
      refine ⟨hdata, ?_⟩
      have hwindow : Addable horizon (f.maxResponseDelay.getD e.maxResponseDelay) := by
        cases hdelay : f.maxResponseDelay with
        | none => exact h.delay
        | some delay => exact hf.delay delay hdelay
      exact hwindow.sum_le hnow
  pending := h.pending
  events event hevent := by
    rcases List.mem_append.mp hevent with hevent | hevent
    · exact h.events event hevent
    · rw [List.mem_singleton.mp hevent]
      exact resolveWrite_lasting (fun _ hstored => hf.held hstored) hdata ops

theorem reportWritten (feature origin : FeatureAddress)
    (function : Function S.Other) : (e.reportWritten feature origin function).Timed horizon := by
  have hemitted : (e.emit (.dataWritten feature origin function)).Timed horizon := h.emit trivial
  exact hemitted.of_sends (Engine.sends_notify _ _ _)

theorem decideWrite {w : DatagramWrite S}
    (hf : w.feature.Timed (Addable horizon)) (hdata : w.data.Lasting (Addable horizon)) {now : Nat}
    (hnow : now ≤ horizon) : (e.decideWrite w now).1.Timed horizon := by
  unfold Engine.decideWrite
  split
  · split
    · exact h
    · exact h.deferWrite hf hdata _ _ _ _ _ hnow
  · have happlied := hf.applyTo hdata w.ops
    unfold Engine.applyWrite
    split
    case h_1 f' hrun =>
      rw [hrun] at happlied
      exact (h.storeFeature w.destination happlied).reportWritten _ _ _
    case h_2 f' error hrun =>
      rw [hrun] at happlied
      exact h.storeFeature w.destination happlied

theorem handleDatagram {datagram : Datagram S}
    (hdatagram : Datagram.Timed (Addable horizon) datagram) {now : Nat} (hnow : now ≤ horizon) :
    (e.handleDatagram datagram now).1.Timed horizon := by
  rcases e.handleDatagram_served datagram now with hdiscarded | ⟨v, e', -, hserved, hsends⟩
  · cases hdiscarded with
    | unread hsends => exact h.of_sends hsends
    | filed source counter _ _ hsends => exact (h.observeSource source counter).of_sends hsends
  · have hfiled : (v.filed e).1.Timed horizon := h.observeSource _ _
    have hcommand : ∀ cmd, datagram.commands = [cmd] → ∀ data, cmd.data = some data →
        data.Timed (Addable horizon) := by
      intro cmd hcommands
      exact hdatagram cmd (by simp [hcommands])
    refine Engine.Timed.of_sends ?_ hsends
    cases hserved with
    | answered _ _ hanswered => exact hfiled.of_sends hanswered
    | written w hw =>
      exact hfiled.decideWrite (h.device.feature hw.resolved)
        (hcommand w.cmd hw.command w.data hw.payload).1 hnow
    | called _ cmd _ _ => exact hfiled.handleCall cmd v.source
    | informed _ cmd _ hcommands =>
      exact (hfiled.resolvePending _ _).handleIncomingData (hcommand cmd hcommands) _ _
    | settled _ cmd _ _ => exact hfiled.handleResult cmd _ _

theorem dropDeferred (token : Nat) : (e.dropDeferred token).Timed horizon :=
  ⟨h.delay, h.device, h.peer, fun w hw => h.deferred w (List.eraseP_sublist.subset hw), h.pending,
    h.events⟩

theorem finishWrite (token : Nat) {replacement : Option (CmdData S)}
    (hreplacement : ∀ d, replacement = some d → d.Lasting (Addable horizon)) :
    (e.finishWrite token replacement).1.Timed horizon := by
  have hdropped := h.dropDeferred token
  unfold Engine.finishWrite
  split
  · exact h
  case h_2 write hwrite =>
    have hlasting := (h.deferred write (List.mem_of_find?_eq_some hwrite)).1
    dsimp only
    split
    · exact hdropped.of_sends (Engine.sends_answerDeferred _ _ _)
    case h_2 feature hfeature =>
      have hcommitted := (hdropped.device.feature hfeature).commit hlasting hreplacement
      split
      case h_1 f' hrun =>
        rw [hrun] at hcommitted
        exact ((hdropped.storeFeature write.feature hcommitted).reportWritten _ _ _).of_sends
          (Engine.sends_answerDeferred _ _ _)
      case h_2 f' error hrun =>
        rw [hrun] at hcommitted
        exact (hdropped.storeFeature write.feature hcommitted).of_sends
          (Engine.sends_answerDeferred _ _ _)

theorem acceptWrite (token : Nat) : (e.acceptWrite token).1.Timed horizon :=
  h.finishWrite token fun _ hnone => by cases hnone

theorem rejectWrite (token : Nat) (error : ErrorNumber) :
    (e.rejectWrite token error).1.Timed horizon := by
  unfold Engine.rejectWrite
  split
  · exact h
  · exact (h.dropDeferred token).of_sends (Engine.sends_answerDeferred _ _ _)

theorem await (destination : FeatureAddress) (counter : MsgCounter)
    (datagram : Datagram S) {now : Nat} (hnow : now ≤ horizon) :
    (e.await destination counter datagram now).Timed horizon where
  delay := h.delay
  device := h.device
  peer := h.peer
  deferred := h.deferred
  pending p hp := by
    rcases List.mem_append.mp hp with hp | hp
    · exact h.pending p (List.mem_of_mem_drop hp)
    · rw [List.mem_singleton.mp hp]
      exact (h.responseDelayOf destination).sum_le hnow
  events event hevent := by
    rcases List.mem_append.mp hevent with hevent | hevent
    · exact h.events event hevent
    · obtain ⟨p, -, rfl⟩ := List.mem_map.mp hevent
      trivial

theorem request (source destination : FeatureAddress)
    (classifier : CmdClassifier) (ackRequest : Bool) (cmd : Cmd S) {now : Nat}
    (hnow : now ≤ horizon) :
    (e.request source destination classifier ackRequest cmd now).1.Timed horizon := by
  have hadvanced : e.advanceCounter.Timed horizon := h.congr rfl rfl rfl rfl rfl rfl
  exact (hadvanced.await destination e.counters _ hnow).congr rfl rfl rfl rfl rfl rfl

end

theorem expire (hday : Addable horizon (fromSecs 86400)) {now : Nat} (hnow : now ≤ horizon)
    {acc : Engine S × List (Pending S) × List (Pending S)} (h : acc.1.Timed horizon)
    (hkept : ∀ p ∈ acc.2.1, p.deadline ≤ durationMax) {request : Pending S}
    (hrequest : request.deadline ≤ durationMax) :
    (Engine.expire now acc request).1.Timed horizon ∧
      ∀ p ∈ (Engine.expire now acc request).2.1, p.deadline ≤ durationMax := by
  obtain ⟨e, kept, abandoned⟩ := acc
  have hadded : ∀ p : Pending S, p.deadline ≤ durationMax →
      ∀ q ∈ kept ++ [p], q.deadline ≤ durationMax := by
    intro p hp q hq
    rcases List.mem_append.mp hq with hq | hq
    · exact hkept q hq
    · rwa [List.mem_singleton.mp hq]
  unfold Engine.expire
  dsimp only
  split
  · exact ⟨h, hadded request hrequest⟩
  · split
    · split
      case h_1 delay hdelay =>
        refine ⟨h, hadded _ ?_⟩
        have hmem := List.mem_of_getElem? hdelay
        have hle : delay ≤ fromSecs 86400 := by
          have hall : ∀ d ∈ retrySchedule, d ≤ fromSecs 86400 := by decide
          exact hall delay hmem
        exact (hday.of_le hle).sum_le hnow
      case h_2 => exact ⟨h, hkept⟩
    · have hsent : (e.advanceCounter.send { request.datagram with
          header := request.datagram.header.map fun h => { h with msgCounter := some e.counters } }).Timed
            horizon := h.congr rfl rfl rfl rfl rfl rfl
      exact ⟨hsent.emit trivial, hadded _ ((h.responseDelayOf request.destination).sum_le hnow)⟩

theorem handleTimeout (h : e.Timed horizon) (hday : Addable horizon (fromSecs 86400)) {now : Nat}
    (hnow : now ≤ horizon) : (e.handleTimeout now).Timed horizon := by
  have hcleared : { e with pending := [] }.Timed horizon :=
    ⟨h.delay, h.device, h.peer, h.deferred, by simp, h.events⟩
  obtain ⟨hexpired, hkept⟩ := List.foldlRecOn
    (motive := fun acc : Engine S × List (Pending S) × List (Pending S) =>
      acc.1.Timed horizon ∧ ∀ p ∈ acc.2.1, p.deadline ≤ durationMax)
    e.pending (Engine.expire now) (b := ({ e with pending := [] }, [], [])) ⟨hcleared, by simp⟩
    fun acc hacc p hp => Engine.Timed.expire hday hnow hacc.1 hacc.2 (h.pending p hp)
  unfold Engine.handleTimeout
  generalize e.pending.foldl (Engine.expire now) ({ e with pending := [] }, [], []) = acc
    at hexpired hkept
  refine ⟨hexpired.delay, hexpired.device, hexpired.peer,
    fun w hw => hexpired.deferred w (List.mem_filter.mp hw).1, hkept, fun event hevent => ?_⟩
  simp only [List.mem_append, List.mem_map] at hevent
  rcases hevent with (hevent | ⟨p, -, rfl⟩) | ⟨w, -, rfl⟩
  · exact hexpired.events event hevent
  · trivial
  · trivial

theorem notifyDiscoveryChange (h : e.Timed horizon)
    (data : NodeManagementDetailedDiscoveryData S.Other) :
    (e.notifyDiscoveryChange data).Timed horizon :=
  h.of_sends (Engine.sends_notifyDiscoveryChange e data)

theorem addEntity (h : e.Timed horizon) {entity : LocalEntity S}
    (hentity : entity.Timed (Addable horizon)) : (e.addEntity entity).1.Timed horizon := by
  unfold Engine.addEntity
  split
  · exact h
  case h_2 device hadd =>
    have hdevice : device.Timed (Addable horizon) := by
      unfold LocalDevice.addEntity at hadd
      split at hadd
      · cases hadd
      · cases hadd
        intro other hother
        rcases List.mem_append.mp hother with hother | hother
        · exact h.device other hother
        · rwa [List.mem_singleton.mp hother]
    have hadded : { e with device := device }.Timed horizon :=
      ⟨h.delay, hdevice, h.peer, h.deferred, h.pending, h.events⟩
    exact hadded.notifyDiscoveryChange _

theorem removeEntity (h : e.Timed horizon) (path : List Nat) :
    (e.removeEntity path).1.Timed horizon := by
  unfold Engine.removeEntity
  split
  · exact h
  case h_2 device removed hremove =>
    have hdevice : device.Timed (Addable horizon) := by
      unfold LocalDevice.removeEntity at hremove
      repeat' split at hremove
      · cases hremove
      · cases hremove
      · cases hremove
        exact fun entity hentity => h.device entity (List.mem_filter.mp hentity).1
    have hremoved : { e with
        device := device
        relations := e.relations.removeLocalEntity device.address path
        useCases := e.useCases.filter fun announced => !path.isPrefixOf announced.entity }.Timed
          horizon := ⟨h.delay, hdevice, h.peer, h.deferred, h.pending, h.events⟩
    have htold := hremoved.notifyDiscoveryChange (entitiesRemoved removed)
    dsimp only
    split
    · exact htold.of_sends (Engine.sends_notify _ _ _)
    · exact htold

/-- Whatever happens to an engine, as long as the durations it brings in can be added to the clock,
so can those the engine holds. -/
theorem perform (h : e.Timed horizon) (hday : Addable horizon (fromSecs 86400)) {op : EngineOp S}
    (hop : op.Timed (Addable horizon) e) (htime : ∀ now, op.time = some now → now ≤ horizon) :
    (e.perform op).Timed horizon := by
  cases op with
  | handleDatagram datagram now => exact h.handleDatagram hop (htime now rfl)
  | handleTimeout now => exact h.handleTimeout hday (htime now rfl)
  | finishWrite token replacement => exact h.finishWrite token hop
  | rejectWrite token error => exact h.rejectWrite token error
  | readFiltered destination source function filters now => exact h.request _ _ _ _ _ (htime now rfl)
  | writeFiltered destination source data filters now => exact h.request _ _ _ _ _ (htime now rfl)
  | requestBinding client server now => exact h.request _ _ _ _ _ (htime now rfl)
  | requestSubscription client server now => exact h.request _ _ _ _ _ (htime now rfl)
  | notify feature function => exact h.of_sends (Engine.sends_notify e feature function)
  | addEntity entity => exact h.addEntity hop
  | modifyEntity path =>
    simp only [Engine.perform, Engine.modifyEntity]
    split
    · exact h
    · exact h.notifyDiscoveryChange _
  | removeEntity path => exact h.removeEntity path
  | configure g => exact ⟨h.delay, hop, h.peer, h.deferred, h.pending, h.events⟩
  | removePeer device => exact h.removePeer device
  | pollEvent =>
    exact ⟨h.delay, h.device, h.peer, h.deferred, h.pending,
      fun event hevent => h.events event (List.mem_of_mem_drop hevent)⟩
  | _ => exact h.congr rfl rfl rfl rfl rfl rfl

end Engine.Timed

end Eebus.Spine
