import Eebus.Model.Entries
import Eebus.Spine.Session

/-! What a peer can make an engine hold: seven tables, each with a bound of its own, over every run
of datagrams. -/

namespace Eebus.Spine

open Eebus.Library Eebus.Model

variable {S : Schema}

structure Peer.Bounded (p : Peer S) : Prop where
  functions : p.data.length ≤ maxRemoteFunctions
  entries : ∀ remembered ∈ p.data, remembered.2.held ≤ maxListEntries
  entities : (p.discovery.entityInformation.getD []).length ≤ maxListEntries
  features : (p.discovery.featureInformation.getD []).length ≤ maxListEntries
  useCases : (p.useCases.useCaseInformation.getD []).length ≤ maxListEntries

def LocalFeature.Bounded (f : LocalFeature S) : Prop :=
  ∀ entry ∈ f.functions, entry.operations.write = true →
    ∀ data, entry.data = some data → data.held ≤ maxListEntries

def LocalDevice.Bounded (device : LocalDevice S) : Prop :=
  ∀ entity ∈ device.entities, ∀ feature ∈ entity.features, feature.Bounded

/-- Everything a peer can make the engine hold is within its bound. -/
structure Bounded (e : Engine S) : Prop where
  peers : e.peers.length ≤ maxPeers
  peer : ∀ p ∈ e.peers, p.Bounded
  deferred : e.deferred.length ≤ maxDeferredWrites
  bindings : ∀ client, grantedTo e.relations.bindings client ≤ maxRelationsPerPeer
  subscriptions : ∀ client, grantedTo e.relations.subscriptions client ≤ maxRelationsPerPeer
  device : e.device.Bounded

variable {data : CmdData S} {f : LocalFeature S}

section LocalLists
variable (hcounts : S.Counts)
include hcounts

theorem runSteps_delete_held (update stored : CmdData S)
    (steps : List (Option (FilterSelectors S) × Option (FilterElements S))) :
    (runSteps (deleteStep update) steps stored).1.key = stored.key ∧
      (runSteps (deleteStep update) steps stored).1.held ≤ stored.held := by
  refine runSteps_preserves (R := fun s s' => s'.key = s.key ∧ s'.held ≤ s.held) ?_ ?_ ?_ steps stored
  · exact fun s => ⟨rfl, le_rfl⟩
  · exact fun s t u h h' => ⟨h'.1.trans h.1, h'.2.trans h.2⟩
  · exact fun step s s' hstep => CmdData.deleteRestricted_held hcounts hstep

omit hcounts in
theorem LocalFeature.Bounded.store (h : f.Bounded) {d : CmdData S}
    (hd : d.held ≤ maxListEntries) : (f.store d).Bounded := by
  refine forall_mem_modifyFirst h fun entry hentry _ _ data hdata => ?_
  cases hdata
  exact hd

theorem LocalFeature.Bounded.deleteFiltered (h : f.Bounded)
    (update : CmdData S) (filter : Filter S) : (f.deleteFiltered update filter).1.Bounded := by
  simp only [LocalFeature.deleteFiltered]
  split
  · exact h
  · rename_i entry hentry
    split
    · exact h
    · rename_i stored hstored
      have hwrite : entry ∈ f.functions ∧ entry.operations.write = true := by
        obtain ⟨hfunction, hwrite, -⟩ := LocalFeature.writeableFunction_eq_ok.mp hentry
        exact ⟨List.mem_of_find?_eq_some hfunction, hwrite⟩
      have hheld := (runSteps_delete_held hcounts update stored (addressedBy filter)).2
      have hbound := h entry hwrite.1 hwrite.2 stored hstored
      split
      · rename_i stored' hrun
        rw [hrun] at hheld
        exact h.store (hheld.trans hbound)
      · rename_i stored' error hrun
        rw [hrun] at hheld
        exact h.store (hheld.trans hbound)

theorem LocalFeature.Bounded.apply {f' : LocalFeature S} (h : f.Bounded) {update : CmdData S}
    {isPartial : Bool} (hfits : update.isCounted = false → update.held ≤ maxListEntries)
    (hok : f.apply update isPartial = .ok f') : f'.Bounded := by
  simp only [LocalFeature.apply] at hok
  split at hok
  · simp at hok
  rename_i entry hentry
  split at hok
  · simp at hok
  rename_i hwrite
  repeat' split at hok
  all_goals try (simp at hok; done)
  · rename_i hroom _ stored hstored _ merged hmerged
    cases hok
    have hbound := h entry (List.mem_of_find?_eq_some hentry) (by simpa using hwrite) stored hstored
    obtain ⟨-, hkind, hlist, hplain⟩ := CmdData.apply_ok hmerged
    refine h.store ?_
    cases hcounted : update.isCounted with
    | false => exact (hplain hcounts hcounted).trans (max_le hbound (hfits hcounted))
    | true =>
      refine (hlist hcounted).trans ?_
      rw [hcounted] at hkind
      rw [← CmdData.entryCount_eq_held hkind, ← CmdData.entryCount_eq_held hcounted]
      simp only [LocalFeature.wouldHold, hstored, Option.map_some, Option.getD_some] at hroom
      split at hroom <;> simp_all
  · rename_i hroom _ hnone
    cases hok
    refine h.store ?_
    cases hcounted : update.isCounted with
    | false => exact hfits hcounted
    | true =>
      rw [← CmdData.entryCount_eq_held hcounted]
      simp only [LocalFeature.wouldHold, hnone, Option.map_none, Option.getD_none] at hroom
      split at hroom <;> simp_all

theorem LocalFeature.Bounded.applyTo (h : f.Bounded)
    (ops : WriteOps S) (hfits : data.isCounted = false → data.held ≤ maxListEntries) :
    (ops.applyTo f data).1.Bounded :=
  WriteOps.applyTo_keeps (fun _ filter h => h.deleteFiltered hcounts data filter)
    (fun h hok => h.apply hcounts hfits hok) h

end LocalLists

theorem LocalDevice.Bounded.feature {device : LocalDevice S} (h : device.Bounded)
    {address : FeatureAddress} (hf : device.resolve address = some f) : f.Bounded := by
  obtain ⟨-, number, entity, -, hentity, hfeature⟩ := LocalDevice.resolve_eq_some.mp hf
  exact h entity (List.mem_of_find?_eq_some hentity) f (List.mem_of_find?_eq_some hfeature)

theorem LocalDevice.Bounded.update {device : LocalDevice S} (h : device.Bounded)
    (address : FeatureAddress) (hf : f.Bounded) :
    (device.update address fun _ => f).Bounded := by
  unfold LocalDevice.update
  split
  · exact h
  split
  · exact h
  · refine forall_mem_modifyFirst h fun entity hentity hmem => ?_
    exact forall_mem_modifyFirst (h entity hmem) fun _ _ _ => hf

theorem length_replaceOrPush {α : Type} (same : α → Bool) (entry : α) {held : List α}
    (h : held.length ≤ maxListEntries) : (replaceOrPush same entry held).length ≤ maxListEntries := by
  unfold replaceOrPush
  split
  · rwa [length_modifyFirst]
  split
  · rw [List.length_append, List.length_singleton]
    omega
  · exact h

theorem length_mergeEntity {Other : Type} (entry : EntityInformation)
    {held : List EntityInformation × List (FeatureInformation Other)}
    (h : held.1.length ≤ maxListEntries ∧ held.2.length ≤ maxListEntries) :
    (mergeEntity held entry).1.length ≤ maxListEntries ∧
      (mergeEntity held entry).2.length ≤ maxListEntries := by
  unfold mergeEntity
  split
  · split
    · exact ⟨(List.length_filter_le _ _).trans h.1, (List.length_filter_le _ _).trans h.2⟩
    · exact ⟨length_replaceOrPush _ _ h.1, h.2⟩
  · exact h

theorem length_mergeFeature {Other : Type} (entry : FeatureInformation Other)
    {held : List (FeatureInformation Other)} (h : held.length ≤ maxListEntries) :
    (mergeFeature held entry).length ≤ maxListEntries := by
  unfold mergeFeature
  split
  · split
    · exact (List.length_filter_le _ _).trans h
    · exact length_replaceOrPush _ _ h
  · exact h

theorem length_mergeUseCase (removing : Bool) (entry : UseCaseInformation)
    {held : List UseCaseInformation} (h : held.length ≤ maxListEntries) :
    (mergeUseCase removing held entry).length ≤ maxListEntries := by
  unfold mergeUseCase
  split
  · exact h
  dsimp only
  split
  · exact (List.eraseP_sublist.length_le).trans h
  · exact length_replaceOrPush _ _ h

def documentBounded {Other : Type} (data : NodeManagementDetailedDiscoveryData Other) : Prop :=
  (data.entityInformation.getD []).length ≤ maxListEntries ∧
    (data.featureInformation.getD []).length ≤ maxListEntries

theorem mergeDetailedDiscovery_bounded {Other : Type}
    {stored : NodeManagementDetailedDiscoveryData Other} (h : documentBounded stored)
    (update : NodeManagementDetailedDiscoveryData Other) :
    documentBounded (mergeDetailedDiscovery stored update) := by
  have hentities := List.foldlRecOn
    (motive := fun held : List EntityInformation × List (FeatureInformation Other) =>
      held.1.length ≤ maxListEntries ∧ held.2.length ≤ maxListEntries)
    (update.entityInformation.getD []) mergeEntity
    (b := (stored.entityInformation.getD [], stored.featureInformation.getD [])) h
    fun _ hheld entry _ => length_mergeEntity entry hheld
  exact ⟨hentities.1, List.foldlRecOn (motive := fun held => held.length ≤ maxListEntries)
    (update.featureInformation.getD []) mergeFeature hentities.2
    fun _ hheld entry _ => length_mergeFeature entry hheld⟩

theorem mergeUseCases_bounded {stored : NodeManagementUseCaseData}
    (h : (stored.useCaseInformation.getD []).length ≤ maxListEntries)
    (update : NodeManagementUseCaseData) (removing : Bool) :
    ((mergeUseCases stored update removing).useCaseInformation.getD []).length ≤ maxListEntries :=
  List.foldlRecOn (motive := fun held => held.length ≤ maxListEntries)
    (update.useCaseInformation.getD []) (mergeUseCase removing) h
    fun _ hheld entry _ => length_mergeUseCase removing entry hheld

theorem resolve_held (hcounts : S.Counts) {ops : WriteOps S} {start resolved : CmdData S}
    (hkey : start.key = data.key) (h : ops.resolve start data = .ok resolved) :
    resolved.isCounted = data.isCounted ∧
      (data.isCounted = false → resolved.held ≤ max start.held data.held) := by
  have hdeleted := runSteps_delete_held hcounts data start ops.deleteSteps
  simp only [WriteOps.resolve] at h
  split at h
  · simp at h
  rename_i deleted hrun
  rw [hrun] at hdeleted
  split at h
  · split at h
    · rename_i merged hmerged
      cases h
      obtain ⟨hkind, -, -, hplain⟩ := CmdData.apply_ok hmerged
      exact ⟨hkind, fun hdata => (hplain hcounts hdata).trans (max_le_max_right _ hdeleted.2)⟩
    · simp at h
  · cases h
    refine ⟨?_, fun _ => hdeleted.2.trans (le_max_left _ _)⟩
    have hsame : resolved.key = data.key := hdeleted.1.trans hkey
    rw [CmdData.isCounted, CmdData.isCounted, hsame]

theorem resolveRemembered_bounded (hcounts : S.Counts) (source : FeatureAddress)
    (ops : WriteOps S) (hfits : data.isCounted = false → data.held ≤ maxListEntries)
    {remembered : List (FeatureAddress × CmdData S)}
    (hlength : remembered.length ≤ maxRemoteFunctions)
    (hentries : ∀ r ∈ remembered, r.2.held ≤ maxListEntries) :
    (Engine.resolveRemembered source data ops remembered).1.length ≤ maxRemoteFunctions ∧
      ∀ r ∈ (Engine.resolveRemembered source data ops remembered).1, r.2.held ≤ maxListEntries := by
  have hrest : (remembered.eraseP (Engine.remembers source data)).length ≤ maxRemoteFunctions ∧
      ∀ r ∈ remembered.eraseP (Engine.remembers source data), r.2.held ≤ maxListEntries :=
    ⟨(List.eraseP_sublist.length_le).trans hlength,
      fun r hr => hentries r (List.eraseP_sublist.subset hr)⟩
  simp only [Engine.resolveRemembered]
  split
  · exact ⟨hlength, hentries⟩
  rename_i start hstart
  have hstart' : start.key = data.key ∧ start.held ≤ maxListEntries := by
    cases hfind : remembered.find? (Engine.remembers source data) with
    | some r =>
      simp only [hfind, Option.map_some, Option.some_or, Option.some.injEq] at hstart
      rw [← hstart]
      have htest := List.find?_some hfind
      simp only [Engine.remembers, Bool.and_eq_true, beq_iff_eq] at htest
      exact ⟨htest.2, hentries r (List.mem_of_find?_eq_some hfind)⟩
    | none =>
      simp only [hfind, Option.map_none, Option.none_or] at hstart
      have hempty := CmdData.held_empty hstart
      rw [CmdData.function, CmdData.empty] at hstart
      cases hstart
      exact ⟨rfl, by rw [hempty]; exact Nat.zero_le _⟩
  split
  · exact hrest
  rename_i resolved hresolved
  obtain ⟨hkind, hplain⟩ := resolve_held hcounts hstart'.1 hresolved
  split
  · exact hrest
  rename_i hroom
  have hheld : resolved.held ≤ maxListEntries := by
    cases hcounted : data.isCounted with
    | false => exact (hplain hcounted).trans (max_le hstart'.2 (hfits hcounted))
    | true =>
      rw [← CmdData.entryCount_eq_held (hkind.trans hcounted)]
      exact Nat.not_lt.mp hroom
  dsimp only
  refine ⟨?_, fun r hr => ?_⟩
  · rw [List.length_append, List.length_singleton]
    have hpositive : 0 < maxRemoteFunctions := by decide
    split
    · rw [List.length_drop]
      omega
    · omega
  · cases List.mem_append.mp hr with
    | inl hmem =>
      refine hrest.2 r ?_
      split at hmem
      · exact List.mem_of_mem_drop hmem
      · exact hmem
    | inr hmem =>
      rw [List.mem_singleton.mp hmem]
      exact hheld

theorem Peer.bounded_new (device : AddressDevice) : (Peer.new device : Peer S).Bounded :=
  ⟨Nat.zero_le _, by simp [Peer.new], Nat.zero_le _, Nat.zero_le _, Nat.zero_le _⟩

theorem grantedTo_le_of_sublist {relations relations' : List Relation} (h : relations'.Sublist relations)
    (client : FeatureAddress) : grantedTo relations' client ≤ grantedTo relations client :=
  h.countP_le

namespace Bounded

variable {e e' : Engine S}

section

variable (h : Bounded e)

include h

theorem congr (hpeers : e'.peers = e.peers) (hdeferred : e'.deferred = e.deferred)
    (hrelations : e'.relations = e.relations) (hdevice : e'.device = e.device) : Bounded e' where
  peers := by rw [hpeers]; exact h.peers
  peer := by rw [hpeers]; exact h.peer
  deferred := by rw [hdeferred]; exact h.deferred
  bindings := by rw [hrelations]; exact h.bindings
  subscriptions := by rw [hrelations]; exact h.subscriptions
  device := by rw [hdevice]; exact h.device

theorem of_sends {P : Datagram S → Prop} (hsends : Sends P e e') : Bounded e' :=
  h.congr hsends.peers hsends.deferred hsends.relations hsends.device

theorem removePeer (device : AddressDevice) : Bounded (e.removePeer device) where
  peers := (List.length_filter_le _ _).trans h.peers
  peer p hp := h.peer p (List.mem_filter.mp hp).1
  deferred := (List.length_filter_le _ _).trans h.deferred
  bindings client := (grantedTo_le_of_sublist List.filter_sublist client).trans (h.bindings client)
  subscriptions client :=
    (grantedTo_le_of_sublist List.filter_sublist client).trans (h.subscriptions client)
  device := h.device

theorem evict (hne : e.peers ≠ []) :
    Bounded e.evict ∧ e.evict.peers.length < e.peers.length := by
  have hindex : e.evictIndex < e.peers.length := by
    unfold Engine.evictIndex
    cases hfind : e.peers.findIdx? fun peer =>
        peer.remote.entities.isEmpty && peer.remote.useCases.isEmpty with
    | none => simpa using List.length_pos_iff.mpr hne
    | some i =>
      obtain ⟨hi, -⟩ := List.findIdx?_eq_some_iff_getElem.mp hfind
      exact hi
  unfold Engine.evict
  split
  · rename_i evicted hevicted
    refine ⟨h.removePeer evicted, ?_⟩
    obtain ⟨peer, hpeer, haddress⟩ := Option.bind_eq_some_iff.mp hevicted
    refine List.length_filter_lt_length_iff_exists.mpr ⟨peer, List.mem_of_getElem? hpeer, ?_⟩
    simp [Peer.isAt, haddress]
  · refine ⟨⟨?_, fun p hp => h.peer p (List.mem_of_mem_eraseIdx hp), h.deferred, h.bindings,
      h.subscriptions, h.device⟩, ?_⟩
    · exact ((List.eraseIdx_sublist _ _).length_le).trans h.peers
    · simp only [List.length_eraseIdx, hindex, if_true]
      omega

theorem peerEntry (device : AddressDevice) : Bounded (e.peerEntry device) := by
  have hadd : ∀ e : Engine S, Bounded e → e.peers.length < maxPeers →
      Bounded { e with peers := e.peers ++ [Peer.new device] } := by
    intro e h hroom
    refine ⟨?_, fun p hp => ?_, h.deferred, h.bindings, h.subscriptions, h.device⟩
    · rw [List.length_append, List.length_singleton]
      omega
    · cases List.mem_append.mp hp with
      | inl hp => exact h.peer p hp
      | inr hp =>
        rw [List.mem_singleton.mp hp]
        exact Peer.bounded_new device
  unfold Engine.peerEntry
  split
  · exact h
  dsimp only
  split
  · rename_i hfull
    have hpeers := h.peers
    have hpositive : 0 < maxPeers := by decide
    obtain ⟨hevicted, hless⟩ := h.evict (List.length_pos_iff.mp (by omega))
    exact hadd e.evict hevicted (by omega)
  · rename_i hroom
    exact hadd e h (by omega)

theorem updatePeer {device : AddressDevice} {g : Peer S → Peer S}
    (hg : ∀ p ∈ e.peers, Peer.isAt device p = true → (g p).Bounded) :
    Bounded (e.updatePeer device g) where
  peers := by
    rw [Engine.updatePeer, length_modifyFirst]
    exact h.peers
  peer := forall_mem_modifyFirst h.peer fun p hp hmem => hg p hmem hp
  deferred := h.deferred
  bindings := h.bindings
  subscriptions := h.subscriptions
  device := h.device

theorem peerAt (device : AddressDevice) : (e.peerAt device).Bounded := by
  unfold Engine.peerAt Engine.findPeer
  cases hfind : e.peers.find? (Peer.isAt device) with
  | none => exact Peer.bounded_new device
  | some p => exact h.peer p (List.mem_of_find?_eq_some hfind)

theorem observeSource (source : FeatureAddress) (counter : MsgCounter) :
    Bounded (e.observeSource source counter).1 := by
  unfold Engine.observeSource
  split
  · exact h
  · rename_i device _
    refine (h.peerEntry device).updatePeer fun p hp _ => ?_
    obtain ⟨hfunctions, hentries, hentities, hfeatures, huse⟩ := (h.peerEntry device).peer p hp
    exact ⟨hfunctions, hentries, hentities, hfeatures, huse⟩

theorem resolvePending (reference : Option MsgCounter) (origin : FeatureAddress) :
    Bounded (e.resolvePending reference origin).1 := by
  cases reference <;> exact h.congr rfl rfl rfl rfl

theorem handleCall (cmd : Cmd S) (source : FeatureAddress) :
    Bounded (e.handleCall cmd source).1 := by
  obtain ⟨hpeers, -, hdeferred⟩ := e.handleCall_frame cmd source
  have hdevice := e.handleCall_device cmd source
  have heffect := e.handleCall_effect cmd source
  have hadd : ∀ (relations : List Relation) (id : UInt32) (client server : FeatureAddress),
      (∀ c, grantedTo relations c ≤ maxRelationsPerPeer) →
      grantedTo relations client < maxRelationsPerPeer →
      ∀ c, grantedTo (relations ++ [Relation.granted id client server]) c ≤ maxRelationsPerPeer := by
    intro relations id client server hbound hroom c
    by_cases hsame : client.device = c.device
    · have hcount : grantedTo relations c = grantedTo relations client := by
        simp only [grantedTo, hsame]
      have hsplit : grantedTo (relations ++ [Relation.granted id client server]) c =
          grantedTo relations c + 1 := by
        simp [grantedTo, Relation.granted, hsame]
      omega
    · have hsplit : grantedTo (relations ++ [Relation.granted id client server]) c =
          grantedTo relations c := by
        simp [grantedTo, Relation.granted, hsame]
      rw [hsplit]
      exact hbound c
  have hrelations : (∀ c, grantedTo (e.handleCall cmd source).1.relations.bindings c ≤
        maxRelationsPerPeer) ∧
      ∀ c, grantedTo (e.handleCall cmd source).1.relations.subscriptions c ≤ maxRelationsPerPeer := by
    generalize (e.handleCall cmd source).1.relations = relations at heffect
    cases heffect with
    | nothing => exact ⟨h.bindings, h.subscriptions⟩
    | bind _ _ server client _ _ _ _ =>
      rcases e.relations.addBinding_cases client server with hsame | ⟨-, -, -, hroom, hnew⟩
      · rw [hsame]
        exact ⟨h.bindings, h.subscriptions⟩
      · rw [hnew]
        exact ⟨hadd _ _ client server h.bindings hroom, h.subscriptions⟩
    | subscribe _ _ server client _ _ _ _ =>
      rcases e.relations.addSubscription_cases client server with hsame | ⟨-, hroom, hnew⟩
      · rw [hsame]
        exact ⟨h.bindings, h.subscriptions⟩
      · rw [hnew]
        exact ⟨h.bindings, hadd _ _ client server h.subscriptions hroom⟩
    | unbind =>
      exact ⟨fun c => (grantedTo_le_of_sublist List.filter_sublist c).trans (h.bindings c),
        h.subscriptions⟩
    | unsubscribe =>
      exact ⟨h.bindings,
        fun c => (grantedTo_le_of_sublist List.filter_sublist c).trans (h.subscriptions c)⟩
  exact ⟨by rw [hpeers]; exact h.peers, by rw [hpeers]; exact h.peer,
    by rw [hdeferred]; exact h.deferred, hrelations.1, hrelations.2, by rw [hdevice]; exact h.device⟩

end

end Bounded

theorem grantedTo_recordRelation (r : Relations) (request : Datagram S) (client : FeatureAddress) :
    grantedTo (Engine.recordRelation r request).bindings client ≤ grantedTo r.bindings client ∧
      grantedTo (Engine.recordRelation r request).subscriptions client ≤
        grantedTo r.subscriptions client := by
  have hrecord : ∀ (into : List Relation) (c s : FeatureAddress),
      grantedTo (record into c s) client = grantedTo into client := by
    intro into c s
    rcases Relations.record_cases into c s with hsame | hadd
    · rw [hsame]
    · rw [hadd]
      simp [grantedTo, Relation.recorded]
  have hheld : ∀ c s, grantedTo (r.removeHeld c s).bindings client ≤ grantedTo r.bindings client ∧
      grantedTo (r.removeHeld c s).subscriptions client ≤ grantedTo r.subscriptions client :=
    fun c s => ⟨grantedTo_le_of_sublist List.filter_sublist client,
      grantedTo_le_of_sublist List.filter_sublist client⟩
  unfold Engine.recordRelation
  split
  · split
    · exact ⟨(hrecord _ _ _).le, le_rfl⟩
    · exact ⟨le_rfl, le_rfl⟩
  · split
    · exact ⟨le_rfl, (hrecord _ _ _).le⟩
    · exact ⟨le_rfl, le_rfl⟩
  · split
    · exact hheld _ _
    · exact ⟨le_rfl, le_rfl⟩
  · split
    · exact hheld _ _
    · exact ⟨le_rfl, le_rfl⟩
  · exact ⟨le_rfl, le_rfl⟩

/-- What a report may carry where no check bounds it: a whole discovery document, a whole use-case
document, and a list the data choice does not declare as one. -/
def Fits (ops : WriteOps S) : CmdData S → Prop
  | ⟨.nodeManagementDetailedDiscoveryData, data⟩ =>
    ops.deletes = [] → ops.isPartial = false → documentBounded data
  | ⟨.nodeManagementUseCaseData, data⟩ =>
    ops.deletes = [] → ops.isPartial = false →
      (data.useCaseInformation.getD []).length ≤ maxListEntries
  | data => data.isCounted = false → data.held ≤ maxListEntries

namespace Bounded

variable {e e' : Engine S}

theorem handleResult (h : Bounded e) (cmd : Cmd S) (reference : Option MsgCounter)
    (origin : FeatureAddress) : Bounded (e.handleResult cmd reference origin) := by
  have hresolved := h.resolvePending reference origin
  unfold Engine.handleResult
  split
  · rename_i e' hpair
    rw [hpair] at hresolved
    exact hresolved
  · rename_i e' request hpair
    rw [hpair] at hresolved
    dsimp only
    split
    · have hgranted := grantedTo_recordRelation e'.relations request.datagram
      exact ⟨hresolved.peers, hresolved.peer, hresolved.deferred,
        fun c => (hgranted c).1.trans (hresolved.bindings c),
        fun c => (hgranted c).2.trans (hresolved.subscriptions c), hresolved.device⟩
    · exact hresolved.congr rfl rfl rfl rfl

theorem absorbDiscovery (h : Bounded e) (source : FeatureAddress)
    {update : NodeManagementDetailedDiscoveryData S.Other} {ops : WriteOps S}
    (hfits : ops.deletes = [] → ops.isPartial = false → documentBounded update) :
    Bounded (e.absorbDiscovery source update ops).1 := by
  unfold Engine.absorbDiscovery
  split
  · exact h
  · rename_i device _
    have hstored := (h.peerEntry device).peerAt device
    have hdocument : documentBounded ((e.peerEntry device).peerAt device).discovery :=
      ⟨hstored.entities, hstored.features⟩
    refine Bounded.congr (Bounded.updatePeer (h.peerEntry device) ?_) rfl rfl rfl rfl
    intro p hp _
    have hmerged : documentBounded
        (if (!ops.deletes.isEmpty) = true then
          mergeDetailedDiscovery ((e.peerEntry device).peerAt device).discovery (markRemoved update)
        else if ops.isPartial = true then
          mergeDetailedDiscovery ((e.peerEntry device).peerAt device).discovery update
        else update) := by
      split
      · exact mergeDetailedDiscovery_bounded hdocument _
      split
      · exact mergeDetailedDiscovery_bounded hdocument _
      · rename_i hdeletes hmerged
        exact hfits (by simpa using hdeletes) (by simpa using hmerged)
    have hold := (h.peerEntry device).peer p hp
    exact ⟨hold.functions, hold.entries, hmerged.1, hmerged.2, hold.useCases⟩

theorem absorbUseCases (h : Bounded e) (source : FeatureAddress) {update : NodeManagementUseCaseData}
    {ops : WriteOps S} (hfits : ops.deletes = [] → ops.isPartial = false →
      (update.useCaseInformation.getD []).length ≤ maxListEntries) :
    Bounded (e.absorbUseCases source update ops).1 := by
  unfold Engine.absorbUseCases
  split
  · exact h
  · rename_i device _
    have hstored := (h.peerEntry device).peerAt device
    refine Bounded.congr (Bounded.updatePeer (h.peerEntry device) ?_) rfl rfl rfl rfl
    intro p hp _
    have hold := (h.peerEntry device).peer p hp
    refine ⟨hold.functions, hold.entries, hold.entities, hold.features, ?_⟩
    dsimp only
    split
    · exact mergeUseCases_bounded hstored.useCases _ _
    · rename_i hfull
      simp only [Bool.or_eq_true, Bool.not_eq_true', not_or] at hfull
      exact hfits (by simpa using hfull.2) (by simpa using hfull.1)

theorem resolveRemote (h : Bounded e) (hcounts : S.Counts) (source : FeatureAddress)
    (ops : WriteOps S) (hfits : data.isCounted = false → data.held ≤ maxListEntries) :
    Bounded (e.resolveRemote source data ops).1 := by
  unfold Engine.resolveRemote
  split
  · exact h
  · rename_i device _
    have hstored := (h.peerEntry device).peerAt device
    have hremembered :=
      resolveRemembered_bounded hcounts source ops hfits hstored.functions hstored.entries
    refine Bounded.updatePeer (h.peerEntry device) fun p hp _ => ?_
    have hold := (h.peerEntry device).peer p hp
    exact ⟨hremembered.1, hremembered.2, hold.entities, hold.features, hold.useCases⟩

theorem absorb (h : Bounded e) (hcounts : S.Counts) (source : FeatureAddress)
    {ops : WriteOps S} (hfits : Fits ops data) : Bounded (e.absorb source data ops).1 := by
  unfold Engine.absorb
  split
  · exact h.absorbDiscovery source hfits
  · exact h.absorbUseCases source hfits
  · rename_i hdiscovery huse
    refine h.resolveRemote hcounts source ops fun hcounted => ?_
    revert hfits
    unfold Fits
    split
    · exact fun _ => absurd rfl (hdiscovery _)
    · exact fun _ => absurd rfl (huse _)
    · exact fun hfits => hfits hcounted

theorem handleIncomingData (h : Bounded e) (hcounts : S.Counts) {cmd : Cmd S}
    (source : FeatureAddress) (classifier : CmdClassifier)
    (hfits : ∀ data, cmd.data = some data → Fits (WriteOps.of cmd) data) :
    Bounded (e.handleIncomingData cmd source classifier).1 := by
  unfold Engine.handleIncomingData
  split
  · exact h
  · rename_i data hdata
    exact (h.absorb hcounts source (hfits data hdata)).congr rfl rfl rfl rfl

theorem decideWrite (h : Bounded e) (hcounts : S.Counts) {w : DatagramWrite S} (now : Nat)
    (hfeature : w.feature.Bounded)
    (hfits : w.feature.approval ≠ .deferred → w.data.isCounted = false →
      w.data.held ≤ maxListEntries) : Bounded (e.decideWrite w now).1 := by
  unfold Engine.decideWrite
  split
  · split
    · exact h
    · rename_i hroom
      refine ⟨h.peers, h.peer, ?_, h.bindings, h.subscriptions, h.device⟩
      simp only [Engine.deferWrite, List.length_append, List.length_singleton]
      omega
  · rename_i happroval
    have happlied := hfeature.applyTo hcounts w.ops (hfits happroval)
    have hstore : ∀ f : LocalFeature S, f.Bounded → Bounded (e.storeFeature w.destination f) :=
      fun f hf => ⟨h.peers, h.peer, h.deferred, h.bindings, h.subscriptions,
        h.device.update w.destination hf⟩
    obtain ⟨said, -, hsends⟩ := e.applyWrite_sends w.feature w.data w.ops w.source w.destination
    refine Bounded.of_sends ?_ hsends
    exact (hstore _ happlied).congr rfl rfl rfl rfl

end Bounded

/-- A datagram that brings no more than its tables hold, where the code takes it unseen. -/
structure Modest (e : Engine S) (datagram : Datagram S) : Prop where
  report : ∀ v cmd data, TakenUp e datagram v → v.classifier = .reply ∨ v.classifier = .notify →
    datagram.commands = [cmd] → cmd.data = some data → Fits (WriteOps.of cmd) data
  write : ∀ w, Admitted e datagram w → w.feature.approval ≠ .deferred → w.data.isCounted = false →
    w.data.held ≤ maxListEntries

theorem Bounded.handleDatagram {e : Engine S} (h : Bounded e) (hcounts : S.Counts)
    {datagram : Datagram S} (hmodest : Modest e datagram) (now : Nat) :
    Bounded (e.handleDatagram datagram now).1 := by
  rcases e.handleDatagram_served datagram now with hdiscarded | ⟨v, e', hv, hserved, hsends⟩
  · cases hdiscarded with
    | unread hsends => exact h.of_sends hsends
    | filed source counter _ _ hsends => exact (h.observeSource source counter).of_sends hsends
  · have hfiled : Bounded (v.filed e).1 := h.observeSource _ _
    refine Bounded.of_sends ?_ hsends
    cases hserved with
    | answered _ _ hanswered => exact hfiled.of_sends hanswered
    | written w hw =>
      exact hfiled.decideWrite hcounts now (h.device.feature hw.resolved) (hmodest.write w hw)
    | called _ cmd _ _ => exact hfiled.handleCall cmd v.source
    | informed _ cmd hclassifier hcommand =>
      exact (hfiled.resolvePending _ _).handleIncomingData hcounts _ _
        fun data hdata => hmodest.report v cmd data hv hclassifier hcommand hdata
    | settled _ cmd _ _ => exact hfiled.handleResult cmd _ _

/-- The engine under the datagrams it is handed, and the times it is handed them at. -/
def inbound : Machine (Engine S) (Datagram S × Nat) Bool where
  step e input := e.handleDatagram input.1 input.2

/-- In every run of datagrams that bring no more than a table holds where the code does not look,
every table stays within its bound. -/
theorem peer_memory_bounded (hcounts : S.Counts) (e : Engine S) (h : Bounded e)
    (datagrams : List (Datagram S × Nat))
    (hrun : inbound.Admits (fun e input => Modest e input.1) e datagrams) :
    ∀ before, before <+: datagrams → Bounded (inbound.run e before) := by
  intro before hprefix
  exact inbound.run_invariant (fun e input => Modest e input.1) Bounded
    (fun _ input h hmodest => h.handleDatagram hcounts hmodest input.2) before e h
    (inbound.admits_prefix hrun hprefix)

def gatewayNode : Engine Schema.limitsOnly :=
  Engine.new (LocalDevice.fromAddress "d:_i:1_Gateway" "EnergyManagementSystem")

def largeDocument (count : Nat) : NodeManagementDetailedDiscoveryData Empty where
  specificationVersionList := none
  deviceInformation := none
  entityInformation := some ((List.range count).map fun n => ⟨some ⟨some ⟨some [n]⟩, none, none⟩⟩)
  featureInformation := none

def discoveryReport (cmd : Cmd Schema.limitsOnly) : Datagram Schema.limitsOnly :=
  ⟨some (Engine.header (nodeManagement "d:_i:2_HeatPump") (nodeManagement "d:_i:1_Gateway") 1 .notify
    false none), some ⟨some [cmd]⟩⟩

def documentCmd (count : Nat) : Cmd Schema.limitsOnly :=
  Cmd.withData ⟨.nodeManagementDetailedDiscoveryData, largeDocument count⟩

theorem bounded_gatewayNode : Bounded gatewayNode := by
  refine ⟨Nat.zero_le _, by simp [gatewayNode, Engine.new], Nat.zero_le _, fun _ => Nat.zero_le _,
    fun _ => Nat.zero_le _, ?_⟩
  have hdata : ∀ entity ∈ gatewayNode.device.entities, ∀ feature ∈ entity.features,
      ∀ entry ∈ feature.functions, entry.data.isNone = true := by decide +kernel
  intro entity hentity feature hfeature entry hentry _ data hstored
  simpa [hstored] using hdata entity hentity feature hfeature entry hentry

/-- An update of a document, of whatever size, is merged within the bound. -/
theorem peer_memory_bounded_update :
    inbound.Admits (fun e input => Modest e input.1) gatewayNode
        [(discoveryReport ((documentCmd 300).withFilter .partialUpdate), 0)] ∧
      Bounded (inbound.run gatewayNode
        [(discoveryReport ((documentCmd 300).withFilter .partialUpdate), 0)]) := by
  have hadmits : inbound.Admits (fun e input => Modest e input.1) gatewayNode
      [(discoveryReport ((documentCmd 300).withFilter .partialUpdate), 0)] := by
    refine ⟨⟨?_, ?_⟩, trivial⟩
    · intro v cmd data _ _ hcommand hdata
      cases hcommand
      cases hdata
      exact fun _ hfull => by simp [WriteOps.of, Cmd.isPartial, Cmd.filters, Cmd.withFilter,
        Filter.partialUpdate, Filter.isPartial] at hfull
    · intro w hw
      obtain ⟨header, hheader, -, hclassifier, -⟩ := hw.takenUp.header
      cases hheader
      rw [hw.isWrite] at hclassifier
      simp [Engine.header] at hclassifier
  exact ⟨hadmits, peer_memory_bounded Schema.counts_limitsOnly gatewayNode bounded_gatewayNode _ hadmits
    _ (List.prefix_refl _)⟩

/-- The same document sent whole is remembered whole. -/
theorem full_document_exceeds_bound :
    let e := (gatewayNode.handleDatagram (discoveryReport (documentCmd 300)) 0).1
    e.peers.map (fun p => (p.discovery.entityInformation.getD []).length) = [300] ∧ ¬ Bounded e := by
  have hlength : ((gatewayNode.handleDatagram (discoveryReport (documentCmd 300)) 0).1.peers.map
      fun p => (p.discovery.entityInformation.getD []).length) = [300] := by decide +kernel
  refine ⟨hlength, fun hbounded => ?_⟩
  obtain ⟨p, hp, hcount⟩ := List.mem_map.mp (hlength ▸ List.mem_singleton_self 300)
  have hbound := (hbounded.peer p hp).entities
  rw [hcount] at hbound
  exact absurd hbound (by decide)

end Eebus.Spine
