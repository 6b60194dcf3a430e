import Eebus.Runtime.Arbitration
import Eebus.Runtime.Isolation
import Eebus.Spine.Growth

/-! What is left of a peer when its connection has gone: the engine holds nothing for a device no
connection is bound to, and dropping one connection leaves the others' sessions alone. -/

namespace Eebus.Runtime

open Eebus.Library Eebus.Model Eebus.Spine
open Eebus.Ship (Ski)

variable {S : Schema}

def boundDevices (links : List Link) : List AddressDevice := links.filterMap Link.device

variable {datagram : Datagram S} {h : Hub S} {links : List Link}

theorem boundDevices_congr {links' : List Link}
    (h : links'.map Link.device = links.map Link.device) :
    boundDevices links' = boundDevices links := by
  have hmap : ∀ l : List Link, boundDevices l = (l.map Link.device).filterMap id := by
    intro l
    rw [List.filterMap_map]
    rfl
  rw [hmap, hmap, h]

theorem map_device_modify (links : List Link) (index : Nat) {g : Link → Link}
    (hg : ∀ link, (g link).device = link.device) :
    (links.modify index g).map Link.device = links.map Link.device := by
  induction links generalizing index with
  | nil => simp
  | cons link rest ih =>
    cases index with
    | zero => simp [hg]
    | succ index => simp [ih]

theorem boundDevices_without {before after : List Link} {link : Link}
    (hdistinct : (boundDevices (before ++ link :: after)).Nodup) :
    (boundDevices (before ++ after)).Nodup ∧
      ∀ device, device ∈ boundDevices (before ++ after) ↔
        device ∈ boundDevices (before ++ link :: after) ∧ link.device ≠ some device := by
  unfold boundDevices at hdistinct ⊢
  rw [List.filterMap_append, List.filterMap_cons] at hdistinct
  rw [List.filterMap_append, List.filterMap_append, List.filterMap_cons]
  generalize before.filterMap Link.device = first at hdistinct ⊢
  generalize after.filterMap Link.device = last at hdistinct ⊢
  cases hdevice : link.device with
  | none =>
    simp only [hdevice] at hdistinct
    exact ⟨hdistinct, fun device => by simp⟩
  | some bound =>
    simp only [hdevice] at hdistinct
    rw [List.nodup_middle] at hdistinct
    obtain ⟨hnot, hrest⟩ := List.nodup_cons.mp hdistinct
    refine ⟨hrest, fun device => ?_⟩
    simp only [List.mem_append, List.mem_cons] at hnot ⊢
    constructor
    · intro hmem
      refine ⟨by tauto, fun heq => hnot ?_⟩
      rw [Option.some.inj heq]
      exact hmem
    · rintro ⟨hmem, hne⟩
      have hne' : device ≠ bound := fun heq => hne (by rw [heq])
      tauto

theorem take_cons_drop {index : Nat} {link : Link} (hlink : links[index]? = some link) :
    links.take index ++ link :: links.drop (index + 1) = links := by
  obtain ⟨hindex, hget⟩ := List.getElem?_eq_some_iff.mp hlink
  rw [← hget, List.cons_getElem_drop_succ, List.take_append_drop]

theorem boundDevices_eraseIdx {index : Nat} {link : Link}
    (hlink : links[index]? = some link) (hdistinct : (boundDevices links).Nodup) :
    (boundDevices (links.eraseIdx index)).Nodup ∧
      ∀ device, device ∈ boundDevices (links.eraseIdx index) ↔
        device ∈ boundDevices links ∧ link.device ≠ some device := by
  have hwithout : (boundDevices (links.take index ++ link :: links.drop (index + 1))).Nodup := by
    rwa [take_cons_drop hlink]
  have hkey := boundDevices_without hwithout
  rw [take_cons_drop hlink] at hkey
  rw [List.eraseIdx_eq_take_drop_succ]
  exact hkey

theorem boundDevices_eraseIdx_unbound {index : Nat} {link : Link}
    (hlink : links[index]? = some link) (hdevice : link.device = none) :
    boundDevices (links.eraseIdx index) = boundDevices links := by
  rw [List.eraseIdx_eq_take_drop_succ]
  nth_rewrite 3 [← take_cons_drop hlink]
  simp [boundDevices, hdevice]

theorem boundDevices_filter_zipIdx {keep : Link × Nat → Bool} (k : Nat)
    (h : ∀ entry ∈ links.zipIdx k, keep entry = false → entry.1.device = none) :
    boundDevices (((links.zipIdx k).filter keep).map Prod.fst) = boundDevices links := by
  induction links generalizing k with
  | nil => rfl
  | cons link rest ih =>
    rw [List.zipIdx_cons] at h ⊢
    have hrest := ih (k + 1) fun entry hentry => h entry (List.mem_cons_of_mem _ hentry)
    unfold boundDevices at hrest ⊢
    rw [List.filter_cons]
    cases hkeep : keep (link, k) with
    | true => simp [List.filterMap_cons, hrest]
    | false =>
      have hdevice : link.device = none := h (link, k) List.mem_cons_self hkeep
      simp only [Bool.false_eq_true, if_false, hrest, List.filterMap_cons, hdevice]

theorem boundDevices_filter {keep : Link → Bool}
    (h : ∀ link ∈ links, keep link = false → link.device = none) :
    boundDevices (links.filter keep) = boundDevices links := by
  rw [← map_fst_filter_zipIdx keep links 0]
  exact boundDevices_filter_zipIdx 0 fun entry hentry =>
    h entry.1 (List.fst_mem_of_mem_zipIdx hentry)

namespace Hub

def devices (h : Hub S) : List AddressDevice := boundDevices h.links

/-- The table and the engine agree: no two connections are bound to one device or to this node, and
what the engine holds for another device, it holds for one that is connected. -/
structure Orderly (h : Hub S) : Prop where
  distinct : h.devices.Nodup
  foreign : h.engine.device.address ∉ h.devices
  paired : Paired h.engine
  clear : ∀ device, device ≠ h.engine.device.address → device ∉ h.devices → Clear device h.engine

/-- What a step that only lets go of connections may do: everything stays in order, and the
sessions of the devices still connected are as they were. -/
structure Sheds (h h' : Hub S) : Prop where
  orderly : h'.Orderly
  remain : ∀ device ∈ h'.devices, device ∈ h.devices ∧ SameSession device h.engine h'.engine
  address : h'.engine.device.address = h.engine.device.address

namespace Sheds

variable {h h' h'' : Hub S}

theorem refl (ho : h.Orderly) : Sheds h h :=
  ⟨ho, fun device hd => ⟨hd, .refl device h.engine⟩, rfl⟩

theorem trans (a : Sheds h h') (b : Sheds h' h'') : Sheds h h'' where
  orderly := b.orderly
  remain device hd := by
    obtain ⟨hd', hsame'⟩ := b.remain device hd
    obtain ⟨hd, hsame⟩ := a.remain device hd'
    exact ⟨hd, hsame.trans hsame'⟩
  address := b.address.trans a.address

section

variable (ho : h.Orderly)

include ho

theorem of_devices (hdevices : h'.devices = h.devices)
    (hrelations : h'.engine.relations = h.engine.relations) (hpeers : h'.engine.peers = h.engine.peers)
    (hpending : h'.engine.pending = h.engine.pending)
    (hdeferred : h'.engine.deferred = h.engine.deferred)
    (haddress : h'.engine.device.address = h.engine.device.address) : Sheds h h' where
  orderly := by
    refine ⟨?_, ?_, ⟨?_, ?_, ?_⟩, fun device hne hd => ?_⟩
    · rw [hdevices]
      exact ho.distinct
    · rw [hdevices, haddress]
      exact ho.foreign
    · rw [hrelations, haddress]
      exact ho.paired.bindings
    · rw [hrelations, haddress]
      exact ho.paired.subscriptions
    · rw [hpending, haddress]
      exact ho.paired.requests
    · rw [hdevices] at hd
      rw [haddress] at hne
      obtain ⟨hb, hs, hr, hp, hw⟩ := ho.clear device hne hd
      refine ⟨?_, ?_, ?_, ?_, ?_⟩
      · rwa [hrelations]
      · rwa [hrelations]
      · rwa [Engine.tracks, hpeers]
      · rwa [hpending]
      · rwa [hdeferred]
  remain device hd := by
    rw [hdevices] at hd
    exact ⟨hd, by rw [hrelations], by rw [hrelations], by rw [hpeers], by rw [hpending],
      by rw [hdeferred]⟩
  address := haddress

theorem updateLink (index : Nat) {g : Link → Link}
    (hg : ∀ link, (g link).device = link.device) : Sheds h (h.updateLink index g) :=
  of_devices ho (boundDevices_congr (map_device_modify h.links index hg)) rfl rfl rfl rfl rfl

theorem removePeer {device : AddressDevice} (hdevice : device ∈ h.devices)
    (hdistinct : (boundDevices links).Nodup)
    (hlinks : ∀ d, d ∈ boundDevices links ↔ d ∈ h.devices ∧ d ≠ device)
    (dropped : List (Link × Disconnect)) :
    Sheds h { h with
      links := links
      engine := h.engine.removePeer device
      dropped := dropped } := by
  have haddress : device ≠ h.engine.device.address := fun heq => ho.foreign (heq ▸ hdevice)
  have hgrows : ∀ K : Kinds S, Grows K h.engine (h.engine.removePeer device) :=
    fun _ => h.engine.grows_removePeer device
  let nothing : Kinds S := ⟨fun _ => False, none, fun _ _ => False⟩
  refine ⟨⟨hdistinct, fun hmem => ?_, ?_, fun d hne hd => ?_⟩, fun d hd => ?_, rfl⟩
  · exact ho.foreign ((hlinks _).mp hmem).1
  · exact (hgrows nothing).paired ho.paired (fun _ hr => hr.elim) fun _ _ hr => hr.elim
  · by_cases heq : d = device
    · rw [heq]
      exact clear_removePeer h.engine device
    · have hold : d ∉ h.devices := fun hmem => hd ((hlinks d).mpr ⟨hmem, heq⟩)
      exact (hgrows nothing).clear (ho.clear d hne hold) (fun _ hr => hr.elim) (by simp [nothing])
        fun _ _ hr => hr.elim
  · obtain ⟨hmem, hne⟩ := (hlinks d).mp hd
    have hd' : d ≠ h.engine.device.address := fun heq => ho.foreign (heq ▸ hmem)
    exact ⟨hmem, SameSession.removePeer ho.paired hd' haddress hne⟩

theorem report (ski : Ski) (reason : Disconnect) :
    Sheds h ((if h.links.any fun l => l.ski == ski then h else h.forget ski).emit
      (.disconnected ski reason)) := by
  split
  · exact of_devices ho rfl rfl rfl rfl rfl rfl
  · exact of_devices ho rfl rfl rfl rfl rfl rfl

theorem dropLink (index : Nat) (reason : Disconnect) : Sheds h (h.dropLink index reason) := by
  cases hlink : h.links[index]? with
  | none =>
    have hsame : h.dropLink index reason = h := by simp [Hub.dropLink, hlink]
    rw [hsame]
    exact refl ho
  | some link =>
    simp only [Hub.dropLink, hlink, forgetPeerState]
    cases hdevice : link.device with
    | none =>
      have hlets : Sheds h { h with
          links := h.links.eraseIdx index
          dropped := h.dropped ++ [(link, reason)] } :=
        of_devices ho (boundDevices_eraseIdx_unbound hlink hdevice) rfl rfl rfl rfl rfl
      exact hlets.trans (report hlets.orderly link.ski reason)
    | some device =>
      have hmem : device ∈ h.devices :=
        List.mem_filterMap.mpr ⟨link, List.mem_of_getElem? hlink, hdevice⟩
      obtain ⟨hdistinct, hleft⟩ := boundDevices_eraseIdx hlink ho.distinct
      have hlets : Sheds h { h with
          links := h.links.eraseIdx index
          dropped := h.dropped ++ [(link, reason)]
          engine := h.engine.removePeer device } := by
        refine removePeer ho hmem hdistinct (fun d => ?_) _
        rw [hleft, hdevice]
        exact and_congr_right fun _ => by simp [eq_comm]
      exact hlets.trans (report hlets.orderly link.ski reason)

theorem dropLinks (indices : List Nat) (reason : Disconnect) :
    Sheds h (h.dropLinks indices reason) := by
  induction indices generalizing h with
  | nil => exact refl ho
  | cons index rest ih =>
    have hfirst := dropLink ho index reason
    exact hfirst.trans (ih hfirst.orderly)

theorem closeDuplicates (ski : Ski) (hunbound : ∀ keep, h.newest ski = some keep →
      ∀ entry ∈ h.links.zipIdx, doomed ski keep entry = true → entry.1.device = none) :
    Sheds h (h.closeDuplicates ski) := by
  cases hkeep : h.newest ski with
  | none =>
    have hforget : h.closeDuplicates ski = h.forget ski := by simp [Hub.closeDuplicates, hkeep]
    rw [hforget]
    exact of_devices ho rfl rfl rfl rfl rfl rfl
  | some keep =>
    have hdevices : (h.closeDuplicates ski).devices = h.devices := by
      rw [devices, h.closeDuplicates_links hkeep]
      refine boundDevices_filter_zipIdx 0 fun entry hentry hdoomed => ?_
      exact hunbound keep hkeep entry hentry (by simpa using hdoomed)
    have hengine : (h.closeDuplicates ski).engine = h.engine := by
      simp [Hub.closeDuplicates, hkeep, Hub.forget]
    exact of_devices ho hdevices (by rw [hengine]) (by rw [hengine]) (by rw [hengine])
      (by rw [hengine]) (by rw [hengine])

theorem disconnect (ski : Ski)
    (hunbound : ∀ link ∈ h.linksTo ski, link.device = none) : Sheds h (h.disconnect ski) := by
  refine of_devices ho (boundDevices_filter fun link hlink hski => ?_) rfl rfl rfl rfl rfl
  exact hunbound link (List.mem_filter.mpr ⟨hlink, by simpa using hski⟩)

theorem shutdown (hunbound : h.devices = []) : Sheds h h.shutdown :=
  of_devices ho hunbound.symm rfl rfl rfl rfl rfl

theorem transmit (sent : Bool) : Sheds h (h.transmit sent) := by
  unfold Hub.transmit
  split
  · exact refl ho
  · rename_i datagram rest houtbox
    have hsent : Sheds h { h with engine := { h.engine with outbox := rest } } :=
      of_devices ho rfl rfl rfl rfl rfl rfl
    dsimp only
    split
    · exact hsent
    · split
      · exact hsent
      · exact hsent.trans (dropLink hsent.orderly _ .remote)

theorem resume : Sheds h h.resume := by
  unfold Hub.resume
  split
  · exact refl ho
  · have hcleared : Sheds h { h with writing := none } := of_devices ho rfl rfl rfl rfl rfl rfl
    dsimp only
    split
    · exact hcleared.trans (dropLink hcleared.orderly _ .interruptedWrite)
    · exact hcleared

theorem expireLinks (now : Nat) : Sheds h (h.expireLinks now) := by
  have hchecked : Sheds h { h with links := h.links.map fun link => (link.keepalive now).1 } := by
    refine of_devices ho (boundDevices_congr ?_) rfl rfl rfl rfl rfl
    rw [List.map_map]
    congr 1
    funext link
    simp only [Function.comp_apply, Link.keepalive]
    split <;> rfl
  have hdropped := hchecked.trans (dropLinks hchecked.orderly
    (h.positions fun link _ => (link.keepalive now).2 == .dead) .unresponsive)
  unfold Hub.expireLinks
  dsimp only
  split
  · exact hdropped.trans (of_devices hdropped.orderly rfl rfl rfl rfl rfl rfl)
  · exact hdropped

theorem mapIdx {f : Nat → Link → Link} (hf : ∀ i link, (f i link).device = link.device) :
    Sheds h { h with links := h.links.mapIdx f } := by
  refine of_devices ho (boundDevices_congr ?_) rfl rfl rfl rfl rfl
  apply List.ext_getElem?
  intro i
  simp only [List.getElem?_map, List.getElem?_mapIdx, Option.map_map]
  congr 1
  funext link
  exact hf i link

theorem keepalive (now : Nat) (sent : Nat → Bool) : Sheds h (h.keepalive now sent) := by
  have hpinged := mapIdx ho (f := fun index link =>
    if link.pingDue now && sent index then { link with pingedAt := some now, awaitingPong := true }
    else link) fun i link => by split <;> rfl
  exact hpinged.trans (dropLinks hpinged.orderly _ .remote)

end

end Sheds

theorem Orderly.of_grows {h' : Hub S} {K : Kinds S} (ho : h.Orderly)
    (hgrows : Grows K h.engine h'.engine) (hdistinct : h'.devices.Nodup)
    (hforeign : h.engine.device.address ∉ h'.devices) (hdevices : ∀ d ∈ h.devices, d ∈ h'.devices)
    (hrelation : ∀ r, K.relation r → OneEnd h.engine.device.address r ∧
      ∀ d, d ≠ h.engine.device.address → d ∉ h'.devices → r.concerns d = false)
    (hsource : ∀ d, K.source = some d → d ∈ h'.devices)
    (hrequest : ∀ destination commands, K.request destination commands →
      AsksServer h.engine.device.address destination commands ∧
        ∀ d, d ∉ h'.devices → destination.device ≠ some d) : h'.Orderly := by
  refine ⟨hdistinct, by rw [hgrows.address]; exact hforeign, ?_, fun d hne hd => ?_⟩
  · exact hgrows.paired ho.paired (fun r hr => (hrelation r hr).1)
      fun destination commands hr => (hrequest destination commands hr).1
  · rw [hgrows.address] at hne
    refine hgrows.clear (ho.clear d hne fun hmem => hd (hdevices d hmem))
      (fun r hr => (hrelation r hr).2 d hne hd) (fun heq => hd (hsource d heq))
      fun destination commands hr => (hrequest destination commands hr).2 d hd

def openingReads (S : Schema) : Kinds S where
  relation _ := False
  source := none
  request destination commands := destination.device = none ∧ requestedEnds commands = none

theorem grows_startDiscovery (e : Engine S) (now : Nat) :
    Grows (openingReads S) e (e.startDiscovery now).1 := by
  have hread : ∀ (e : Engine S) (source : FeatureAddress) (function : Function S.Other),
      requestedEnds [Cmd.read function] = none →
      Grows (openingReads S) e (e.read nodeManagementWithoutDevice source function now).1 :=
    fun e source function hends => Engine.grows_request (K := openingReads S) e source
      nodeManagementWithoutDevice .read false (Cmd.read function) now ⟨rfl, hends⟩
  exact (hread e _ _ rfl).trans (hread _ _ _ rfl)

theorem asksServer_of_none {address : AddressDevice} {destination : FeatureAddress}
    {commands : List (Cmd S)} (h : requestedEnds commands = none) :
    AsksServer address destination commands := by
  rintro b ⟨client, server, hends, -⟩
  simp [h] at hends

theorem adopt_orderly (ho : h.Orderly) (ski : Ski) (origin : Origin) (now : Nat) :
    (h.adopt ski origin now).1.Orderly := by
  unfold Hub.adopt
  dsimp only
  split
  · exact ho
  split
  · exact ho
  have hdevices : ∀ link : Link, link.device = none →
      boundDevices (h.links ++ [link]) = h.devices := by
    intro link hlink
    simp [boundDevices, devices, hlink]
  refine ho.of_grows (grows_startDiscovery h.engine now) ?_ ?_ ?_ (fun _ hr => hr.elim)
    (by simp [openingReads]) fun destination commands hr => ⟨asksServer_of_none hr.2, ?_⟩
  · change (boundDevices (h.links ++ [_])).Nodup
    rw [hdevices _ rfl]
    exact ho.distinct
  · change _ ∉ boundDevices (h.links ++ [_])
    rw [hdevices _ rfl]
    exact ho.foreign
  · intro d hd
    change d ∈ boundDevices (h.links ++ [_])
    rw [hdevices _ rfl]
    exact hd
  · intro d _
    simp [hr.1]

theorem engineTimeout_orderly (ho : h.Orderly) (now : Nat) : (h.engineTimeout now).Orderly :=
  ho.of_grows (h.engine.grows_handleTimeout now) (K := ⟨fun _ => False, none, fun _ _ => False⟩)
    ho.distinct ho.foreign (fun _ hd => hd) (fun _ hr => hr.elim) (by simp) fun _ _ hr => hr.elim

theorem bindLink_devices {h' : Hub S} {index : Nat} (ho : h.Orderly)
    (hindex : index < h.links.length) (hbind : h.bindLink index datagram = some h') :
    h'.devices.Nodup ∧ h.engine.device.address ∉ h'.devices ∧ (∀ d ∈ h.devices, d ∈ h'.devices) ∧
      ∀ d, sourceDevice datagram = some d → d ∈ h'.devices := by
  obtain ⟨link, hlink⟩ : ∃ link, h.links[index]? = some link := ⟨_, List.getElem?_eq_getElem hindex⟩
  simp only [bindLink] at hbind
  split at hbind
  case h_1 hsource =>
    cases hbind
    exact ⟨ho.distinct, ho.foreign, fun _ hd => hd, by simp [hsource]⟩
  case h_2 device hsource =>
    split at hbind
    case h_1 bound hbound =>
      split at hbind
      · simp at hbind
      case isFalse hsame =>
        cases hbind
        refine ⟨ho.distinct, ho.foreign, fun _ hd => hd, fun d hd => ?_⟩
        rw [hlink, Option.bind_some] at hbound
        have heq : bound = d := by
          rw [hsource] at hd
          cases hd
          simpa using hsame
        exact List.mem_filterMap.mpr ⟨link, List.mem_of_getElem? hlink, heq ▸ hbound⟩
    case h_2 hunbound =>
      split at hbind
      · simp at hbind
      case isFalse htaken =>
        cases hbind
        rw [hlink, Option.bind_some] at hunbound
        simp only [taken, Bool.or_eq_true, not_or, List.any_eq_true, not_exists, not_and] at htaken
        have hfresh : device ∉ h.devices := by
          intro hmem
          obtain ⟨other, hother, hdevice⟩ := List.mem_filterMap.mp hmem
          obtain ⟨i, hi⟩ := List.mem_iff_getElem?.mp hother
          refine htaken.2 (other, i) (List.mem_zipIdx_iff_getElem?.mpr hi) ?_
          by_cases heq : i = index
          · subst heq
            rw [hlink] at hi
            cases hi
            simp [hunbound] at hdevice
          · simp [heq, hdevice]
        have hown : h.engine.device.address ≠ device := by simpa using htaken.1
        have hlinks : (h.updateLink index fun link => { link with device := some device }).devices =
            boundDevices (h.links.take index) ++ device :: boundDevices (h.links.drop (index + 1)) := by
          simp only [devices, updateLink, List.modify_eq_take_cons_drop hindex]
          simp [boundDevices]
        have hold : h.devices =
            boundDevices (h.links.take index) ++ boundDevices (h.links.drop (index + 1)) := by
          have hsplit := congrArg boundDevices (take_cons_drop hlink)
          rw [devices, ← hsplit]
          simp [boundDevices, hunbound]
        have hdistinct := ho.distinct
        have hforeign := ho.foreign
        rw [hold] at hfresh hdistinct hforeign
        rw [hlinks, hold]
        refine ⟨List.nodup_middle.mpr (List.nodup_cons.mpr ⟨hfresh, hdistinct⟩), ?_, ?_, ?_⟩
        · simp only [List.mem_append, List.mem_cons] at hforeign ⊢
          tauto
        · intro d hd
          simp only [List.mem_append, List.mem_cons] at hd ⊢
          tauto
        · intro d hd
          rw [hsource] at hd
          cases hd
          simp

/-- A datagram that files nothing under a device other than its own: a call or a report says which
device it comes from, and a subscription asked for is one on this node. -/
structure Honest (e : Engine S) (datagram : Datagram S) : Prop where
  signed : Engine.Signed e datagram
  server : ∀ cmd call named server, datagram.commands = [cmd] →
    cmd.data = some ⟨.nodeManagementSubscriptionRequestCall, call⟩ →
    Engine.requestEnds call = some (named, server) →
    server.device = none ∨ server.device = some e.device.address

theorem server_of_resolve {device : LocalDevice S} {server : FeatureAddress}
    (h : (device.resolve server).isSome = true) :
    server.device = none ∨ server.device = some device.address := by
  obtain ⟨f, hf⟩ := Option.isSome_iff_exists.mp h
  have hany := (LocalDevice.resolve_eq_some.mp hf).1
  cases hdevice : server.device with
  | none => exact .inl rfl
  | some named =>
    rw [hdevice] at hany
    exact .inr (by simpa using hany)

/-- The relations that may come into being while these devices are connected. -/
def betweenThese (address : AddressDevice) (devices : List AddressDevice) (r : Relation) : Prop :=
  OneEnd address r ∧ ∀ d, d ≠ address → d ∉ devices → r.concerns d = false

theorem betweenThese_granted {address sender : AddressDevice} {devices : List AddressDevice}
    {id : UInt32} {client server : FeatureAddress} (hclient : client.device = some sender)
    (hsender : sender ∈ devices)
    (hserver : server.device = none ∨ server.device = some address) :
    betweenThese address devices (.granted id client server) := by
  refine ⟨by simpa [OneEnd, Relation.granted] using hserver, fun d hne hd => ?_⟩
  have hsender' : sender ≠ d := fun heq => hd (heq ▸ hsender)
  simp only [Relation.concerns, Relation.granted, hclient]
  cases hserver with
  | inl h => simp [h, hsender']
  | inr h => simp [h, hsender', hne.symm]

theorem betweenThese_recorded {devices : List AddressDevice} (ho : h.Orderly)
    (hdevices : ∀ d ∈ h.devices, d ∈ devices) {p : Pending S} (hp : p ∈ h.engine.pending)
    {b : Relation} (hb : Engine.RecordedFor p.datagram.commands b) :
    betweenThese h.engine.device.address devices b := by
  obtain ⟨hclient, hserver⟩ := ho.paired.requests p hp b hb
  obtain ⟨client, server, -, rfl⟩ := hb
  refine ⟨by simpa [OneEnd, Relation.recorded] using hclient, fun d hne hd => ?_⟩
  have hclear := (ho.clear d hne fun hmem => hd (hdevices d hmem)).pending p hp
  simp only [Relation.recorded] at hclient hserver
  simp only [Relation.concerns, Relation.recorded, hclient, hserver]
  simpa [goesTo, hne.symm] using hclear

theorem handleDatagram_orderly {h' : Hub S} (now : Nat) (ho : h.Orderly)
    (hhonest : Honest h.engine datagram) (hdistinct : h'.devices.Nodup)
    (hforeign : h.engine.device.address ∉ h'.devices) (hdevices : ∀ d ∈ h.devices, d ∈ h'.devices)
    (hsource : ∀ d, sourceDevice datagram = some d → d ∈ h'.devices)
    (hengine : h'.engine = (h.engine.handleDatagram datagram now).1) : h'.Orderly := by
  by_cases husable : ∀ d, Engine.originDevice datagram = some d → isUsableDeviceAddress d = true
  · have horigin : ∀ d, Engine.originDevice datagram = some d → d ∈ h'.devices := by
      intro d hd
      refine hsource d ?_
      have hfilter : sourceDevice datagram =
          (Engine.originDevice datagram).filter isUsableDeviceAddress := rfl
      rw [hfilter, hd]
      simp [Option.filter, husable d hd]
    let K : Kinds S := ⟨betweenThese h.engine.device.address h'.devices,
      Engine.originDevice datagram, fun _ _ => False⟩
    have hgrows : Grows K h.engine h'.engine := by
      rw [hengine]
      refine h.engine.grows_handleDatagram datagram now rfl hhonest.signed ?_ ?_
      · intro v cmd call named server client id hv hcall hcommand hcmd hends hclient
        obtain ⟨sender, hsender⟩ :=
          Option.isSome_iff_exists.mp (hhonest.signed v hv (.inl hcall))
        refine betweenThese_granted (clientOfCaller_sender hclient hsender)
          (horigin sender ((Engine.originDevice_of_takenUp hv).trans hsender)) ?_
        cases hcmd with
        | inl hbind => exact server_of_resolve hbind.2
        | inr hsubscribe => exact hhonest.server cmd call named server hcommand hsubscribe hends
      · exact fun p hp b hb => betweenThese_recorded ho hdevices hp hb
    exact ho.of_grows hgrows hdistinct hforeign hdevices (fun r hr => hr) horigin
      fun _ _ hr => hr.elim
  · -- nothing is filed under an address that cannot be keyed on
    push Not at husable
    obtain ⟨d, hd, hunusable⟩ := husable
    obtain ⟨source, horigin, hsource⟩ := Option.bind_eq_some_iff.mp hd
    have huntrusted : h.engine.sourceTrusted source = false := by
      simp [Engine.sourceTrusted, hsource, hunusable]
    rw [Engine.handleDatagram_untrusted horigin huntrusted] at hengine
    refine ho.of_grows (K := ⟨fun _ => False, none, fun _ _ => False⟩) ?_ hdistinct hforeign hdevices
      (fun _ hr => hr.elim) (by simp) fun _ _ hr => hr.elim
    rw [hengine]
    exact .refl _ _

theorem subscribeToDiscovery_orderly {h' : Hub S} (ho : h.Orderly) {device : AddressDevice}
    (hmem : device ∈ h.devices) (now : Nat) (hdevices : h'.devices = h.devices)
    (hengine : h'.engine = (h.engine.subscribeToDiscovery device now).1) : h'.Orderly := by
  let K : Kinds S := ⟨fun _ => False, none, fun destination commands =>
    AsksServer h.engine.device.address destination commands ∧
      ∀ d, d ∉ h.devices → destination.device ≠ some d⟩
  have hgrows : Grows K h.engine h'.engine := by
    rw [hengine]
    refine h.engine.grows_request _ _ _ _ _ now ⟨?_, fun d hd heq => ?_⟩
    · rintro b ⟨client, server, hends, rfl⟩
      simp only [requestedEnds, Engine.requestEnds, Cmd.withData, List.head?_cons,
        Option.bind_some, Engine.relationRequest] at hends
      cases hends
      exact ⟨rfl, rfl⟩
    · have hsame : device = d := Option.some.inj heq
      exact hd (hsame ▸ hmem)
  exact ho.of_grows hgrows (hdevices ▸ ho.distinct) (hdevices ▸ ho.foreign)
    (fun d hd => hdevices ▸ hd) (fun _ hr => hr.elim) (by simp [K])
    fun _ _ hr => ⟨hr.1, fun d hd => hr.2 d (hdevices ▸ hd)⟩

theorem announce_devices (h : Hub S) (index now : Nat) : (h.announce index now).devices = h.devices := by
  unfold announce
  split
  · rfl
  split
  · rfl
  split
  · exact boundDevices_congr (map_device_modify h.links index fun _ => rfl)
  · rfl

theorem announce_orderly (ho : h.Orderly) (index now : Nat) :
    (h.announce index now).Orderly := by
  rcases h.announce_engine index now with hsame | ⟨device, hdevice, -, hsubscribed⟩
  · exact (Sheds.of_devices ho (h.announce_devices index now) (by rw [hsame]) (by rw [hsame])
      (by rw [hsame]) (by rw [hsame]) (by rw [hsame])).orderly
  · obtain ⟨link, hlink, hdevice⟩ := Option.bind_eq_some_iff.mp hdevice
    exact subscribeToDiscovery_orderly ho
      (List.mem_filterMap.mpr ⟨link, List.mem_of_getElem? hlink, hdevice⟩) now
      (h.announce_devices index now) hsubscribed

theorem settleBootstrap_devices (h : Hub S) (index : Nat) (datagram : Datagram S) :
    (h.settleBootstrap index datagram).devices = h.devices := by
  unfold settleBootstrap
  split
  · rfl
  · exact boundDevices_congr (map_device_modify h.links index fun _ => rfl)

theorem receive_orderly (ho : h.Orderly) {index : Nat} (hindex : index < h.links.length)
    (hhonest : Honest h.engine datagram) (now : Nat) : (h.receive index datagram now).1 = h ∨
      (h.receive index datagram now).2 = none ∧ (h.receive index datagram now).1.Orderly ∧
        (h.receive index datagram now).1.links.length = h.links.length := by
  simp only [receive]
  cases hbind : h.bindLink index datagram with
  | none => exact .inl rfl
  | some h₁ =>
    obtain ⟨hdistinct, hforeign, hdevices, hsource⟩ := bindLink_devices ho hindex hbind
    have hengine := (bindLink_eq_some hbind).1
    rw [← settleBootstrap_devices h₁ index datagram] at hdistinct hforeign hdevices hsource
    refine .inr ⟨rfl, announce_orderly ?_ index now, ?_⟩
    · have hhandled : (h₁.settleBootstrap index datagram).engine = h.engine := by
        simp only [settleBootstrap_engine, hengine]
      exact handleDatagram_orderly now ho hhonest hdistinct hforeign hdevices hsource
        (by simp only [hhandled])
    · simp only [announce_length, settleBootstrap_length, bindLink_length hbind]

/-- What a step does: it lets go of connections, or it leaves them all in the table. -/
def Steady (h h' : Hub S) : Prop :=
  Sheds h h' ∨ h'.Orderly ∧ h.links.length ≤ h'.links.length

theorem frame_steady (ho : h.Orderly) (index : Nat) (read : Frame S) (now : Nat)
    (hhonest : ∀ datagram, read = .data datagram → Honest h.engine datagram) :
    Steady h (h.frame index read now) := by
  unfold frame
  split
  · exact .inl (.refl ho)
  case isFalse hindex =>
    have hseen : Sheds h (h.updateLink index fun link =>
        { link with lastSeen := now, pingedAt := none }) := .updateLink ho index fun _ => rfl
    have hlen := h.updateLink_length index fun link => { link with lastSeen := now, pingedAt := none }
    cases read with
    | unreadable => exact .inl (.dropLink ho index .remote)
    | refused | ended => exact .inl (hseen.trans (.dropLink hseen.orderly index .remote))
    | unparsed => exact .inl hseen
    | data datagram =>
      dsimp only
      have hin : index < (h.updateLink index fun link =>
          { link with lastSeen := now, pingedAt := none }).links.length := by omega
      have hreceived := receive_orderly hseen.orderly hin (hhonest datagram rfl) now
      rw [hlen] at hreceived
      cases hpair : (h.updateLink index fun link =>
          { link with lastSeen := now, pingedAt := none }).receive index datagram now with
      | mk h' reason =>
        rw [hpair] at hreceived
        dsimp only at hreceived ⊢
        rcases hreceived with rfl | ⟨rfl, horderly, hlength⟩
        · cases reason with
          | none => exact .inl hseen
          | some reason => exact .inl (hseen.trans (.dropLink hseen.orderly index reason))
        · exact .inr ⟨horderly, hlength.ge⟩

def closing (h : Hub S) (now : Nat) : Option (Ski × Hub S) :=
  match h.duplicates with
  | [] => none
  | duplicate :: _ =>
    match h.resolution duplicate now with
    | .keepNewest => some (duplicate.ski, h)
    | .closeAfterProbe =>
      some (duplicate.ski, h.dropLinks
        (h.positions fun link _ => link.ski == duplicate.ski && link.awaitingPong) .unresponsive)
    | .settled | .wait _ | .probe => none

def giveWay (h : Hub S) (ski : Ski) : List Link :=
  match h.newest ski with
  | none => []
  | some keep => (h.links.zipIdx.filter (doomed ski keep)).map Prod.fst

theorem closeDuplicates_sheds (ho : h.Orderly) (ski : Ski)
    (hunbound : ∀ link ∈ h.giveWay ski, link.device = none) : Sheds h (h.closeDuplicates ski) := by
  refine .closeDuplicates ho ski fun keep hkeep entry hentry hdoomed => ?_
  refine hunbound entry.1 ?_
  simp only [giveWay, hkeep]
  exact List.mem_map.mpr ⟨entry, List.mem_filter.mpr ⟨hentry, hdoomed⟩, rfl⟩

theorem arbitrate_sheds (ho : h.Orderly) (now : Nat) (sent : Nat → Bool)
    (hunbound : ∀ ski g, h.closing now = some (ski, g) → ∀ link ∈ g.giveWay ski, link.device = none) :
    Sheds h (h.arbitrate now sent) := by
  cases hd : h.duplicates with
  | nil =>
    have hsame : h.arbitrate now sent = h := by simp only [arbitrate, hd]
    rw [hsame]
    exact .refl ho
  | cons duplicate rest =>
    simp only [closing, hd] at hunbound
    cases hr : h.resolution duplicate now with
    | settled =>
      rw [arbitrate_settled hd hr]
      exact .of_devices ho rfl rfl rfl rfl rfl rfl
    | wait until_ =>
      rw [arbitrate_wait hd hr]
      exact .of_devices ho rfl rfl rfl rfl rfl rfl
    | keepNewest =>
      rw [arbitrate_keepNewest hd hr]
      exact closeDuplicates_sheds ho duplicate.ski (hunbound duplicate.ski h (by simp [hr]))
    | closeAfterProbe =>
      rw [arbitrate_closeAfterProbe hd hr]
      have hdropped := Sheds.dropLinks ho (h.positions fun link _ =>
        link.ski == duplicate.ski && link.awaitingPong) .unresponsive
      exact hdropped.trans (closeDuplicates_sheds hdropped.orderly duplicate.ski
        (hunbound duplicate.ski _ (by simp only [hr])))
    | probe =>
      have hpinged : ∀ duplicates, Sheds h { h with
          links := h.links.mapIdx fun index link =>
            if link.ski == duplicate.ski then
              if sent index then { (link.keepalive now).1 with awaitingPong := true, probedAt := some now }
              else (link.keepalive now).1
            else link
          duplicates := duplicates } := by
        intro duplicates
        have hmapped := Sheds.mapIdx ho (f := fun index link =>
          if link.ski == duplicate.ski then
            if sent index then { (link.keepalive now).1 with awaitingPong := true, probedAt := some now }
            else (link.keepalive now).1
          else link) (by
            intro i link
            have hkeep : (link.keepalive now).1.device = link.device := by
              simp only [Link.keepalive]
              split <;> rfl
            split
            · split
              · exact hkeep
              · exact hkeep
            · rfl)
        exact hmapped.trans (.of_devices hmapped.orderly rfl rfl rfl rfl rfl rfl)
      simp only [resolution, linksTo] at hr
      simp only [arbitrate, hd, hr]
      have hdropped := (hpinged _).trans (.dropLinks (hpinged (modifyFirst
        (fun d => d.ski == duplicate.ski) (fun d _ => { d with probed := true })
        (duplicate :: rest))).orderly
        (h.positions fun link index => link.ski == duplicate.ski && !sent index) .remote)
      exact hdropped.trans (.of_devices hdropped.orderly rfl rfl rfl rfl rfl rfl)

/-- What a step must not do: let go of a bound connection in one of the ways that leave the
engine as it is, or take in what files state under another device. -/
def Lets (h : Hub S) : HubOp S → Prop
  | .frame _ read _ => ∀ datagram, read = .data datagram → Honest h.engine datagram
  | .arbitrate now _ =>
    ∀ ski g, h.closing now = some (ski, g) → ∀ link ∈ g.giveWay ski, link.device = none
  | .disconnect ski => ∀ link ∈ h.linksTo ski, link.device = none
  | .shutdown => h.devices = []
  | _ => True

theorem perform_steady (ho : h.Orderly) (op : HubOp S) (hop : h.Lets op) :
    Steady h (h.perform op) := by
  cases op with
  | adopt ski origin now =>
    refine .inr ⟨adopt_orderly ho ski origin now, ?_⟩
    simp only [perform, adopt]
    split
    · exact le_rfl
    split
    · exact le_rfl
    · simp [emit]
  | frame index read now => exact frame_steady ho index read now hop
  | transmit sent => exact .inl (.transmit ho sent)
  | resume => exact .inl (.resume ho)
  | engineTimeout now => exact .inr ⟨engineTimeout_orderly ho now, le_rfl⟩
  | expireLinks now => exact .inl (.expireLinks ho now)
  | keepalive now sent => exact .inl (.keepalive ho now sent)
  | pong index => exact .inl (.updateLink ho index fun _ => rfl)
  | arbitrate now sent => exact .inl (arbitrate_sheds ho now sent hop)
  | close ski => exact .inl (.dropLinks ho _ .local_)
  | disconnect ski => exact .inl (.disconnect ho ski hop)
  | shutdown => exact .inl (.shutdown ho hop)
  | interrupt _ | wake _ | setMaxConnections _ | takeEvent | takeSpineEvent =>
    exact .inl (.of_devices ho rfl rfl rfl rfl rfl rfl)

theorem Steady.orderly {h' : Hub S} (hs : Steady h h') : h'.Orderly :=
  hs.elim Sheds.orderly And.left

end Hub

/-- An engine that has not been connected to anything. -/
structure Unused (e : Engine S) : Prop where
  bindings : e.relations.bindings = []
  subscriptions : e.relations.subscriptions = []
  peers : e.peers = []
  pending : e.pending = []
  deferred : e.deferred = []

theorem Unused.orderly {engine : Engine S} (h : Unused engine) (ski : Ski) :
    (Hub.new ski engine).Orderly where
  distinct := List.nodup_nil
  foreign := List.not_mem_nil
  paired := by
    refine ⟨?_, ?_, ?_⟩
    · simp [Hub.new, h.bindings]
    · simp [Hub.new, h.subscriptions]
    · simp [Hub.new, h.pending]
  clear device _ _ := by
    refine ⟨?_, ?_, ?_, ?_, ?_⟩
    · simp [Hub.new, h.bindings]
    · simp [Hub.new, h.subscriptions]
    · simp [Hub.new, Engine.tracks, h.peers]
    · simp [Hub.new, h.pending]
    · simp [Hub.new, h.deferred]

/-- The engine holds nothing for a device that no connection is bound to. -/
def Hub.Cleared (h : Hub S) : Prop :=
  ∀ device, device ≠ h.engine.device.address → (∀ link ∈ h.links, link.device ≠ some device) →
    Clear device h.engine

/-- Losing a connection has left the devices that are still connected alone. -/
def Hub.Spared (h h' : Hub S) : Prop :=
  h'.links.length < h.links.length →
    ∀ link ∈ h'.links, ∀ device, link.device = some device → SameSession device h.engine h'.engine

theorem Hub.Orderly.cleared (ho : h.Orderly) : h.Cleared := by
  intro device hne hunbound
  refine ho.clear device hne fun hmem => ?_
  obtain ⟨link, hlink, hdevice⟩ := List.mem_filterMap.mp hmem
  exact hunbound link hlink hdevice

/-- In every run of the hub whose steps let go of bound connections by dropping them, and take in
datagrams that file nothing under another device, the engine holds nothing for a device that is not
connected, and losing a connection leaves the devices that are connected alone. -/
theorem connection_loss_clears_session (ski : Ski) (engine : Engine S) (hunused : Unused engine)
    (ops : List (HubOp S)) (hrun : Hub.machine.Admits Hub.Lets (Hub.new ski engine) ops) :
    (∀ before, before <+: ops → (Hub.machine.run (Hub.new ski engine) before).Cleared) ∧
      ∀ before op, before ++ [op] <+: ops →
        (Hub.machine.run (Hub.new ski engine) before).Spared
          (Hub.machine.run (Hub.new ski engine) (before ++ [op])) := by
  have horderly : ∀ before, before <+: ops →
      (Hub.machine.run (Hub.new ski engine) before).Orderly := by
    intro before hprefix
    exact Hub.machine.run_invariant Hub.Lets Hub.Orderly
      (fun h op ho hop => (Hub.perform_steady ho op hop).orderly) before _ (hunused.orderly ski)
      (Hub.machine.admits_prefix hrun hprefix)
  refine ⟨fun before hprefix => (horderly before hprefix).cleared, ?_⟩
  intro before op hprefix hlost link hlink device hdevice
  have hadmits := Hub.machine.admits_prefix hrun hprefix
  rw [Hub.machine.admits_append] at hadmits
  have ho := horderly before ((List.prefix_append before [op]).trans hprefix)
  have hmem : device ∈ (Hub.machine.run (Hub.new ski engine) (before ++ [op])).devices :=
    List.mem_filterMap.mpr ⟨link, hlink, hdevice⟩
  rw [Hub.machine.run_append] at hlost hmem ⊢
  cases Hub.perform_steady ho op hadmits.2.1 with
  | inl hsheds => exact (hsheds.remain device hmem).2
  | inr hkept => exact absurd hkept.2 (Nat.not_le.mpr hlost)

def wallbox : AddressDevice := "d:_i:3_Wallbox"

def wallboxDatagram : Datagram Schema.limitsOnly :=
  ⟨some (Engine.header (nodeManagement wallbox) (nodeManagement "d:_i:1_Gateway") 1 .notify
    false none), none⟩

def twoPeers : List (HubOp Schema.limitsOnly) :=
  [.adopt 2 .accepted 0, .frame 0 (.data (heatPumpDatagram 1)) 0, .adopt 3 .accepted 0,
    .frame 1 (.data wallboxDatagram) 0]

theorem honest_of_empty (e : Engine S)
    (horigin : (Engine.originDevice datagram).isSome = true) (hempty : datagram.commands = []) :
    Hub.Honest e datagram where
  signed v hv _ := by rwa [← Engine.originDevice_of_takenUp hv]
  server cmd call named server hcommand := by simp [hempty] at hcommand

theorem unused_gateway : Unused gatewayEngine := ⟨rfl, rfl, rfl, rfl, rfl⟩

theorem connection_loss_clears_session_two_peers :
    Hub.machine.Admits Hub.Lets smallGateway (twoPeers ++ [.close 2]) ∧
      (Hub.machine.run smallGateway (twoPeers ++ [.close 2])).Cleared ∧
      (Hub.machine.run smallGateway twoPeers).Spared
        (Hub.machine.run smallGateway (twoPeers ++ [.close 2])) ∧
      (Hub.machine.run smallGateway (twoPeers ++ [.close 2])).devices = [wallbox] := by
  have hadmits : Hub.machine.Admits Hub.Lets smallGateway (twoPeers ++ [.close 2]) := by
    refine ⟨trivial, fun _ hdata => ?_, trivial, fun _ hdata => ?_, trivial, trivial⟩
    · cases hdata
      exact honest_of_empty _ rfl rfl
    · cases hdata
      exact honest_of_empty _ rfl rfl
  have hkey := connection_loss_clears_session 1 gatewayEngine unused_gateway _ hadmits
  exact ⟨hadmits, hkey.1 _ (List.prefix_refl _), hkey.2 twoPeers _ (List.prefix_refl _),
    by decide +kernel⟩

/-- The application disconnects the heat pump, and the engine still holds its record. -/
theorem disconnect_keeps_peer_record :
    let h := Hub.machine.run smallGateway
      [.adopt 2 .accepted 0, .frame 0 (.data (heatPumpDatagram 1)) 0, .disconnect 2]
    h.links = [] ∧ h.engine.tracks heatPump = true ∧ ¬ h.Cleared := by
  refine ⟨by decide +kernel, by decide +kernel, fun hcleared => ?_⟩
  have hclear := hcleared heatPump (by decide +kernel) (by decide +kernel)
  have htracks := hclear.record
  revert htracks
  decide +kernel

end Eebus.Runtime
