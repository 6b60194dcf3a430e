import Mathlib.Data.List.Flatten
import Eebus.Runtime.PongTime
import Eebus.Spine.Retransmission

/-! The opening reads of a connection. They carry no device, so the hub finds their connection, and
knows their answers, by the counters it wrote down when it sent them; the engine sends a read that
is not answered again under a counter of its own. -/

namespace Eebus.Runtime

open Eebus.Library Eebus.Model Eebus.Spine
open Eebus.Ship (Ski)

variable {S : Schema}

/-- What happens to a hub: a turn of its loop, or whatever the application does to the engine. -/
inductive NodeOp (S : Schema)
  | hub (op : HubOp S)
  | engine (op : EngineOp S)

variable {h : Hub S} {past : List (MsgCounter × Datagram S)}

namespace Hub

def performNode (h : Hub S) : NodeOp S → Hub S
  | .hub op => h.perform op
  | .engine op => { h with engine := h.engine.perform op }

def nodeMachine : Machine (Hub S) (NodeOp S) Unit where
  step h op := (h.performNode op, ())

def unanswered (h : Hub S) : List MsgCounter := h.links.flatMap Link.bootstrap

def queued (h : Hub S) (op : NodeOp S) : List (Datagram S) :=
  (h.performNode op).engine.outbox.drop h.engine.outbox.length

/-- The counters do not wrap in this step. -/
def Unwrapped (h : Hub S) (op : NodeOp S) : Prop :=
  h.engine.counters.toNat + (h.queued op).length < 2 ^ 64

instance (h : Hub S) (op : NodeOp S) : Decidable (h.Unwrapped op) :=
  inferInstanceAs (Decidable (_ < _))

/-- What a step sends for the opening reads, each message under its read: the reads of a new
connection, and whatever the timer sends again. -/
def transmitted (h : Hub S) : NodeOp S → List (MsgCounter × Datagram S)
  | .hub (.adopt ski origin now) =>
    if (h.adopt ski origin now).2 then
      let (_, first, second) := h.engine.startDiscovery now
      [first, second].zip (h.queued (.hub (.adopt ski origin now)))
    else []
  | .hub (.engineTimeout now) | .engine (.handleTimeout now) =>
    h.engine.transmitted (.handleTimeout now)
  | _ => []

def sendsAgain (p : Pending S) : NodeOp S → Bool
  | .hub (.engineTimeout now) | .engine (.handleTimeout now) => p.resends now
  | _ => false

/-- No opening read goes out again while its connection waits for the answer. -/
def SparesOpening (h : Hub S) (op : NodeOp S) : Prop :=
  ∀ p ∈ h.engine.pending, sendsAgain p op = true → p.request ∉ h.unanswered

instance (h : Hub S) (op : NodeOp S) : Decidable (h.SparesOpening op) :=
  inferInstanceAs (Decidable (∀ p ∈ h.engine.pending, _))

/-- Whatever is sent for an opening read goes to the connection that waits for the answer, and an
answer to it that arrives there settles that half; once both halves are settled and the peer's
device is known, the peer is reported. -/
def Survives (h : Hub S) (past : List (MsgCounter × Datagram S)) : Prop :=
  ∀ index link read message, h.links[index]? = some link → read ∈ link.bootstrap →
    (read, message) ∈ past →
    h.route message = some index ∧
      ∀ answer now h', answer.header.bind Header.msgCounterReference = Datagram.counter message →
        h.receive index answer now = (h', none) →
        ∃ link', h'.links[index]? = some link' ∧ read ∉ link'.bootstrap ∧
          (link'.bootstrap = [] → ∀ device, link'.device = some device → link.announced = false →
            .peerDiscovered link.ski device ∈ h'.pending)

/-- Requests are made and let go, and connections close or get on with their opening reads. -/
structure Onward (h h' : Hub S) : Prop where
  engine : Proceeds h.engine h'.engine
  unanswered : h'.unanswered.Sublist h.unanswered

namespace Onward

variable {h h' h'' : Hub S}

theorem trans (a : Onward h h') (b : Onward h' h'') : Onward h h'' :=
  ⟨a.engine.trans b.engine, b.unanswered.trans a.unanswered⟩

theorem of_unanswered (hr : h.engine.RequestsOnly) (hengine : h'.engine = h.engine)
    (hunanswered : h'.unanswered.Sublist h.unanswered) : Onward h h' :=
  ⟨by rw [hengine]; exact .refl hr, hunanswered⟩

theorem of_links (hr : h.engine.RequestsOnly) (hengine : h'.engine = h.engine)
    (hlinks : h'.links.Sublist h.links) : Onward h h' :=
  of_unanswered hr hengine (hlinks.flatMap Link.bootstrap)

theorem refl (hr : h.engine.RequestsOnly) : Onward h h := of_links hr rfl (List.Sublist.refl _)

theorem of_bootstraps (hr : h.engine.RequestsOnly) (hengine : h'.engine = h.engine)
    (hbootstraps : h'.links.map Link.bootstrap = h.links.map Link.bootstrap) : Onward h h' := by
  refine of_unanswered hr hengine ?_
  rw [Hub.unanswered, Hub.unanswered, List.flatMap_def, List.flatMap_def, hbootstraps]

theorem flatMap_modify_sublist {g : Link → Link} (hg : ∀ link, (g link).bootstrap.Sublist link.bootstrap)
    (links : List Link) (index : Nat) :
    ((links.modify index g).flatMap Link.bootstrap).Sublist (links.flatMap Link.bootstrap) := by
  induction links generalizing index with
  | nil => simp
  | cons link rest ih =>
    cases index with
    | zero => simpa using (hg link).append (List.Sublist.refl (rest.flatMap Link.bootstrap))
    | succ index => simpa using (ih index).append_left link.bootstrap

section

variable (hr : h.engine.RequestsOnly)

include hr

theorem updateLink (index : Nat) {g : Link → Link}
    (hg : ∀ link, (g link).bootstrap.Sublist link.bootstrap) : Onward h (h.updateLink index g) :=
  of_unanswered hr rfl (flatMap_modify_sublist hg h.links index)

theorem mapIdx {f : Nat → Link → Link}
    (hf : ∀ i link, (f i link).bootstrap = link.bootstrap) (duplicates : List Duplicate) :
    Onward h { h with links := h.links.mapIdx f, duplicates := duplicates } := by
  refine of_bootstraps hr rfl (List.ext_getElem? fun i => ?_)
  simp only [List.getElem?_map, List.getElem?_mapIdx, Option.map_map]
  congr 1
  funext link
  exact hf i link

theorem dropLink (index : Nat) (reason : Disconnect) : Onward h (h.dropLink index reason) := by
  cases hlink : h.links[index]? with
  | none =>
    have hsame : h.dropLink index reason = h := by simp [Hub.dropLink, hlink]
    rw [hsame]
    exact refl hr
  | some link =>
    have hlinks : (h.dropLink index reason).links.Sublist h.links := by
      rw [dropLink_links]
      exact List.eraseIdx_sublist h.links index
    refine ⟨?_, hlinks.flatMap Link.bootstrap⟩
    simp only [Hub.dropLink, hlink, forgetPeerState]
    cases link.device with
    | none =>
      dsimp only
      split <;> exact .refl hr
    | some device =>
      have hremoved : Proceeds h.engine (h.engine.removePeer device) :=
        Proceeds.perform hr (.removePeer device) (by simp) (by simp)
      dsimp only
      split <;> exact hremoved

theorem dropLinks (indices : List Nat) (reason : Disconnect) :
    Onward h (h.dropLinks indices reason) := by
  induction indices generalizing h with
  | nil => exact refl hr
  | cons index rest ih =>
    have hfirst := dropLink hr index reason
    exact hfirst.trans (ih hfirst.engine.requests)

theorem closeDuplicates (ski : Ski) : Onward h (h.closeDuplicates ski) := by
  unfold Hub.closeDuplicates
  split
  · exact of_links hr rfl (List.Sublist.refl _)
  case h_2 keep _ =>
    refine of_links hr rfl ?_
    have hkept := (List.filter_sublist (l := h.links.zipIdx)
      (p := fun entry => !doomed ski keep entry)).map Prod.fst
    rwa [List.zipIdx_map_fst] at hkept

theorem settleBootstrap (index : Nat) (datagram : Datagram S) :
    Onward h (h.settleBootstrap index datagram) := by
  unfold Hub.settleBootstrap
  split
  · exact refl hr
  · exact updateLink hr index fun _ => List.filter_sublist

theorem announce (index now : Nat) : Onward h (h.announce index now) := by
  unfold Hub.announce
  repeat' split
  · exact refl hr
  · exact refl hr
  case h_2.isTrue link _ device _ _ =>
    have hmarked := updateLink hr index (g := fun link => { link with announced := true })
      fun _ => List.Sublist.refl _
    refine ⟨?_, hmarked.unanswered⟩
    exact Proceeds.perform hr (.requestSubscription (nodeManagement h.engine.device.address)
      (nodeManagement device) now) nofun nofun
  · exact refl hr

theorem bindLink {index : Nat} {datagram : Datagram S}
    (hbind : h.bindLink index datagram = some h') : Onward h h' := by
  unfold Hub.bindLink at hbind
  repeat' split at hbind
  · cases hbind
    exact refl hr
  · simp at hbind
  · cases hbind
    exact refl hr
  · simp at hbind
  · cases hbind
    exact updateLink hr index fun _ => List.Sublist.refl _

theorem receive (index : Nat) (datagram : Datagram S) (now : Nat) :
    Onward h (h.receive index datagram now).1 := by
  unfold Hub.receive
  split
  · exact refl hr
  case h_2 g hbind =>
    have hbound := bindLink hr hbind
    have hsettled := settleBootstrap hbound.engine.requests index datagram
    have hengine : Onward (g.settleBootstrap index datagram) { g.settleBootstrap index datagram with
        engine := ((g.settleBootstrap index datagram).engine.handleDatagram datagram now).1 } :=
      ⟨Proceeds.perform hsettled.engine.requests (.handleDatagram datagram now) nofun nofun,
        List.Sublist.refl _⟩
    exact hbound.trans (hsettled.trans (hengine.trans (announce hengine.engine.requests index now)))

theorem frame (index : Nat) (read : Hub.Frame S) (now : Nat) :
    Onward h (h.frame index read now) := by
  have hseen := updateLink hr index
    (g := fun link => { link with lastSeen := now, pingedAt := none }) fun _ => List.Sublist.refl _
  unfold Hub.frame
  split
  · exact refl hr
  · cases read with
    | unreadable => exact dropLink hr index .remote
    | data datagram =>
      have hreceived := hseen.trans (receive hseen.engine.requests index datagram now)
      dsimp only
      split
      case h_1 g reason hreceive =>
        rw [hreceive] at hreceived
        exact hreceived.trans (dropLink hreceived.engine.requests index reason)
      case h_2 g hreceive =>
        rw [hreceive] at hreceived
        exact hreceived
    | unparsed => exact hseen
    | refused | ended => exact hseen.trans (dropLink hseen.engine.requests index .remote)

theorem resume : Onward h h.resume := by
  unfold Hub.resume
  split
  · exact refl hr
  · have hcleared : Onward h { h with writing := none } := of_links hr rfl (List.Sublist.refl _)
    dsimp only
    split
    · exact hcleared.trans (dropLink hcleared.engine.requests _ .interruptedWrite)
    · exact hcleared

end

theorem bootstrap_keepalive (link : Link) (now : Nat) :
    (link.keepalive now).1.bootstrap = link.bootstrap := by
  unfold Link.keepalive
  dsimp only
  split <;> rfl

theorem expireLinks (hr : h.engine.RequestsOnly) (now : Nat) : Onward h (h.expireLinks now) := by
  have hchecked : Onward h { h with links := h.links.map fun link => (link.keepalive now).1 } := by
    refine of_bootstraps hr rfl ?_
    rw [List.map_map]
    exact List.map_congr_left fun link _ => bootstrap_keepalive link now
  have hdropped := hchecked.trans (dropLinks hchecked.engine.requests
    (h.positions fun link _ => (link.keepalive now).2 == .dead) .unresponsive)
  unfold Hub.expireLinks
  dsimp only
  split
  · exact hdropped.trans (of_links hdropped.engine.requests rfl (List.Sublist.refl _))
  · exact hdropped

theorem keepalive (hr : h.engine.RequestsOnly) (now : Nat) (sent : Nat → Bool) :
    Onward h (h.keepalive now sent) := by
  have hpinged := mapIdx hr (f := fun index link =>
    if link.pingDue now && sent index then { link with pingedAt := some now, awaitingPong := true }
    else link) (fun i link => by split <;> rfl) h.duplicates
  exact hpinged.trans (dropLinks hpinged.engine.requests _ .remote)

theorem arbitrate (hr : h.engine.RequestsOnly) (now : Nat) (sent : Nat → Bool) :
    Onward h (h.arbitrate now sent) := by
  cases hd : h.duplicates with
  | nil =>
    have hsame : h.arbitrate now sent = h := by simp [Hub.arbitrate, hd]
    rw [hsame]
    exact refl hr
  | cons duplicate rest =>
    cases hresolution : h.resolution duplicate now with
    | settled =>
      rw [arbitrate_settled hd hresolution]
      exact of_links hr rfl (List.Sublist.refl _)
    | keepNewest =>
      rw [arbitrate_keepNewest hd hresolution]
      exact closeDuplicates hr duplicate.ski
    | wait until_ =>
      rw [arbitrate_wait hd hresolution]
      exact of_links hr rfl (List.Sublist.refl _)
    | probe =>
      rw [arbitrate_probe hd hresolution]
      have hprobed := mapIdx hr (f := probed duplicate.ski now sent) (fun i link => by
        unfold probed
        split
        · dsimp only
          split <;> exact bootstrap_keepalive link now
        · rfl) (h.markProbed duplicate.ski)
      have hdropped := hprobed.trans (dropLinks hprobed.engine.requests
        (h.positions fun link index => link.ski == duplicate.ski && !sent index) .remote)
      exact hdropped.trans (of_links hdropped.engine.requests rfl (List.Sublist.refl _))
    | closeAfterProbe =>
      rw [arbitrate_closeAfterProbe hd hresolution]
      have hdropped := dropLinks hr (h.positions fun link _ =>
        link.ski == duplicate.ski && link.awaitingPong) .unresponsive
      exact hdropped.trans (closeDuplicates hdropped.engine.requests duplicate.ski)

end Onward

theorem onward_perform (hr : h.engine.RequestsOnly) (op : HubOp S)
    (hadopt : ∀ ski origin now, op ≠ .adopt ski origin now)
    (htimer : ∀ now, op ≠ .engineTimeout now) (htransmit : ∀ sent, op ≠ .transmit sent) :
    Onward h (h.perform op) := by
  cases op with
  | adopt ski origin now => exact absurd rfl (hadopt ski origin now)
  | engineTimeout now => exact absurd rfl (htimer now)
  | transmit sent => exact absurd rfl (htransmit sent)
  | frame index read now => exact .frame hr index read now
  | resume => exact .resume hr
  | expireLinks now => exact .expireLinks hr now
  | keepalive now sent => exact .keepalive hr now sent
  | pong index => exact .updateLink hr index fun _ => List.Sublist.refl _
  | arbitrate now sent => exact .arbitrate hr now sent
  | close ski => exact .dropLinks hr _ .local_
  | disconnect ski => exact .of_links hr rfl List.filter_sublist
  | shutdown => exact .of_links hr rfl (List.nil_sublist _)
  | interrupt _ | wake _ | setMaxConnections _ | takeEvent =>
    exact .of_links hr rfl (List.Sublist.refl _)
  | takeSpineEvent => exact ⟨.of_same hr (.refl _) rfl, List.Sublist.refl _⟩

def Unaddressed (message : Datagram S) : Prop :=
  ∀ destination, Datagram.destination message = some destination → destination.device = none

/-- What is known of the opening reads: no two connections wait under one counter, every counter in
use has been given out, and what was sent for a read that is still waited for is that read, or goes
by a counter that no connection waits under. -/
structure Booked (h : Hub S) (past : List (MsgCounter × Datagram S)) : Prop where
  requests : h.engine.RequestsOnly
  distinct : h.unanswered.Nodup
  unanswered : ∀ read ∈ h.unanswered, read < h.engine.counters
  pending : ∀ p ∈ h.engine.pending, p.request < h.engine.counters ∧
    (p.request ∈ h.unanswered → Unaddressed p.datagram)
  past : ∀ read message, (read, message) ∈ past → read < h.engine.counters ∧
    ∃ counter < h.engine.counters, Datagram.counter message = some counter ∧
      (read ∈ h.unanswered →
        Unaddressed message ∧ (counter = read ∨ counter ∉ h.unanswered))

theorem adopt_cases (h : Hub S) (ski : Ski) (origin : Origin) (now : Nat) :
    h.adopt ski origin now = (h, false) ∨
      (h.adopt ski origin now).2 = true ∧
        (h.adopt ski origin now).1.engine = (h.engine.startDiscovery now).1 ∧
        (h.adopt ski origin now).1.unanswered = h.unanswered ++
          [(h.engine.startDiscovery now).2.1, (h.engine.startDiscovery now).2.2] := by
  unfold Hub.adopt
  dsimp only
  split
  · exact .inl rfl
  split
  · exact .inl rfl
  · exact .inr ⟨rfl, rfl, List.flatMap_append⟩

theorem startDiscovery_sends (e : Engine S) (now : Nat) :
    (e.startDiscovery now).2 = (e.counters, nextMsgCounter e.counters) ∧
      (∃ first second, (e.startDiscovery now).1.outbox = e.outbox ++ [first, second] ∧
        (Datagram.counter first = some e.counters ∧ Unaddressed first) ∧
        Datagram.counter second = some (nextMsgCounter e.counters) ∧ Unaddressed second) ∧
      ∀ p ∈ (e.startDiscovery now).1.pending, p ∈ e.pending ∨ Unaddressed p.datagram := by
  have hopening : ∀ (source : FeatureAddress) (counter : MsgCounter) (cmd : Cmd S),
      Unaddressed ⟨some (Engine.header source nodeManagementWithoutDevice counter .read false none),
        some ⟨some [cmd]⟩⟩ := by
    rintro source counter cmd destination ⟨⟩
    rfl
  have hread : ∀ (e : Engine S) (function : Function S.Other),
      ∀ p ∈ (e.read nodeManagementWithoutDevice (nodeManagement e.device.address) function now).1.pending,
        p ∈ e.pending ∨ Unaddressed p.datagram := by
    intro e function p hp
    cases List.mem_append.mp hp with
    | inl hmem => exact .inl (List.mem_of_mem_drop hmem)
    | inr hmem => exact .inr (List.mem_singleton.mp hmem ▸ hopening _ _ _)
  refine ⟨rfl, ⟨_, _, List.append_assoc .., ⟨rfl, hopening _ _ _⟩, rfl, hopening _ _ _⟩, fun p hp => ?_⟩
  exact (hread _ _ p hp).elim (hread e _ p) .inr

theorem proceeds_startDiscovery {e : Engine S} (hr : e.RequestsOnly) (now : Nat) :
    Proceeds e (e.startDiscovery now).1 := by
  have hfirst := Proceeds.perform hr (.readFiltered nodeManagementWithoutDevice
    (nodeManagement e.device.address) (.known .nodeManagementDetailedDiscoveryData) [] now) nofun nofun
  exact hfirst.trans (Proceeds.perform hfirst.requests (.readFiltered nodeManagementWithoutDevice
    (nodeManagement e.device.address) (.known .nodeManagementUseCaseData) [] now) nofun nofun)

namespace Booked

variable {h h' : Hub S} {past : List (MsgCounter × Datagram S)}

theorem new (ski : Ski) (engine : Engine S) (hpending : engine.pending = []) :
    Booked (Hub.new ski engine) [] where
  requests p hp := by simp [Hub.new, hpending] at hp
  distinct := List.nodup_nil
  unanswered _ hread := by simp [Hub.unanswered, Hub.new] at hread
  pending p hp := by simp [Hub.new, hpending] at hp
  past _ _ hmem := absurd hmem List.not_mem_nil

theorem onward (hb : Booked h past) (honward : Onward h h')
    (hroom : h.engine.counters.toNat + (h'.engine.outbox.length - h.engine.outbox.length) < 2 ^ 64) :
    Booked h' past := by
  have hle := honward.engine.counters_le hroom
  have hsub := honward.unanswered.subset
  refine ⟨honward.engine.requests, hb.distinct.sublist honward.unanswered, fun read hread => ?_,
    fun p hp => ?_, fun read message hmem => ?_⟩
  · exact UInt64.lt_of_lt_of_le (hb.unanswered read (hsub hread)) hle
  · rcases honward.engine.pending hroom p hp with hold | ⟨hlater, hlt⟩
    · obtain ⟨hlt, hopening⟩ := hb.pending p hold
      exact ⟨UInt64.lt_of_lt_of_le hlt hle, fun hwaits => hopening (hsub hwaits)⟩
    · refine ⟨hlt, fun hwaits => ?_⟩
      have hbelow := hb.unanswered p.request (hsub hwaits)
      exact absurd (UInt64.lt_of_lt_of_le hbelow hlater) (UInt64.lt_irrefl _)
  · obtain ⟨hread, counter, hcounter, heq, hknown⟩ := hb.past read message hmem
    refine ⟨UInt64.lt_of_lt_of_le hread hle, counter, UInt64.lt_of_lt_of_le hcounter hle, heq,
      fun hwaits => ?_⟩
    obtain ⟨hunaddressed, hsame⟩ := hknown (hsub hwaits)
    exact ⟨hunaddressed, hsame.imp_right fun hnot hmem => hnot (hsub hmem)⟩

theorem congr (hb : Booked h past) (hcounters : h'.engine.counters = h.engine.counters)
    (hpending : h'.engine.pending = h.engine.pending) (hlinks : h'.links = h.links) :
    Booked h' past := by
  have hunanswered : h'.unanswered = h.unanswered := by rw [Hub.unanswered, hlinks]; rfl
  refine ⟨Engine.requestsOnly_of_subset hb.requests fun p hp => hpending ▸ hp,
    hunanswered ▸ hb.distinct, ?_, ?_, ?_⟩
  · rw [hunanswered, hcounters]
    exact hb.unanswered
  · rw [hpending, hcounters, hunanswered]
    exact hb.pending
  · rw [hcounters, hunanswered]
    exact hb.past

theorem outbox_dropLink (h : Hub S) (index : Nat) (reason : Disconnect) :
    (h.dropLink index reason).engine.outbox = h.engine.outbox := by
  unfold Hub.dropLink
  split
  · rfl
  · unfold forgetPeerState
    dsimp only
    split <;> split <;> rfl

theorem transmit (hb : Booked h past) (sent : Bool) : Booked (h.transmit sent) past := by
  unfold Hub.transmit
  split
  · exact hb
  case h_2 datagram rest _ =>
    have hsent : Booked { h with engine := { h.engine with outbox := rest } } past :=
      hb.congr rfl rfl rfl
    dsimp only
    split
    · exact hsent
    case h_2 index _ =>
      split
      · exact hsent
      · refine hsent.onward (.dropLink hsent.requests index .remote) ?_
        rw [outbox_dropLink, Nat.sub_self, Nat.add_zero]
        exact h.engine.counters.toNat_lt

theorem handleTimeout (hb : Booked h past) (now : Nat)
    (hroom : h.engine.counters.toNat + (h.engine.queued (.handleTimeout now)).length < 2 ^ 64) :
    Booked { h with engine := h.engine.handleTimeout now }
      (past ++ h.engine.transmitted (.handleTimeout now)) := by
  obtain ⟨htransmitted, hlength, hcounters, hpending⟩ := h.engine.transmitted_handleTimeout now
  rw [hlength] at hroom
  have hvalue := toNat_iterate_nextMsgCounter hroom
  have hle : h.engine.counters ≤ (h.engine.handleTimeout now).counters := by
    rw [UInt64.le_iff_toNat_le, hcounters, hvalue]
    exact Nat.le_add_right _ _
  refine ⟨(Engine.speaks_handleTimeout hb.requests now).2, hb.distinct, fun read hread => ?_,
    fun p hp => ?_, fun read message hmem => ?_⟩
  · exact UInt64.lt_of_lt_of_le (hb.unanswered read hread) hle
  · obtain ⟨q, hq, hrequest, hdestination⟩ := hpending p hp
    obtain ⟨hlt, hopening⟩ := hb.pending q hq
    rw [hrequest]
    refine ⟨UInt64.lt_of_lt_of_le hlt hle, fun hwaits destination hsent => ?_⟩
    exact hopening hwaits destination (hdestination ▸ hsent)
  · cases List.mem_append.mp hmem with
    | inl hold =>
      obtain ⟨hread, counter, hcounter, heq, hknown⟩ := hb.past read message hold
      exact ⟨UInt64.lt_of_lt_of_le hread hle, counter, UInt64.lt_of_lt_of_le hcounter hle, heq, hknown⟩
    | inr hnew =>
      rw [htransmitted] at hnew
      obtain ⟨p, hp, n, hn, rfl, rfl⟩ := mem_retransmissions hnew
      have hp := (List.mem_filter.mp hp).1
      obtain ⟨hlt, hopening⟩ := hb.pending p hp
      have hvalue' : (nextMsgCounter^[n] h.engine.counters).toNat = h.engine.counters.toNat + n :=
        toNat_iterate_nextMsgCounter (by omega)
      refine ⟨UInt64.lt_of_lt_of_le hlt hle, nextMsgCounter^[n] h.engine.counters, ?_, ?_,
        fun hwaits => ⟨?_, .inr fun hmem => ?_⟩⟩
      · rw [UInt64.lt_iff_toNat_lt, hvalue', hcounters, hvalue]
        omega
      · obtain ⟨header, hheader, -⟩ := hb.requests p hp
        simp [Datagram.counter, Pending.messageUnder, hheader]
      · intro destination hsent
        rw [p.destination_messageUnder] at hsent
        exact hopening hwaits destination hsent
      · have hbelow := hb.unanswered _ hmem
        rw [UInt64.lt_iff_toNat_lt, hvalue'] at hbelow
        omega

theorem adopt (hb : Booked h past) (ski : Ski) (origin : Origin) (now : Nat)
    (hroom : h.Unwrapped (.hub (.adopt ski origin now))) :
    Booked (h.adopt ski origin now).1 (past ++ h.transmitted (.hub (.adopt ski origin now))) := by
  rcases h.adopt_cases ski origin now with hrefused | ⟨hopened, hengine, hunanswered⟩
  · rw [transmitted, hrefused, if_neg (by simp), List.append_nil]
    exact hb
  obtain ⟨hcounters, ⟨first, second, houtbox, ⟨hfirst, hopening⟩, hsecond, hopening'⟩, hpending⟩ :=
    startDiscovery_sends h.engine now
  have hqueued : h.queued (.hub (.adopt ski origin now)) = [first, second] := by
    rw [queued, performNode, perform, hengine, houtbox, List.drop_left]
  have htransmitted : h.transmitted (.hub (.adopt ski origin now)) =
      [(h.engine.counters, first), (nextMsgCounter h.engine.counters, second)] := by
    simp only [transmitted, hopened, if_true, hqueued, hcounters]
    rfl
  have hunanswered : (h.adopt ski origin now).1.unanswered = h.unanswered ++
      [h.engine.counters, nextMsgCounter h.engine.counters] := by rw [hunanswered, hcounters]
  have hroom' : h.engine.counters.toNat + 2 < 2 ^ 64 := by
    rw [Unwrapped, hqueued] at hroom
    exact hroom
  have hproceeds := proceeds_startDiscovery hb.requests now
  have hlength : (h.engine.startDiscovery now).1.outbox.length - h.engine.outbox.length = 2 := by
    simp [houtbox]
  have hnext := hproceeds.counters (by rw [hlength]; exact hroom')
  rw [hlength] at hnext
  have hfits : h.engine.counters.toNat + 1 < 2 ^ 64 := by omega
  have hsucc := (lt_nextMsgCounter hfits).2
  have honward : Onward h { h with engine := (h.engine.startDiscovery now).1 } :=
    ⟨hproceeds, List.Sublist.refl _⟩
  have hbefore := hb.onward honward (by rw [hlength]; exact hroom')
  -- The two new counters lie between those in use and the next.
  have hold : ∀ read ∈ h.unanswered, read.toNat < h.engine.counters.toNat :=
    fun read hread => UInt64.lt_iff_toNat_lt.mp (hb.unanswered read hread)
  have hfresh : ∀ read, read < h.engine.counters → read ∈ (h.adopt ski origin now).1.unanswered →
      read ∈ h.unanswered := by
    intro read hlt hmem
    rw [hunanswered] at hmem
    rw [UInt64.lt_iff_toNat_lt] at hlt
    rcases List.mem_append.mp hmem with hmem | hmem
    · exact hmem
    · rcases List.mem_pair.mp hmem with rfl | rfl <;> omega
  refine ⟨by rw [Engine.RequestsOnly, hengine]; exact hbefore.requests, ?_, fun read hread => ?_,
    fun p hp => ?_, fun read message hmem => ?_⟩
  · rw [hunanswered, List.nodup_append']
    refine ⟨hb.distinct, ?_, fun read hread hmem => ?_⟩
    · simp [(nextMsgCounter_ne h.engine.counters).symm]
    · have hbelow := hold read hread
      rcases List.mem_pair.mp hmem with rfl | rfl <;> omega
  · rw [hengine, UInt64.lt_iff_toNat_lt, hnext]
    rw [hunanswered] at hread
    rcases List.mem_append.mp hread with hmem | hmem
    · have hbelow := hold read hmem
      omega
    · rcases List.mem_pair.mp hmem with rfl | rfl <;> omega
  · rw [hengine] at hp ⊢
    refine ⟨(hbefore.pending p hp).1, fun hwaits => ?_⟩
    rcases hpending p hp with hmem | hopening
    · obtain ⟨hlt, hknown⟩ := hb.pending p hmem
      exact hknown (hfresh p.request hlt hwaits)
    · exact hopening
  · rw [hengine]
    rw [htransmitted] at hmem
    rcases List.mem_append.mp hmem with hmem | hmem
    · obtain ⟨hread, -⟩ := hb.past read message hmem
      obtain ⟨hread', counter, hcounter', heq, -⟩ := hbefore.past read message hmem
      refine ⟨hread', counter, hcounter', heq, fun hwaits => ?_⟩
      obtain ⟨-, counter₀, hcounter, heq₀, hknown⟩ := hb.past read message hmem
      obtain rfl : counter₀ = counter := Option.some.inj (heq₀.symm.trans heq)
      obtain ⟨hunaddressed, hsame⟩ := hknown (hfresh read hread hwaits)
      exact ⟨hunaddressed, hsame.imp_right fun hnot hmem => hnot (hfresh _ hcounter hmem)⟩
    · have hlast : ∀ counter : MsgCounter, counter.toNat < h.engine.counters.toNat + 2 →
          counter < (h.engine.startDiscovery now).1.counters := by
        intro counter hlt
        rw [UInt64.lt_iff_toNat_lt, hnext]
        exact hlt
      rcases List.mem_pair.mp hmem with heq | heq
      · obtain ⟨rfl, rfl⟩ := Prod.mk.inj heq
        exact ⟨hlast _ (by omega), _, hlast _ (by omega), hfirst, fun _ => ⟨hopening, .inl rfl⟩⟩
      · obtain ⟨rfl, rfl⟩ := Prod.mk.inj heq
        exact ⟨hlast _ (by omega), _, hlast _ (by omega), hsecond, fun _ => ⟨hopening', .inl rfl⟩⟩

end Booked

theorem booked_perform (hb : Booked h past) (op : NodeOp S) (hroom : h.Unwrapped op) :
    Booked (h.performNode op) (past ++ h.transmitted op) := by
  have honward : h.transmitted op = [] → Onward h (h.performNode op) →
      Booked (h.performNode op) (past ++ h.transmitted op) := by
    intro hnone honward
    rw [hnone, List.append_nil]
    refine hb.onward honward ?_
    rw [Unwrapped, queued, List.length_drop] at hroom
    exact hroom
  cases op with
  | hub op =>
    have hother := onward_perform hb.requests op
    cases op with
    | adopt ski origin now => exact hb.adopt ski origin now hroom
    | engineTimeout now => exact hb.handleTimeout now hroom
    | transmit sent =>
      rw [transmitted, List.append_nil]
      · exact hb.transmit sent
      all_goals nofun
    | _ => exact honward rfl (hother nofun nofun nofun)
  | engine op =>
    have hother := Proceeds.perform hb.requests op
    cases op with
    | handleTimeout now => exact hb.handleTimeout now hroom
    | pollTransmit =>
      rw [transmitted, List.append_nil]
      · exact hb.congr rfl rfl rfl
      all_goals nofun
    | _ => exact honward rfl ⟨hother nofun nofun, List.Sublist.refl _⟩

theorem route_unaddressed (h : Hub S) {message : Datagram S} {counter : MsgCounter}
    (hunaddressed : Unaddressed message) (hcounter : Datagram.counter message = some counter) :
    h.route message = h.links.findIdx? fun link => link.bootstrap.contains counter := by
  obtain ⟨header, hheader, hmsg⟩ := Option.bind_eq_some_iff.mp hcounter
  have hnone : header.addressDestination.bind FeatureAddress.device = none := by
    cases hdestination : header.addressDestination with
    | none => rfl
    | some destination =>
      exact hunaddressed destination (by simp [Datagram.destination, hheader, hdestination])
  simp only [route, hheader, hnone, hmsg, Option.bind_some]

theorem findIdx?_unanswered (hdistinct : h.unanswered.Nodup) {index : Nat} {link : Link}
    (hlink : h.links[index]? = some link) {counter : MsgCounter} (hwaits : counter ∈ link.bootstrap) :
    h.links.findIdx? (fun link => link.bootstrap.contains counter) = some index := by
  obtain ⟨hindex, hget⟩ := List.getElem?_eq_some_iff.mp hlink
  rw [List.findIdx?_eq_some_iff_getElem]
  refine ⟨hindex, by simpa [hget] using hwaits, fun j hj hother => ?_⟩
  have hapart := (List.nodup_flatMap.mp hdistinct).2
  have hj' : j < h.links.length := Nat.lt_trans hj hindex
  have hdisjoint := List.pairwise_iff_getElem.mp hapart j index hj' hindex hj
  exact hdisjoint (List.contains_iff_mem.mp hother) (by rwa [hget])

theorem findIdx?_answered {counter : MsgCounter} (hnone : counter ∉ h.unanswered) :
    h.links.findIdx? (fun link => link.bootstrap.contains counter) = none := by
  rw [List.findIdx?_eq_none_iff]
  intro link hlink
  rw [← Bool.not_eq_true, List.contains_iff_mem]
  exact fun hmem => hnone (List.mem_flatMap.mpr ⟨link, hlink, hmem⟩)

theorem getElem?_updateLink {index : Nat} {link : Link}
    (hlink : h.links[index]? = some link) (g : Link → Link) :
    (h.updateLink index g).links[index]? = some (g link) := by
  simp [updateLink, hlink]

theorem getElem?_bindLink {h' : Hub S} {index : Nat} {link : Link} {datagram : Datagram S}
    (hlink : h.links[index]? = some link) (hbind : h.bindLink index datagram = some h') :
    ∃ device, h'.links[index]? = some { link with device := device } := by
  unfold bindLink at hbind
  repeat' split at hbind
  · cases hbind
    exact ⟨link.device, hlink⟩
  · simp at hbind
  · cases hbind
    exact ⟨link.device, hlink⟩
  · simp at hbind
  · cases hbind
    exact ⟨_, getElem?_updateLink hlink _⟩

theorem receive_settles {h' : Hub S} {index : Nat} {link : Link} {answer : Datagram S} {now : Nat}
    (hlink : h.links[index]? = some link) (hreceive : h.receive index answer now = (h', none)) :
    ∃ link', h'.links[index]? = some link' ∧
      (∀ counter, answer.header.bind Header.msgCounterReference = some counter →
        link'.bootstrap = link.bootstrap.filter fun c => c != counter) ∧
      (link'.bootstrap = [] → ∀ device, link'.device = some device → link.announced = false →
        .peerDiscovered link.ski device ∈ h'.pending) := by
  unfold receive at hreceive
  split at hreceive
  · simp at hreceive
  case h_2 g hbind =>
    obtain ⟨device, hbound⟩ := getElem?_bindLink hlink hbind
    have hsettled : ∃ bootstrap, (g.settleBootstrap index answer).links[index]? =
          some { link with device := device, bootstrap := bootstrap } ∧
        ∀ counter, answer.header.bind Header.msgCounterReference = some counter →
          bootstrap = link.bootstrap.filter fun c => c != counter := by
      unfold settleBootstrap
      split
      case h_1 hnone => exact ⟨link.bootstrap, hbound, fun _ hsome => by simp [hnone] at hsome⟩
      case h_2 reference hreference =>
        refine ⟨_, getElem?_updateLink hbound _, fun counter hcounter => ?_⟩
        rw [Option.some.inj (hreference.symm.trans hcounter)]
    obtain ⟨bootstrap, hat, hfiltered⟩ := hsettled
    have heq : ({ g.settleBootstrap index answer with engine :=
        ((g.settleBootstrap index answer).engine.handleDatagram answer now).1 } : Hub S).announce index
          now = h' := (Prod.mk.inj hreceive).1
    subst heq
    unfold announce
    simp only [hat]
    cases device with
    | none => exact ⟨_, hat, hfiltered, fun _ _ hnone => nomatch hnone⟩
    | some device =>
      dsimp only
      split
      · refine ⟨_, getElem?_updateLink hat _, hfiltered, fun _ device' hdevice _ => ?_⟩
        cases hdevice
        exact List.mem_append_right _ (List.mem_singleton_self _)
      case isFalse hquiet =>
        refine ⟨_, hat, hfiltered, fun hempty device' _ hannounced => ?_⟩
        have hempty : bootstrap = [] := hempty
        simp [hempty, hannounced] at hquiet

theorem survives_iff (hb : Booked h past) :
    h.Survives past ↔ ∀ read ∈ h.unanswered, ∀ message, (read, message) ∈ past →
      Datagram.counter message = some read := by
  constructor
  · intro hsurvives read hwaits message hmem
    obtain ⟨link, hlink, hread⟩ := List.mem_flatMap.mp hwaits
    obtain ⟨index, hindex⟩ := List.mem_iff_getElem?.mp hlink
    obtain ⟨-, counter, -, hcounter, hknown⟩ := hb.past read message hmem
    obtain ⟨hunaddressed, hsame | hother⟩ := hknown hwaits
    · rw [hcounter, hsame]
    · have hroute := (hsurvives index link read message hindex hread hmem).1
      rw [h.route_unaddressed hunaddressed hcounter, findIdx?_answered hother] at hroute
      simp at hroute
  · intro honce index link read message hindex hread hmem
    have hwaits : read ∈ h.unanswered :=
      List.mem_flatMap.mpr ⟨link, List.mem_of_getElem? hindex, hread⟩
    have hcounter := honce read hwaits message hmem
    obtain ⟨-, counter, -, -, hknown⟩ := hb.past read message hmem
    refine ⟨?_, fun answer now h' hreference hreceive => ?_⟩
    · rw [h.route_unaddressed (hknown hwaits).1 hcounter]
      exact findIdx?_unanswered hb.distinct hindex hread
    · obtain ⟨link', hlink', hfiltered, hreported⟩ := receive_settles hindex hreceive
      refine ⟨link', hlink', ?_, hreported⟩
      rw [hfiltered read (hreference.trans hcounter)]
      simp

theorem transmitted_cases {op : NodeOp S} {read : MsgCounter} {message : Datagram S}
    (hmem : (read, message) ∈ h.transmitted op) : Datagram.counter message = some read ∨
      ∃ p ∈ h.engine.pending, sendsAgain p op = true ∧ read = p.request := by
  have htimer : ∀ now, (read, message) ∈ h.engine.transmitted (.handleTimeout now) →
      ∃ p ∈ h.engine.pending, p.resends now = true ∧ read = p.request := by
    intro now hmem
    rw [(h.engine.transmitted_handleTimeout now).1] at hmem
    obtain ⟨p, hp, -, -, hread, -⟩ := mem_retransmissions hmem
    obtain ⟨hpending, hdue⟩ := List.mem_filter.mp hp
    exact ⟨p, hpending, hdue, hread⟩
  unfold transmitted at hmem
  split at hmem
  case h_1 ski origin now =>
    rcases h.adopt_cases ski origin now with hrefused | ⟨hopened, hengine, -⟩
    · rw [hrefused] at hmem
      simp at hmem
    · obtain ⟨hcounters, ⟨first, second, houtbox, ⟨hfirst, -⟩, hsecond, -⟩, -⟩ :=
        startDiscovery_sends h.engine now
      have hqueued : h.queued (.hub (.adopt ski origin now)) = [first, second] := by
        rw [queued, performNode, perform, hengine, houtbox, List.drop_left]
      left
      simp only [hopened, if_true, hqueued, hcounters] at hmem
      rcases List.mem_pair.mp hmem with heq | heq
      · obtain ⟨rfl, rfl⟩ := Prod.mk.inj heq
        exact hfirst
      · obtain ⟨rfl, rfl⟩ := Prod.mk.inj heq
        exact hsecond
  case h_2 now => exact .inr (htimer now hmem)
  case h_3 now => exact .inr (htimer now hmem)
  case h_4 => simp at hmem

theorem unanswered_perform (hr : h.engine.RequestsOnly) {op : NodeOp S}
    (hroom : h.Unwrapped op) :
    ∀ read ∈ (h.performNode op).unanswered, read ∈ h.unanswered ∨ h.engine.counters ≤ read := by
  cases op with
  | engine op => exact fun read hread => .inl hread
  | hub op =>
    have hother := onward_perform hr op
    cases op with
    | adopt ski origin now =>
      intro read hread
      rcases h.adopt_cases ski origin now with hrefused | ⟨hopened, hengine, hunanswered⟩
      · rw [performNode, perform, hrefused] at hread
        exact .inl hread
      obtain ⟨hcounters, ⟨first, second, houtbox, -⟩, -⟩ := startDiscovery_sends h.engine now
      rw [Unwrapped, queued, performNode, perform, hengine, houtbox, List.drop_left] at hroom
      have hfits : h.engine.counters.toNat + 1 < 2 ^ 64 := Nat.lt_of_succ_lt hroom
      rw [performNode, perform, hunanswered, hcounters] at hread
      rcases List.mem_append.mp hread with hmem | hmem
      · exact .inl hmem
      · rcases List.mem_pair.mp hmem with rfl | rfl
        · exact .inr (UInt64.le_refl _)
        · exact .inr (UInt64.le_of_lt (lt_nextMsgCounter hfits).1)
    | engineTimeout now => exact fun read hread => .inl hread
    | transmit sent =>
      intro read hread
      left
      rw [performNode, perform, transmit] at hread
      split at hread
      · exact hread
      dsimp only at hread
      split at hread
      · exact hread
      split at hread
      · exact hread
      · rw [unanswered, dropLink_links] at hread
        exact ((List.eraseIdx_sublist _ _).flatMap Link.bootstrap).subset hread
    | _ =>
      refine fun read hread => .inl ((hother ?_ ?_ ?_).unanswered.subset hread)
      · exact fun _ _ _ h => by cases h
      · exact fun _ h => by cases h
      · exact fun _ h => by cases h

def SentOnce (h : Hub S) (past : List (MsgCounter × Datagram S)) : Prop :=
  ∀ read ∈ h.unanswered, ∀ message, (read, message) ∈ past → Datagram.counter message = some read

theorem sentOnce_perform (hb : Booked h past)
    (honce : h.SentOnce past) {op : NodeOp S} (hroom : h.Unwrapped op) (hspares : h.SparesOpening op) :
    (h.performNode op).SentOnce (past ++ h.transmitted op) := by
  intro read hread message hmem
  have hwaited := unanswered_perform hb.requests hroom read hread
  cases List.mem_append.mp hmem with
  | inl hold =>
    rcases hwaited with hwaits | hlater
    · exact honce read hwaits message hold
    · have hbelow := (hb.past read message hold).1
      exact absurd (UInt64.lt_of_lt_of_le hbelow hlater) (UInt64.lt_irrefl _)
  | inr hnew =>
    rcases transmitted_cases hnew with hcounter | ⟨p, hp, hresends, rfl⟩
    · exact hcounter
    · rcases hwaited with hwaits | hlater
      · exact absurd hwaits (hspares p hp hresends)
      · exact absurd (UInt64.lt_of_lt_of_le (hb.pending p hp).1 hlater) (UInt64.lt_irrefl _)

theorem booked_run (hb : Booked h past)
    (ops : List (NodeOp S)) (hroom : nodeMachine.Admits Unwrapped h ops) :
    Booked (nodeMachine.run h ops) (past ++ nodeMachine.collect transmitted h ops) := by
  induction ops generalizing h past with
  | nil =>
    rw [Machine.collect, List.append_nil]
    exact hb
  | cons op rest ih =>
    rw [Machine.collect, ← List.append_assoc]
    exact ih (booked_perform hb op hroom.1) hroom.2

theorem sentOnce_run (hb : Booked h past)
    (honce : h.SentOnce past) (ops : List (NodeOp S)) (hroom : nodeMachine.Admits Unwrapped h ops)
    (hspares : nodeMachine.Admits SparesOpening h ops) :
    (nodeMachine.run h ops).SentOnce (past ++ nodeMachine.collect transmitted h ops) := by
  induction ops generalizing h past with
  | nil =>
    rw [Machine.collect, List.append_nil]
    exact honce
  | cons op rest ih =>
    rw [Machine.collect, ← List.append_assoc]
    exact ih (booked_perform hb op hroom.1) (sentOnce_perform hb honce hroom.1 hspares.1) hroom.2
      hspares.2

theorem not_sentOnce_of_resends
    (hb : Booked h past) {op : NodeOp S} (hroom : h.Unwrapped op) {p : Pending S}
    (hp : p ∈ h.engine.pending) (hresends : sendsAgain p op = true) (hwaits : p.request ∈ h.unanswered) :
    ¬(h.performNode op).SentOnce (past ++ h.transmitted op) := by
  have htimer : ∀ now, p.resends now = true →
      h.engine.counters.toNat + (h.engine.queued (.handleTimeout now)).length < 2 ^ 64 →
      ∃ message, (p.request, message) ∈ h.engine.transmitted (.handleTimeout now) ∧
        Datagram.counter message ≠ some p.request := by
    intro now hdue hroom
    obtain ⟨htransmitted, hlength, -, -⟩ := h.engine.transmitted_handleTimeout now
    rw [hlength] at hroom
    rw [htransmitted]
    have hresent : p ∈ h.engine.resent now := List.mem_filter.mpr ⟨hp, hdue⟩
    obtain ⟨message, hmem⟩ := exists_mem_retransmissions h.engine.counters hresent
    refine ⟨message, hmem, fun hsame => ?_⟩
    obtain ⟨q, hq, n, hn, -, rfl⟩ := mem_retransmissions hmem
    obtain ⟨header, hheader, -⟩ := hb.requests q (List.mem_filter.mp hq).1
    have hvalue : (nextMsgCounter^[n] h.engine.counters).toNat = h.engine.counters.toNat + n :=
      toNat_iterate_nextMsgCounter (by omega)
    have hcounter : nextMsgCounter^[n] h.engine.counters = p.request := by
      simpa [Datagram.counter, Pending.messageUnder, hheader] using hsame
    have hbelow := (hb.pending p hp).1
    rw [← hcounter, UInt64.lt_iff_toNat_lt, hvalue] at hbelow
    omega
  intro honce
  have hresent : ∃ now, p.resends now = true ∧
      h.transmitted op = h.engine.transmitted (.handleTimeout now) ∧
      h.queued op = h.engine.queued (.handleTimeout now) ∧
      (h.performNode op).unanswered = h.unanswered := by
    unfold sendsAgain at hresends
    split at hresends
    case h_1 now => exact ⟨now, hresends, rfl, rfl, rfl⟩
    case h_2 now => exact ⟨now, hresends, rfl, rfl, rfl⟩
    case h_3 => cases hresends
  obtain ⟨now, hdue, htransmitted, hqueued, hunanswered⟩ := hresent
  rw [Unwrapped, hqueued] at hroom
  obtain ⟨message, hmem, hother⟩ := htimer now hdue hroom
  refine hother (honce p.request (hunanswered ▸ hwaits) message ?_)
  rw [htransmitted]
  exact List.mem_append_right _ hmem

/-- In every run in which the counters do not wrap, what is sent for an opening read goes to the
connection that waits for its answer, and an answer to it that arrives there settles it, if and only
if no such read is sent again. -/
theorem opening_survives_iff (ski : Ski) (engine : Engine S) (hpending : engine.pending = [])
    (ops : List (NodeOp S)) (hroom : nodeMachine.Admits Unwrapped (Hub.new ski engine) ops) :
    (∀ before, before <+: ops → (nodeMachine.run (Hub.new ski engine) before).Survives
        (nodeMachine.collect transmitted (Hub.new ski engine) before)) ↔
      nodeMachine.Admits SparesOpening (Hub.new ski engine) ops := by
  have hstart := Booked.new ski engine hpending
  have hbooked : ∀ before, before <+: ops → Booked (nodeMachine.run (Hub.new ski engine) before)
      (nodeMachine.collect transmitted (Hub.new ski engine) before) :=
    fun before hprefix => booked_run hstart before (nodeMachine.admits_prefix hroom hprefix)
  constructor
  · intro hsurvives
    refine nodeMachine.admits_of_steps fun before op hprefix p hp hresends hwaits => ?_
    have hbefore : before <+: ops := (List.prefix_append before [op]).trans hprefix
    have hstep := ((nodeMachine.admits_append _ before [op]).mp
      (nodeMachine.admits_prefix hroom hprefix)).2.1
    have honce := (survives_iff (hbooked _ hprefix)).mp (hsurvives _ hprefix)
    rw [nodeMachine.run_append, nodeMachine.collect_append] at honce
    simp only [Machine.collect, List.append_nil] at honce
    exact not_sentOnce_of_resends (hbooked before hbefore) hstep hp hresends hwaits honce
  · intro hspares before hprefix
    rw [survives_iff (hbooked before hprefix)]
    exact sentOnce_run hstart (fun _ _ _ hmem => absurd hmem List.not_mem_nil) before
      (nodeMachine.admits_prefix hroom hprefix) (nodeMachine.admits_prefix hspares hprefix)

end Hub

def openedOps : List (NodeOp Schema.limitsOnly) :=
  [.hub (.adopt 2 .dialed 0), .hub (.transmit true), .hub (.transmit true)]

/-- The answer arrives late, and the timer has run out once before. -/
def lateOps : List (NodeOp Schema.limitsOnly) :=
  openedOps ++ [.hub (.engineTimeout (fromSecs 10)), .hub (.engineTimeout (fromSecs 40))]

/-- A heat pump's use cases, as an answer to the read under `reference`. -/
def useCaseAnswer (counter reference : MsgCounter) : Datagram Schema.limitsOnly :=
  ⟨some (Engine.header (nodeManagement "d:_i:2_HeatPump") (nodeManagement "d:_i:1_Gateway") counter
    .reply false (some reference)),
    some ⟨some [Cmd.withData ⟨.nodeManagementUseCaseData, ⟨none⟩⟩]⟩⟩

/-- A wait of five seconds leaves the reads as they were sent. -/
theorem opening_survives_opened :
    let ops := openedOps ++ [.hub (.engineTimeout (fromSecs 5))]
    Hub.nodeMachine.Admits Hub.Unwrapped smallGateway ops ∧
      ∀ before, before <+: ops → (Hub.nodeMachine.run smallGateway before).Survives
        (Hub.nodeMachine.collect Hub.transmitted smallGateway before) := by
  intro ops
  have hroom : Hub.nodeMachine.Admits Hub.Unwrapped smallGateway ops := by decide +kernel
  have hspares : Hub.nodeMachine.Admits Hub.SparesOpening smallGateway ops := by decide +kernel
  exact ⟨hroom, (Hub.opening_survives_iff 1 gatewayEngine rfl ops hroom).mpr hspares⟩

/-- The reads that are sent again are put on no connection, and answers to them leave the connection
waiting and the peer unreported. -/
theorem late_opening_lost :
    let h := Hub.nodeMachine.run smallGateway lateOps
    ¬h.Survives (Hub.nodeMachine.collect Hub.transmitted smallGateway lateOps) ∧
      h.engine.outbox.map Datagram.counter = [some 3, some 4] ∧
      h.engine.outbox.map h.route = [none, none] ∧
      (Hub.nodeMachine.run h [.hub (.frame 0 (.data (useCaseAnswer 1 3)) (fromSecs 41)),
        .hub (.frame 0 (.data (useCaseAnswer 2 4)) (fromSecs 41))]).links.map
          (fun link => (link.bootstrap, link.announced)) = [([1, 2], false)] := by
  intro h
  refine ⟨fun hsurvives => ?_, by decide +kernel, by decide +kernel, by decide +kernel⟩
  have hlink : (h.links[0]?.map Link.bootstrap) = some [1, 2] := by decide +kernel
  obtain ⟨link, hlink, hwaits⟩ := Option.map_eq_some_iff.mp hlink
  have hlate : (Hub.nodeMachine.collect Hub.transmitted smallGateway lateOps)[2]?.map
      (fun sent => (sent.1, h.route sent.2)) = some (1, none) := by decide +kernel
  obtain ⟨⟨read, message⟩, hsent, hnowhere⟩ := Option.map_eq_some_iff.mp hlate
  obtain ⟨rfl, hnowhere⟩ := Prod.mk.inj hnowhere
  have hroute := (hsurvives 0 link 1 message hlink (by rw [hwaits]; decide)
    (List.mem_of_getElem? hsent)).1
  rw [hnowhere] at hroute
  simp at hroute

end Eebus.Runtime
