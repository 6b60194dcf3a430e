import Eebus.Runtime.Bootstrap
import Eebus.Runtime.Reception

/-!
The connections a hub holds, whatever happens to it: the caps on them, and the count of the handshakes
that may add to them.
-/

namespace Eebus.Runtime

open Eebus.Library Eebus.Model Eebus.Spine
open Eebus.Ship (Ski)

namespace Reception

/-- The handshakes in a direction that have not said how they ended. -/
def running (r : Reception) (origin : ConnectionOrigin) : Nat :=
  r.attempts.countP fun a => a.stage != .finished && a.origin.isDialed == origin.isDialed

/-- The caps on the connections of a node, and the count of the handshakes. -/
structure WithinCaps (r : Reception) (node : Ski) (cap : Nat) : Prop where
  own : r.ski = node
  limited : r.maxConnections = cap
  total : r.links.length ≤ cap
  perPeer : ∀ ski, (r.links.filter fun link => link.1 == ski).length ≤ maxConnectionsPerPeer
  foreign : ∀ link ∈ r.links, link.1 ≠ node
  reserved : 1 < cap → ∀ origin, r.held origin ≤ cap - 1
  counted : ∀ origin, r.inFlight origin = r.running origin

variable {r : Reception} {node : Ski} {cap : Nat}

theorem running_setStage {id : Nat} {a : Attempt} (hentry : r.attempts[id]? = some a)
    (hopen : a.stage ≠ .finished) (stage : Stage) (origin : ConnectionOrigin) :
    r.running origin = (r.setStage id stage).running origin +
      if stage ≠ .finished then 0 else if a.origin.isDialed = origin.isDialed then 1 else 0 := by
  obtain ⟨hlt, rfl⟩ := List.getElem?_eq_some_iff.mp hentry
  obtain ⟨before, b, after, hattempts, hlength, hmodify⟩ :=
    List.exists_of_modify (fun a => { a with stage := stage }) hlt
  have hb : r.attempts[id] = b := by simp [hattempts, ← hlength]
  rw [hb] at hopen ⊢
  simp only [running, Reception.setStage]
  rw [hmodify, hattempts]
  simp only [List.countP_append, List.countP_cons]
  by_cases hstage : stage = .finished <;> by_cases hsame : b.origin.isDialed = origin.isDialed <;>
    (simp [hopen, hstage, hsame]; try omega)

theorem new_withinCaps (node : Ski) (cap : Nat) : (new node cap).WithinCaps node cap where
  own := rfl
  limited := rfl
  total := Nat.zero_le _
  perPeer _ := Nat.zero_le _
  foreign _ hlink := absurd hlink List.not_mem_nil
  reserved _ _ := Nat.zero_le _
  counted origin := by
    simp only [inFlight, new, running, List.countP_nil]
    split <;> rfl

namespace WithinCaps

section

variable (h : r.WithinCaps node cap)

include h

theorem of_links {r' : Reception} (hski : r'.ski = r.ski)
    (hmax : r'.maxConnections = r.maxConnections) (hlinks : r'.links = r.links)
    (hcounted : ∀ origin, r'.inFlight origin = r'.running origin) : r'.WithinCaps node cap where
  own := hski.trans h.own
  limited := hmax.trans h.limited
  total := by rw [hlinks]; exact h.total
  perPeer := by rw [hlinks]; exact h.perPeer
  foreign := by rw [hlinks]; exact h.foreign
  reserved := by
    simp only [held, hlinks]
    exact h.reserved
  counted := hcounted

theorem setStage {id : Nat} {a : Attempt} (hentry : r.attempts[id]? = some a)
    (hopen : a.stage ≠ .finished) {stage : Stage} (hstage : stage ≠ .finished) :
    (r.setStage id stage).WithinCaps node cap := by
  refine h.of_links rfl rfl rfl fun origin => ?_
  have hrunning := running_setStage hentry hopen stage origin
  rw [if_pos hstage] at hrunning
  have hcounted := h.counted origin
  simp only [inFlight, Reception.setStage] at hcounted ⊢
  simp only [Reception.setStage] at hrunning
  omega

theorem spawn (origin : ConnectionOrigin) : (r.spawn origin).WithinCaps node cap := by
  have hrunning : ∀ other, ({ r with attempts := r.attempts ++ [Attempt.mk origin .started] } :
      Reception).running other = r.running other +
        if origin.isDialed = other.isDialed then 1 else 0 := fun other => by
    simp only [running, List.countP_append, List.countP_cons, List.countP_nil]
    simp
  have hfixed : (r.spawn origin).ski = r.ski ∧ (r.spawn origin).maxConnections = r.maxConnections ∧
      (r.spawn origin).links = r.links := by
    simp only [Reception.spawn]
    split <;> exact ⟨rfl, rfl, rfl⟩
  refine h.of_links hfixed.1 hfixed.2.1 hfixed.2.2 fun other => ?_
  have hcounted := h.counted other
  have hmore := hrunning other
  simp only [Reception.spawn, inFlight, running] at hcounted hmore ⊢
  cases hdialed : origin.isDialed <;> cases hother : other.isDialed <;>
    simp_all

theorem finish {id : Nat} {a : Attempt} (hentry : r.attempts[id]? = some a)
    (hopen : a.stage ≠ .finished) : ((r.releaseInFlight a.origin).setStage id .finished).WithinCaps node cap := by
  obtain ⟨dialed, accepted, hrelease⟩ := r.releaseInFlight_eq a.origin
  have hfixed : (r.releaseInFlight a.origin).attempts = r.attempts := by rw [hrelease]
  refine h.of_links (by rw [hrelease]; rfl) (by rw [hrelease]; rfl) (by rw [hrelease]; rfl) fun origin => ?_
  have hrunning := running_setStage hentry hopen .finished origin
  have hcounted := h.counted origin
  simp only [running, Reception.setStage, inFlight, releaseInFlight] at hcounted hrunning ⊢
  cases hdialed : a.origin.isDialed <;> cases horigin : origin.isDialed <;>
    simp_all

theorem adoptFrom (ski : Ski) (origin : ConnectionOrigin) (attempt : Option Nat) :
    (r.adoptFrom ski origin attempt).1.WithinCaps node cap := by
  unfold Reception.adoptFrom
  split
  case isTrue => exact h
  case isFalse hself =>
    split
    case isTrue => exact h
    case isFalse hroom =>
      simp only [Bool.or_eq_true, decide_eq_true_eq, Bool.not_eq_true', not_or, Nat.not_le,
        Bool.not_eq_false] at hroom
      obtain ⟨hpeer, hslot⟩ := hroom
      have hlength : r.links.length < cap := by
        by_contra hfull
        rw [hasSlotFor, h.limited, if_pos (Nat.not_lt.mp hfull)] at hslot
        cases hslot
      refine ⟨h.own, h.limited, ?_, fun peer => ?_, fun link hlink => ?_, fun hmany other => ?_, h.counted⟩
      · simpa [Reception.raise, Nat.succ_le_iff] using hlength
      · simp only [Reception.raise, List.filter_append, List.length_append]
        by_cases heq : ski = peer
        · subst heq
          simpa [Nat.succ_le_iff] using hpeer
        · simpa [heq] using h.perPeer peer
      · rcases List.mem_append.mp hlink with hold | hnew
        · exact h.foreign link hold
        · rw [List.mem_singleton.mp hnew, ← h.own]
          exact hself
      · have hother := h.reserved hmany other
        simp only [Reception.raise, held, List.filter_append, List.length_append] at hother ⊢
        by_cases hsame : origin.isDialed = other.isDialed
        · rw [hasSlotFor, h.limited, if_neg (Nat.not_le.mpr hlength), if_neg (Nat.not_le.mpr hmany),
            decide_eq_true_eq, held, hsame] at hslot
          simpa [hsame, Nat.succ_le_iff] using hslot
        · simpa [hsame] using hother

theorem of_records (awaitingTrust : List (ConnectionOrigin × Ski))
    (refusals : List Ski) (pending : List (Option Nat × ReceptionEvent)) :
    ({ r with awaitingTrust := awaitingTrust, refusals := refusals, pending := pending } :
      Reception).WithinCaps node cap :=
  h.of_links rfl rfl rfl h.counted

theorem trustRequested {id : Nat} {a : Attempt} (hentry : r.attempts[id]? = some a)
    (hstarted : a.stage = .started) (ski : Ski) : (r.trustRequested id a.origin ski).WithinCaps node cap := by
  have hopen : a.stage ≠ .finished := by rw [hstarted]; exact nofun
  have hset : ∀ stage, stage ≠ .finished → (r.setStage id stage).WithinCaps node cap := fun stage hstage =>
    h.setStage hentry hopen hstage
  unfold Reception.trustRequested
  dsimp only
  split
  · exact hset _ nofun
  · split
    · exact (hset .refused nofun).of_records _ _ _
    · split
      · exact hset _ nofun
      · exact (hset (.waiting ski) nofun).of_records _ _ _

theorem established {id : Nat} {a : Attempt} (hentry : r.attempts[id]? = some a)
    (hopen : a.stage ≠ .finished) (ski : Ski) : (r.established id a.origin ski).WithinCaps node cap := by
  unfold Reception.established
  dsimp only
  have hfinished := (h.finish hentry hopen).of_records
    (((r.releaseInFlight a.origin).setStage id .finished).awaitingTrust.filter
      fun entry => entry.1 != a.origin)
    ((r.releaseInFlight a.origin).setStage id .finished).refusals
    ((r.releaseInFlight a.origin).setStage id .finished).pending
  have hadopted := hfinished.adoptFrom ski a.origin (some id)
  split
  case h_1 r' heq =>
    rw [heq] at hadopted
    exact hadopted
  case h_2 r' reason heq =>
    rw [heq] at hadopted
    exact hadopted.of_records _ _ _

theorem failed {id : Nat} {a : Attempt} (hentry : r.attempts[id]? = some a)
    (hopen : a.stage ≠ .finished) (ski : Option Ski) (error : ConnectionError) :
    (r.failed id a.origin ski error).WithinCaps node cap :=
  (h.finish hentry hopen).of_records _ _ _

theorem approve (ski : Ski) : (r.perform (.approve ski)).WithinCaps node cap := by
  refine h.of_links rfl rfl rfl fun origin => (h.counted origin).trans ?_
  simp only [running, Reception.perform, List.countP_map]
  refine List.countP_congr fun a _ => ?_
  simp only [Function.comp]
  split
  case isTrue hwaits => simp [hwaits]
  case isFalse => rfl

theorem drop (index : Nat) : (r.perform (.drop index)).WithinCaps node cap := by
  have hfewer : (r.links.eraseIdx index).Sublist r.links := List.eraseIdx_sublist r.links index
  exact ⟨h.own, h.limited, hfewer.length_le.trans h.total,
    fun ski => ((hfewer.filter _).length_le).trans (h.perPeer ski),
    fun link hlink => h.foreign link (hfewer.subset hlink),
    fun hmany origin => ((hfewer.filter _).length_le).trans (h.reserved hmany origin), h.counted⟩

theorem perform (op : ReceptionOp) : (r.perform op).WithinCaps node cap := by
  cases op with
  | accept from_ =>
    simp only [Reception.perform, Reception.accept]
    split
    · exact h.of_records _ _ _
    · exact h.spawn _
  | dial address expected =>
    simp only [Reception.perform, Reception.spawnDial]
    split
    · exact h.of_records _ _ _
    · exact h.spawn _
  | adopt ski => exact h.adoptFrom ski _ none
  | trustRequested id ski =>
    simp only [Reception.perform]
    split
    case h_1 a hentry =>
      split
      case isTrue hstarted => exact h.trustRequested hentry hstarted ski
      case isFalse => exact h
    case h_2 => exact h
  | established id ski =>
    simp only [Reception.perform]
    split
    case h_1 a hentry =>
      split
      case isTrue => exact h
      case isFalse hopen => exact h.established hentry hopen ski
    case h_2 => exact h
  | failed id ski error =>
    simp only [Reception.perform]
    split
    case h_1 a hentry =>
      split
      case isTrue => exact h
      case isFalse hopen => exact h.failed hentry hopen ski error
    case h_2 => exact h
  | approve ski => exact h.approve ski
  | drop index => exact h.drop index

end

end WithinCaps

theorem run_withinCaps (node : Ski) (cap : Nat) (ops : List ReceptionOp) :
    (machine.run (new node cap) ops).WithinCaps node cap :=
  machine.run_invariant (fun _ _ => True) (WithinCaps · node cap) (fun _ op h _ => h.perform op) ops _
    (new_withinCaps node cap) (machine.admits_of_forall (fun _ _ => trivial) ops _)

/-- Whatever happens to a hub, its connections keep to its caps, and it knows how many handshakes have
not said how they ended. -/
theorem connections_within_caps (ski : Ski) (maxConnections : Nat) (ops : List ReceptionOp) :
    let r := machine.run (new ski maxConnections) ops
    r.links.length ≤ maxConnections ∧
      (∀ peer, (r.links.filter fun link => link.1 == peer).length ≤ maxConnectionsPerPeer) ∧
      (∀ link ∈ r.links, link.1 ≠ ski) ∧
      (1 < maxConnections → ∀ origin, r.held origin ≤ maxConnections - 1) ∧
      ∀ origin, r.inFlight origin = r.running origin :=
  have hrun := run_withinCaps ski maxConnections ops
  ⟨hrun.total, hrun.perPeer, hrun.foreign, hrun.reserved, hrun.counted⟩

end Reception

namespace Hub

variable {S : Schema} {h h' h'' : Hub S}

def table (h : Hub S) : List (Ski × Origin) := h.links.map fun link => (link.ski, link.origin)

structure Narrows (h h' : Hub S) : Prop where
  ski : h'.ski = h.ski
  maxConnections : h'.maxConnections = h.maxConnections
  table : h'.table.Sublist h.table

namespace Narrows

theorem trans (a : Narrows h h') (b : Narrows h' h'') : Narrows h h'' :=
  ⟨b.ski.trans a.ski, b.maxConnections.trans a.maxConnections, b.table.trans a.table⟩

theorem of_table (hski : h'.ski = h.ski) (hmax : h'.maxConnections = h.maxConnections)
    (htable : h'.table = h.table) : Narrows h h' :=
  ⟨hski, hmax, htable ▸ List.Sublist.refl _⟩

theorem refl : Narrows h h := of_table rfl rfl rfl

theorem of_links (hski : h'.ski = h.ski) (hmax : h'.maxConnections = h.maxConnections)
    (hlinks : h'.links.Sublist h.links) : Narrows h h' :=
  ⟨hski, hmax, hlinks.map _⟩

theorem updateLink (index : Nat) {g : Link → Link} (hg : ∀ link, (g link).ski = link.ski ∧
    (g link).origin = link.origin) : Narrows h (h.updateLink index g) := by
  refine of_table rfl rfl (List.ext_getElem? fun i => ?_)
  simp only [Hub.table, Hub.updateLink, List.getElem?_map, List.getElem?_modify]
  cases h.links[i]? with
  | none => rfl
  | some link =>
    obtain ⟨hski, horigin⟩ := hg link
    by_cases heq : index = i <;> simp [heq, hski, horigin]

theorem mapIdx {f : Nat → Link → Link} (hf : ∀ i link, (f i link).ski = link.ski ∧
    (f i link).origin = link.origin) (duplicates : List Duplicate) :
    Narrows h { h with links := h.links.mapIdx f, duplicates := duplicates } := by
  refine of_table rfl rfl (List.ext_getElem? fun i => ?_)
  simp only [Hub.table, List.getElem?_map, List.getElem?_mapIdx]
  cases h.links[i]? with
  | none => rfl
  | some link =>
    obtain ⟨hski, horigin⟩ := hf i link
    simp [hski, horigin]

theorem dropLink (index : Nat) (reason : Disconnect) : Narrows h (h.dropLink index reason) := by
  have hlinks : (h.dropLink index reason).links.Sublist h.links := by
    rw [dropLink_links]
    exact List.eraseIdx_sublist h.links index
  cases hlink : h.links[index]? with
  | none =>
    have hsame : h.dropLink index reason = h := by simp [Hub.dropLink, hlink]
    rw [hsame]
    exact refl
  | some link =>
    refine of_links ?_ ?_ hlinks <;>
    · simp only [Hub.dropLink, hlink, forgetPeerState]
      cases link.device <;> dsimp only <;> split <;> rfl

theorem dropLinks (indices : List Nat) (reason : Disconnect) : Narrows h (h.dropLinks indices reason) := by
  induction indices generalizing h with
  | nil => exact refl
  | cons index rest ih => exact (dropLink index reason).trans ih

theorem closeDuplicates (ski : Ski) : Narrows h (h.closeDuplicates ski) := by
  unfold Hub.closeDuplicates
  split
  · exact of_table rfl rfl rfl
  case h_2 keep _ =>
    have hkept := (List.filter_sublist (l := h.links.zipIdx)
      (p := fun entry => !doomed ski keep entry)).map Prod.fst
    rw [List.zipIdx_map_fst] at hkept
    exact of_links rfl rfl hkept

theorem bindLink {index : Nat} {datagram : Datagram S} (hbind : h.bindLink index datagram = some h') :
    Narrows h h' := by
  unfold Hub.bindLink at hbind
  repeat' split at hbind
  · cases hbind
    exact refl
  · simp at hbind
  · cases hbind
    exact refl
  · simp at hbind
  · cases hbind
    exact updateLink index fun _ => ⟨rfl, rfl⟩

theorem announce (index now : Nat) : Narrows h (h.announce index now) := by
  unfold Hub.announce
  repeat' split
  · exact refl
  · exact refl
  · have hmarked : Narrows h (h.updateLink index fun link => { link with announced := true }) :=
      updateLink index fun _ => ⟨rfl, rfl⟩
    exact ⟨hmarked.ski, hmarked.maxConnections, hmarked.table⟩
  · exact refl

theorem receive (index : Nat) (datagram : Datagram S) (now : Nat) :
    Narrows h (h.receive index datagram now).1 := by
  unfold Hub.receive
  split
  · exact refl
  case h_2 g hbind =>
    have hsettled : Narrows g (g.settleBootstrap index datagram) := by
      unfold Hub.settleBootstrap
      split
      · exact refl
      · exact updateLink index fun _ => ⟨rfl, rfl⟩
    have hengine : Narrows (g.settleBootstrap index datagram) { g.settleBootstrap index datagram with
        engine := ((g.settleBootstrap index datagram).engine.handleDatagram datagram now).1 } :=
      of_table rfl rfl rfl
    exact (bindLink hbind).trans (hsettled.trans (hengine.trans (announce index now)))

theorem frame (index : Nat) (read : Hub.Frame S) (now : Nat) : Narrows h (h.frame index read now) := by
  have hseen : Narrows h (h.updateLink index fun link =>
      { link with lastSeen := now, pingedAt := none }) := updateLink index fun _ => ⟨rfl, rfl⟩
  unfold Hub.frame
  split
  · exact refl
  · cases read with
    | unreadable => exact dropLink index .remote
    | data datagram =>
      have hreceived := hseen.trans (receive index datagram now)
      dsimp only
      split
      case h_1 g reason hreceive =>
        rw [hreceive] at hreceived
        exact hreceived.trans (dropLink index reason)
      case h_2 g hreceive =>
        rw [hreceive] at hreceived
        exact hreceived
    | unparsed => exact hseen
    | refused | ended => exact hseen.trans (dropLink index .remote)

theorem keepalive_keeps (link : Link) (now : Nat) :
    (link.keepalive now).1.ski = link.ski ∧ (link.keepalive now).1.origin = link.origin := by
  unfold Link.keepalive
  dsimp only
  split <;> exact ⟨rfl, rfl⟩

theorem expireLinks (now : Nat) : Narrows h (h.expireLinks now) := by
  have hchecked : Narrows h { h with links := h.links.map fun link => (link.keepalive now).1 } := by
    refine of_table rfl rfl ?_
    rw [Hub.table, List.map_map]
    refine List.map_congr_left fun link _ => ?_
    obtain ⟨hski, horigin⟩ := keepalive_keeps link now
    simp [hski, horigin]
  have hdropped := hchecked.trans
    (dropLinks (h.positions fun link _ => (link.keepalive now).2 == .dead) .unresponsive)
  unfold Hub.expireLinks
  dsimp only
  split
  · exact hdropped.trans (of_table rfl rfl rfl)
  · exact hdropped

theorem arbitrate (now : Nat) (sent : Nat → Bool) : Narrows h (h.arbitrate now sent) := by
  cases hd : h.duplicates with
  | nil =>
    have hsame : h.arbitrate now sent = h := by simp [Hub.arbitrate, hd]
    rw [hsame]
    exact refl
  | cons duplicate rest =>
    cases hresolution : h.resolution duplicate now with
    | settled =>
      rw [arbitrate_settled hd hresolution]
      exact of_table rfl rfl rfl
    | keepNewest =>
      rw [arbitrate_keepNewest hd hresolution]
      exact closeDuplicates duplicate.ski
    | wait until_ =>
      rw [arbitrate_wait hd hresolution]
      exact of_table rfl rfl rfl
    | probe =>
      rw [arbitrate_probe hd hresolution]
      have hprobed : Narrows h { h with
          links := h.links.mapIdx (probed duplicate.ski now sent)
          duplicates := h.markProbed duplicate.ski } := mapIdx (fun i link => by
        unfold probed
        split
        · dsimp only
          split <;> exact keepalive_keeps link now
        · exact ⟨rfl, rfl⟩) _
      exact (hprobed.trans (dropLinks _ .remote)).trans (of_table rfl rfl rfl)
    | closeAfterProbe =>
      rw [arbitrate_closeAfterProbe hd hresolution]
      exact (dropLinks _ .unresponsive).trans (closeDuplicates duplicate.ski)

theorem perform (op : HubOp S) (hadopt : ∀ ski origin now, op ≠ .adopt ski origin now)
    (hmax : ∀ limit, op ≠ .setMaxConnections limit) : Narrows h (h.perform op) := by
  cases op with
  | adopt ski origin now => exact absurd rfl (hadopt ski origin now)
  | setMaxConnections limit => exact absurd rfl (hmax limit)
  | frame index read now => exact frame index read now
  | transmit sent =>
    simp only [Hub.perform, Hub.transmit]
    split
    case h_1 => exact refl
    case h_2 rest _ =>
      have htaken : Narrows h { h with engine := { h.engine with outbox := rest } } := of_table rfl rfl rfl
      split
      · exact htaken
      · split
        · exact htaken
        · exact htaken.trans (dropLink _ .remote)
  | resume =>
    have hcleared : Narrows h { h with writing := none } := of_table rfl rfl rfl
    simp only [Hub.perform, Hub.resume]
    split
    · exact refl
    · split
      · exact hcleared.trans (dropLink _ .interruptedWrite)
      · exact hcleared
  | expireLinks now => exact expireLinks now
  | keepalive now sent =>
    have hpinged : Narrows h { h with links := h.links.mapIdx fun index link =>
        if (link.pingDue now && sent index) = true then
          { link with pingedAt := some now, awaitingPong := true }
        else link } := mapIdx (fun i link => by split <;> exact ⟨rfl, rfl⟩) h.duplicates
    exact hpinged.trans (dropLinks _ .remote)
  | pong index => exact updateLink index fun _ => ⟨rfl, rfl⟩
  | arbitrate now sent => exact arbitrate now sent
  | close ski => exact dropLinks _ .local_
  | disconnect ski => exact of_links rfl rfl List.filter_sublist
  | shutdown => exact of_links rfl rfl (List.nil_sublist _)
  | interrupt _ | engineTimeout _ | wake _ | takeEvent | takeSpineEvent => exact of_table rfl rfl rfl

end Narrows

theorem exists_erasures {α : Type*} {l' l : List α} (h : l'.Sublist l) :
    ∃ indices : List Nat, indices.foldl List.eraseIdx l = l' := by
  induction h with
  | slnil => exact ⟨[], rfl⟩
  | cons a _ ih =>
    obtain ⟨indices, rfl⟩ := ih
    exact ⟨0 :: indices, rfl⟩
  | cons_cons a _ ih =>
    obtain ⟨indices, rfl⟩ := ih
    refine ⟨indices.map Nat.succ, ?_⟩
    rw [List.foldl_map]
    exact List.foldl_hom (a :: ·) fun _ _ => rfl

end Hub

def ConnectionOrigin.end_ : ConnectionOrigin → Origin
  | .accepted _ => .accepted
  | .dialed _ => .dialed

structure Shown {S : Schema} (h : Hub S) (r : Reception) : Prop where
  ski : r.ski = h.ski
  maxConnections : r.maxConnections = h.maxConnections
  table : r.links.map (fun link => (link.1, link.2.end_)) = h.table

namespace Shown

variable {S : Schema} {h h' : Hub S} {r r' : Reception}

theorem of_same (hs : Shown h r) (hski : r'.ski = r.ski) (hmax : r'.maxConnections = r.maxConnections)
    (hlinks : r'.links = r.links) : Shown h r' :=
  ⟨hski.trans hs.ski, hmax.trans hs.maxConnections, by rw [hlinks]; exact hs.table⟩

theorem run_drops (r : Reception) (indices : List Nat) :
    Reception.machine.run r (indices.map .drop) = { r with links := indices.foldl List.eraseIdx r.links } := by
  induction indices generalizing r with
  | nil => rfl
  | cons index rest ih => exact ih { r with links := r.links.eraseIdx index }

theorem narrows (hs : Shown h r) (hn : h.Narrows h') :
    ∃ indices : List Nat, Shown h' (Reception.machine.run r (indices.map .drop)) := by
  obtain ⟨indices, herased⟩ := Hub.exists_erasures hn.table
  refine ⟨indices, ?_⟩
  rw [run_drops]
  refine ⟨hs.ski.trans hn.ski.symm, hs.maxConnections.trans hn.maxConnections.symm, ?_⟩
  rw [← herased, ← hs.table]
  exact (List.foldl_hom (List.map fun link : Ski × ConnectionOrigin => (link.1, link.2.end_))
    fun links index => List.eraseIdx_map _ links index).symm

theorem count (hs : Shown h r) (p : Ski × Origin → Bool) :
    (r.links.filter fun link => p (link.1, link.2.end_)).length =
      (h.links.filter fun link => p (link.ski, link.origin)).length := by
  have htable := congrArg (List.countP p) hs.table
  rw [Hub.table, List.countP_map, List.countP_map] at htable
  simpa only [List.countP_eq_length_filter, Function.comp_def] using htable

theorem held (hs : Shown h r) (origin : ConnectionOrigin) :
    r.held origin = (h.links.filter fun link => link.origin == origin.end_).length := by
  have hsame : ∀ other : ConnectionOrigin,
      (other.isDialed == origin.isDialed) = (other.end_ == origin.end_) := by
    intro other
    cases other <;> cases origin <;> rfl
  simpa only [Reception.held, hsame] using hs.count fun link => link.2 == origin.end_

theorem hasSlotFor (hs : Shown h r) (origin : ConnectionOrigin) :
    r.hasSlotFor origin = h.hasSlotFor origin.end_ := by
  have hlength : r.links.length = h.links.length := by simpa using hs.count fun _ => true
  rw [Reception.hasSlotFor, Hub.hasSlotFor, hs.maxConnections, hlength, hs.held]

theorem adopt (hs : Shown h r) (ski : Ski) (origin : ConnectionOrigin) (attempt : Option Nat) (now : Nat) :
    Shown (h.adopt ski origin.end_ now).1 (r.adoptFrom ski origin attempt).1 := by
  have hpeer := hs.count fun link => link.1 == ski
  simp only [Hub.adopt, Reception.adoptFrom, hpeer, hs.hasSlotFor, hs.ski, beq_iff_eq]
  split
  · exact hs
  · split
    · exact hs
    · refine ⟨rfl, hs.maxConnections, ?_⟩
      simp [Reception.raise, Hub.emit, Hub.table, hs.table]

def Idle (r : Reception) : Prop := r.inFlightDialed = 0 ∧ r.inFlightAccepted = 0

theorem adoptFrom_idle (hidle : Idle r) (ski : Ski) (origin : ConnectionOrigin) (attempt : Option Nat) :
    Idle (r.adoptFrom ski origin attempt).1 := by
  rcases r.adoptFrom_cases ski origin attempt with ⟨reason, heq⟩ | heq <;> rw [heq] <;> exact hidle

theorem hasRoomFor_idle (hidle : Idle r) (origin : ConnectionOrigin) :
    r.hasRoomFor origin = r.hasSlotFor origin := by
  obtain ⟨hdialed, haccepted⟩ := hidle
  simp only [Reception.hasRoomFor, Reception.hasSlotFor, Reception.inFlight, hdialed, haccepted,
    ite_self, Nat.add_zero]

theorem established (hs : Shown h r) (id : Nat) (origin : ConnectionOrigin) (ski : Ski) (now : Nat)
    (hidle : Idle (r.releaseInFlight origin)) :
    Shown (h.adopt ski origin.end_ now).1 (r.established id origin ski) ∧
      Idle (r.established id origin ski) := by
  obtain ⟨dialed, accepted, hrelease⟩ := r.releaseInFlight_eq origin
  rw [hrelease] at hidle
  unfold Reception.established
  simp only [hrelease, Reception.setStage]
  have hreleased : Shown h { r with
      inFlightDialed := dialed
      inFlightAccepted := accepted
      attempts := r.attempts.modify id fun a => { a with stage := .finished }
      awaitingTrust := r.awaitingTrust.filter fun entry => entry.1 != origin } :=
    hs.of_same rfl rfl rfl
  have hadopted := hreleased.adopt ski origin (some id) now
  have hstill := adoptFrom_idle (r := { r with
      inFlightDialed := dialed
      inFlightAccepted := accepted
      attempts := r.attempts.modify id fun a => { a with stage := .finished }
      awaitingTrust := r.awaitingTrust.filter fun entry => entry.1 != origin }) hidle ski origin (some id)
  split
  case h_1 r' heq =>
    rw [heq] at hadopted hstill
    exact ⟨hadopted, hstill⟩
  case h_2 r' reason heq =>
    rw [heq] at hadopted hstill
    exact ⟨hadopted.of_same rfl rfl rfl, hstill⟩

theorem accepted (hs : Shown h r) (hidle : Idle r) (ski : Ski) (from_ : SocketAddr) (now : Nat) :
    ∃ ops, Shown (h.adopt ski .accepted now).1 (Reception.machine.run r ops) ∧
      Idle (Reception.machine.run r ops) := by
  by_cases hroom : r.hasRoomFor (.accepted from_) = true
  · refine ⟨[.accept from_, .established r.attempts.length ski], ?_⟩
    have hspawned : r.perform (.accept from_) = { r with
        attempts := r.attempts ++ [⟨.accepted from_, .started⟩]
        inFlightAccepted := r.inFlightAccepted + 1 } := by
      simp [Reception.perform, Reception.accept, hroom, Reception.spawn, ConnectionOrigin.isDialed]
    have hentry : (r.perform (.accept from_)).attempts[r.attempts.length]? =
        some ⟨.accepted from_, .started⟩ := by
      rw [hspawned]
      exact List.getElem?_concat_length
    have hrun : Reception.machine.run r [.accept from_, .established r.attempts.length ski] =
        (r.perform (.accept from_)).established r.attempts.length (.accepted from_) ski := by
      change (r.perform (.accept from_)).perform (.established r.attempts.length ski) = _
      generalize r.perform (.accept from_) = spawned at hentry
      simp only [Reception.perform, hentry]
      exact if_neg (fun h => by cases h)
    rw [hrun]
    refine Shown.established ?_ _ (.accepted from_) ski now ?_
    · rw [hspawned]
      exact hs.of_same rfl rfl rfl
    · rw [hspawned]
      exact hidle
  · rw [hasRoomFor_idle hidle] at hroom
    have hrefused : (r.adoptFrom ski (.accepted from_) none).1 = r := by
      simp only [Reception.adoptFrom, hroom]
      repeat' split
      all_goals first | rfl | simp_all
    exact ⟨[], hrefused ▸ hs.adopt ski (.accepted from_) none now, hidle⟩

theorem perform (hs : Shown h r) (hidle : Idle r) (op : HubOp S)
    (hmax : ∀ limit, op ≠ .setMaxConnections limit) :
    ∃ ops, Shown (h.perform op) (Reception.machine.run r ops) ∧ Idle (Reception.machine.run r ops) := by
  by_cases hadopt : ∀ ski origin now, op ≠ .adopt ski origin now
  · obtain ⟨indices, hshown⟩ := hs.narrows (.perform op hadopt hmax)
    refine ⟨_, hshown, ?_⟩
    rw [run_drops]
    exact hidle
  · push Not at hadopt
    obtain ⟨ski, origin, now, rfl⟩ := hadopt
    cases origin with
    | accepted => exact hs.accepted hidle ski ⟨0, 0⟩ now
    | dialed => exact ⟨[.adopt ski], hs.adopt ski (.dialed ⟨0, 0⟩) none now, adoptFrom_idle hidle _ _ _⟩

end Shown

theorem Hub.table_reached {S : Schema} {h : Hub S} {r : Reception} (hs : Shown h r)
    (hidle : Shown.Idle r) (ops : List (HubOp S)) (hmax : ∀ op ∈ ops, ∀ limit, op ≠ .setMaxConnections limit) :
    ∃ receptions, Shown (Hub.machine.run h ops) (Reception.machine.run r receptions) := by
  induction ops generalizing h r with
  | nil => exact ⟨[], hs⟩
  | cons op rest ih =>
    obtain ⟨first, hfirst, hstill⟩ := hs.perform hidle op (hmax op List.mem_cons_self)
    obtain ⟨others, hothers⟩ := ih hfirst hstill fun op' hop => hmax op' (List.mem_cons_of_mem op hop)
    refine ⟨first ++ others, ?_⟩
    rw [Machine.run_append]
    exact hothers

/-- So the loop keeps to the caps as well. -/
theorem Hub.links_within_caps {S : Schema} (ski : Ski) (engine : Engine S) (ops : List (HubOp S))
    (hmax : ∀ op ∈ ops, ∀ limit, op ≠ .setMaxConnections limit) :
    let h := Hub.machine.run (Hub.new ski engine) ops
    h.links.length ≤ defaultMaxConnections ∧
      (∀ peer, (h.links.filter fun link => link.ski == peer).length ≤ maxConnectionsPerPeer) ∧
      ∀ origin : ConnectionOrigin,
        (h.links.filter fun link => link.origin == origin.end_).length ≤ defaultMaxConnections - 1 := by
  have hstart : Shown (Hub.new ski engine) (Reception.new ski defaultMaxConnections) := ⟨rfl, rfl, rfl⟩
  obtain ⟨receptions, hshown⟩ := Hub.table_reached hstart ⟨rfl, rfl⟩ ops hmax
  have hcaps := Reception.run_withinCaps ski defaultMaxConnections receptions
  refine ⟨?_, fun peer => ?_, fun origin => ?_⟩
  · have htotal := hcaps.total
    have hcount := hshown.count fun _ => true
    simp only [List.filter_true] at hcount
    exact hcount ▸ htotal
  · exact (hshown.count fun link => link.1 == peer) ▸ hcaps.perPeer peer
  · exact hshown.held origin ▸ hcaps.reserved (by decide) origin

theorem Hub.links_within_caps_twice :
    (Hub.machine.run (Hub.new 1 (Engine.new (LocalDevice.fromAddress (S := .limitsOnly) "d:_i:1_Gateway"
      "EnergyManagementSystem"))) [.adopt 2 .accepted 0, .adopt 2 .dialed 0]).links.length ≤ defaultMaxConnections :=
  (Hub.links_within_caps 1 _ _ (by
    intro op hop limit h
    obtain rfl | rfl : op = .adopt 2 .accepted 0 ∨ op = .adopt 2 .dialed 0 := by simpa using hop
    · cases h
    · cases h)).1

end Eebus.Runtime
