import Eebus.Runtime.Arbitration

/-! Arbitration and its ping round: whether the connections of a peer are given their time to
answer. -/

namespace Eebus.Runtime

open Eebus.Library Eebus.Model Eebus.Spine
open Eebus.Ship (Ski)

variable {S : Schema}

variable {duplicate : Duplicate} {h : Hub S} {rest : List Duplicate} {now : Nat} {sent : Nat → Bool}

namespace Hub

/-- The connections that a turn of arbitration drops, and why. -/
def drops (h : Hub S) (now : Nat) (sent : Nat → Bool) : List (Link × Disconnect) :=
  (h.arbitrate now sent).dropped.drop h.dropped.length

/-- The connection has had its time: the ping round went out on it a pong's time ago. -/
def Overdue (link : Link) (now : Nat) : Prop :=
  ∃ probed ∈ link.probedAt, probed + pongTimeout ≤ now

/-- Every ping the connection has not answered yet went out less than a pong's time ago. -/
def Prompt (link : Link) (now : Nat) : Prop :=
  link.awaitingPong = true → ∀ probed ∈ link.probedAt, now < probed + pongTimeout

instance (link : Link) (now : Nat) : Decidable (Prompt link now) :=
  inferInstanceAs (Decidable (_ = true → ∀ probed ∈ link.probedAt, _ < probed + _))

/-- One turn of arbitration leaves the connections their time: it drops as unresponsive only what is
overdue, and a peer all of whose connections take their pings and are prompt keeps one of them. -/
structure GivesTime (h : Hub S) (now : Nat) (sent : Nat → Bool) : Prop where
  overdue : ∀ link, (link, .unresponsive) ∈ h.drops now sent → Overdue link now
  kept : ∀ ski, h.linksTo ski ≠ [] →
    (∀ entry ∈ h.links.zipIdx, entry.1.ski = ski → sent entry.2 = true) →
    (∀ link ∈ h.linksTo ski, Prompt link now) → (h.arbitrate now sent).linksTo ski ≠ []

/-- The peer that a turn of arbitration pings. -/
def pinged (h : Hub S) (now : Nat) : Option Ski :=
  (h.duplicates.head?.filter fun duplicate => h.resolution duplicate now = .probe).map Duplicate.ski

/-- The hub, with the ping rounds so far: the peer and the time of each. -/
def rounds : Machine (Hub S × List (Ski × Nat)) (HubOp S) Unit where
  step s op := ((s.1.perform op, match op with
    | .arbitrate now _ => ((s.1.pinged now).map fun ski => (ski, now)).toList ++ s.2
    | _ => s.2), ())

/-- The step lets a ping round run its time: arbitration does not look again at a peer it has pinged, and
that owes it a pong, until a pong's time after that peer's round; and no keep-alive ping goes out on a connection
of that peer that has answered. -/
def WaitsForPongs (s : Hub S × List (Ski × Nat)) : HubOp S → Prop
  | .arbitrate now _ => ∀ duplicate ∈ s.1.duplicates.head?, duplicate.probed = true →
      (∃ link ∈ s.1.linksTo duplicate.ski, link.awaitingPong = true) →
        ∀ round ∈ s.2, round.1 = duplicate.ski → round.2 + pongTimeout ≤ now
  | .keepalive now sent => ∀ entry ∈ s.1.links.zipIdx, entry.1.pingDue now = true →
      sent entry.2 = true → (∃ duplicate ∈ s.1.duplicates, duplicate.ski = entry.1.ski ∧
        duplicate.probed = true) → entry.1.probedAt.isSome = true
  | _ => True

instance (s : Hub S × List (Ski × Nat)) : DecidablePred (WaitsForPongs s)
  | .arbitrate now _ => inferInstanceAs (Decidable (∀ duplicate ∈ s.1.duplicates.head?,
      duplicate.probed = true → (∃ link ∈ s.1.linksTo duplicate.ski, link.awaitingPong = true) →
        ∀ round ∈ s.2, round.1 = duplicate.ski → round.2 + pongTimeout ≤ now))
  | .keepalive now sent => inferInstanceAs (Decidable (∀ entry ∈ s.1.links.zipIdx,
      entry.1.pingDue now = true → sent entry.2 = true →
        (∃ duplicate ∈ s.1.duplicates, duplicate.ski = entry.1.ski ∧ duplicate.probed = true) →
        entry.1.probedAt.isSome = true))
  | .adopt .. | .frame .. | .transmit .. | .interrupt .. | .resume | .engineTimeout ..
  | .expireLinks .. | .pong .. | .close .. | .disconnect .. | .shutdown | .wake ..
  | .setMaxConnections .. | .takeEvent | .takeSpineEvent => .isTrue trivial

theorem rounds_run (s : Hub S × List (Ski × Nat)) (ops : List (HubOp S)) :
    (rounds.run s ops).1 = Hub.machine.run s.1 ops := by
  induction ops generalizing s with
  | nil => rfl
  | cons op ops ih => exact ih (rounds.next s op)

theorem dropLink_dropped (h : Hub S) (index : Nat) (reason : Disconnect) :
    (h.dropLink index reason).dropped =
      h.dropped ++ ((h.links[index]?).map fun link => (link, reason)).toList := by
  simp only [dropLink]
  split
  case h_1 hnone => simp [hnone]
  case h_2 link hlink =>
    simp only [forgetPeerState, emit, forget, hlink]
    cases link.device <;> (dsimp only; split <;> rfl)

theorem dropLinks_dropped (h : Hub S) {indices : List Nat} (hfall : indices.Pairwise fun i j => j < i)
    (reason : Disconnect) : (h.dropLinks indices reason).dropped =
      h.dropped ++ indices.filterMap fun i => (h.links[i]?).map fun link => (link, reason) := by
  induction indices generalizing h with
  | nil => exact (List.append_nil _).symm
  | cons index rest ih =>
    obtain ⟨hbelow, hrest⟩ := List.pairwise_cons.mp hfall
    have hstay : ∀ i ∈ rest, (h.dropLink index reason).links[i]? = h.links[i]? := fun i hi => by
      rw [dropLink_links, List.getElem?_eraseIdx_of_lt (hbelow i hi)]
    change ((h.dropLink index reason).dropLinks rest reason).dropped = _
    rw [ih _ hrest, dropLink_dropped, List.append_assoc]
    congr 1
    rw [List.filterMap_congr fun i hi => by rw [hstay i hi], List.filterMap_cons]
    cases h.links[index]? <;> rfl

theorem pairwise_indices (h : Hub S) (test : Link → Nat → Bool) :
    (h.positions test).Pairwise fun i j => j < i :=
  pairwise_positions _ h.links

theorem mem_dropLinks_positions {test : Link → Nat → Bool} {reason : Disconnect}
    {entry : Link × Disconnect}
    (hentry : entry ∈ (h.dropLinks (h.positions test) reason).dropped.drop h.dropped.length) :
    entry.2 = reason ∧ ∃ i, h.links[i]? = some entry.1 ∧ test entry.1 i = true := by
  rw [dropLinks_dropped h (h.pairwise_indices test), List.drop_left] at hentry
  obtain ⟨i, hi, hat⟩ := List.mem_filterMap.mp hentry
  obtain ⟨⟨link, i'⟩, hmarked, rfl⟩ := List.mem_map.mp (List.mem_reverse.mp hi)
  obtain ⟨hzip, htest⟩ := List.mem_filter.mp hmarked
  rw [List.mem_zipIdx_iff_getElem?.mp hzip, Option.map_some] at hat
  obtain rfl := Option.some.inj hat
  exact ⟨rfl, i', List.mem_zipIdx_iff_getElem?.mp hzip, htest⟩

theorem closeDuplicates_dropped (h : Hub S) (ski : Ski) :
    (h.closeDuplicates ski).dropped = h.dropped := by
  unfold closeDuplicates
  split <;> rfl

/-- A connection of a pinged peer that owes a pong owes it to the ping round. -/
def OwesProbe (h : Hub S) : Prop :=
  ∀ duplicate ∈ h.duplicates, duplicate.probed = true → ∀ link ∈ h.linksTo duplicate.ski,
    link.awaitingPong = true → link.probedAt.isSome = true

/-- The unanswered pings of arbitration went out in the ping rounds of their peer. -/
def PingsLogged (s : Hub S × List (Ski × Nat)) : Prop :=
  ∀ link ∈ s.1.links, ∀ probed ∈ link.probedAt, (link.ski, probed) ∈ s.2

/-- What a step may do without touching a ping round: mark no further peer as pinged, and leave
every connection of the table owing no more than it did. -/
structure Calm (h h' : Hub S) : Prop where
  duplicates : ∀ duplicate ∈ h'.duplicates, duplicate.probed = true → duplicate ∈ h.duplicates
  links : ∀ link' ∈ h'.links, link'.awaitingPong = true →
    ∃ link ∈ h.links, link.ski = link'.ski ∧ link.awaitingPong = true ∧
      (link.probedAt.isSome = true → link'.probedAt.isSome = true)
  pings : ∀ link' ∈ h'.links, ∀ probed ∈ link'.probedAt,
    ∃ link ∈ h.links, link.ski = link'.ski ∧ probed ∈ link.probedAt

namespace Calm

variable {h h' h'' : Hub S}

theorem refl (h : Hub S) : Calm h h :=
  ⟨fun _ hd _ => hd, fun link hlink hawaits => ⟨link, hlink, rfl, hawaits, id⟩,
    fun link hlink _ hprobed => ⟨link, hlink, rfl, hprobed⟩⟩

theorem trans (a : Calm h h') (b : Calm h' h'') : Calm h h'' where
  duplicates d hd hp := a.duplicates d (b.duplicates d hd hp) hp
  links link'' hlink'' hawaits := by
    obtain ⟨link', hlink', hski', hawaits', hprobed'⟩ := b.links link'' hlink'' hawaits
    obtain ⟨link, hlink, hski, hawaits, hprobed⟩ := a.links link' hlink' hawaits'
    exact ⟨link, hlink, hski.trans hski', hawaits, fun h => hprobed' (hprobed h)⟩
  pings link'' hlink'' probed hprobed'' := by
    obtain ⟨link', hlink', hski', hprobed'⟩ := b.pings link'' hlink'' probed hprobed''
    obtain ⟨link, hlink, hski, hprobed⟩ := a.pings link' hlink' probed hprobed'
    exact ⟨link, hlink, hski.trans hski', hprobed⟩

theorem owesProbe (a : Calm h h') (howes : h.OwesProbe) : h'.OwesProbe := by
  intro d hd hp link' hlink' hawaits
  obtain ⟨hmem, hski'⟩ := List.mem_filter.mp hlink'
  obtain ⟨link, hlink, hski, howed, hprobed⟩ := a.links link' hmem hawaits
  refine hprobed (howes d (a.duplicates d hd hp) hp link (List.mem_filter.mpr ⟨hlink, ?_⟩) howed)
  rw [hski]
  exact hski'

theorem pingsLogged (a : Calm h h') {rounds : List (Ski × Nat)} (hlogged : PingsLogged (h, rounds)) :
    PingsLogged (h', rounds) := by
  intro link' hlink' probed hprobed'
  obtain ⟨link, hlink, hski, hprobed⟩ := a.pings link' hlink' probed hprobed'
  exact hski ▸ hlogged link hlink probed hprobed

theorem of_subset (hd : ∀ d ∈ h'.duplicates, d ∈ h.duplicates) (hl : ∀ l ∈ h'.links, l ∈ h.links) :
    Calm h h' :=
  ⟨fun d hd' _ => hd d hd', fun link hlink hawaits => ⟨link, hl link hlink, rfl, hawaits, id⟩,
    fun link hlink _ hprobed => ⟨link, hl link hlink, rfl, hprobed⟩⟩

theorem updateLink (h : Hub S) (index : Nat) {g : Link → Link}
    (hg : ∀ link, (g link).ski = link.ski ∧
      ((g link).awaitingPong = true → link.awaitingPong = true ∧ (g link).probedAt = link.probedAt) ∧
      ∀ probed ∈ (g link).probedAt, probed ∈ link.probedAt) :
    Calm h (h.updateLink index g) := by
  have hfrom : ∀ link' ∈ (h.updateLink index g).links, ∃ link ∈ h.links, link' = link ∨ link' = g link := by
    intro link' hlink'
    obtain ⟨i, hi⟩ := List.mem_iff_getElem?.mp hlink'
    simp only [Hub.updateLink, List.getElem?_modify] at hi
    obtain ⟨link, hlink, heq⟩ := Option.map_eq_some_iff.mp hi
    refine ⟨link, List.mem_of_getElem? hlink, ?_⟩
    split at heq
    · exact .inr heq.symm
    · exact .inl heq.symm
  refine ⟨fun _ hd _ => hd, fun link' hlink' hawaits => ?_, fun link' hlink' probed hprobed => ?_⟩
  · obtain ⟨link, hlink, rfl | rfl⟩ := hfrom link' hlink'
    · exact ⟨link', hlink, rfl, hawaits, id⟩
    · obtain ⟨hski, hping, -⟩ := hg link
      obtain ⟨hold, hprobed⟩ := hping hawaits
      exact ⟨link, hlink, hski.symm, hold, by simp [hprobed]⟩
  · obtain ⟨link, hlink, rfl | rfl⟩ := hfrom link' hlink'
    · exact ⟨link', hlink, rfl, hprobed⟩
    · exact ⟨link, hlink, (hg link).1.symm, (hg link).2.2 probed hprobed⟩

theorem dropLink (h : Hub S) (index : Nat) (reason : Disconnect) :
    Calm h (h.dropLink index reason) := by
  refine of_subset (fun d hd => ?_) fun l hl => ?_
  · simp only [Hub.dropLink] at hd
    split at hd
    · exact hd
    · rename_i link hlink
      simp only [forgetPeerState, emit, forget] at hd
      cases hdevice : link.device <;> simp only [hdevice] at hd <;> split at hd
      all_goals first
        | exact hd
        | exact (List.mem_filter.mp hd).1
  · rw [dropLink_links] at hl
    exact List.mem_of_mem_eraseIdx hl

theorem dropLinks (h : Hub S) (indices : List Nat) (reason : Disconnect) :
    Calm h (h.dropLinks indices reason) := by
  induction indices generalizing h with
  | nil => exact refl h
  | cons index rest ih => exact (dropLink h index reason).trans (ih (h.dropLink index reason))

theorem forget (h : Hub S) (ski : Ski) : Calm h (h.forget ski) :=
  of_subset (fun _ hd => (List.mem_filter.mp hd).1) fun _ hl => hl

theorem closeDuplicates (h : Hub S) (ski : Ski) : Calm h (h.closeDuplicates ski) := by
  refine of_subset (fun d hd => ?_) fun l hl => ?_
  · simp only [Hub.closeDuplicates] at hd
    split at hd
    · exact (List.mem_filter.mp hd).1
    · exact (List.mem_filter.mp hd).1
  · simp only [Hub.closeDuplicates] at hl
    split at hl
    · exact hl
    · obtain ⟨e, he, rfl⟩ := List.mem_map.mp hl
      exact List.fst_mem_of_mem_zipIdx (List.mem_filter.mp he).1

theorem of_table (hd : h'.duplicates = h.duplicates) (hl : h'.links = h.links) : Calm h h' :=
  of_subset (fun _ hd' => hd ▸ hd') fun _ hl' => hl ▸ hl'

theorem adopt (h : Hub S) (ski : Ski) (origin : Origin) (now : Nat) :
    Calm h (h.adopt ski origin now).1 := by
  unfold Hub.adopt
  dsimp only
  split
  · exact refl h
  split
  · exact refl h
  refine ⟨fun d hd hp => ?_, fun link hlink hawaits => ?_, fun link hlink probed hprobed => ?_⟩
  · simp only [emit] at hd
    split at hd
    · rcases List.mem_append.mp hd with hd | hd
      · exact hd
      · rw [List.mem_singleton.mp hd] at hp
        simp at hp
    · exact hd
  · simp only [emit] at hlink
    rcases List.mem_append.mp hlink with hlink | hlink
    · exact ⟨link, hlink, rfl, hawaits, id⟩
    · rw [List.mem_singleton.mp hlink] at hawaits
      simp at hawaits
  · simp only [emit] at hlink
    rcases List.mem_append.mp hlink with hlink | hlink
    · exact ⟨link, hlink, rfl, hprobed⟩
    · rw [List.mem_singleton.mp hlink] at hprobed
      cases hprobed

theorem settleBootstrap (h : Hub S) (index : Nat) (datagram : Datagram S) :
    Calm h (h.settleBootstrap index datagram) := by
  unfold Hub.settleBootstrap
  split
  · exact refl h
  · exact updateLink h index fun _ => ⟨rfl, fun h => ⟨h, rfl⟩, fun _ h => h⟩

theorem announce (h : Hub S) (index now : Nat) : Calm h (h.announce index now) := by
  unfold Hub.announce
  repeat' split
  · exact refl h
  · exact refl h
  · have hmarked : Calm h (h.updateLink index fun link => { link with announced := true }) :=
      updateLink h index fun _ => ⟨rfl, fun h => ⟨h, rfl⟩, fun _ h => h⟩
    exact hmarked.trans (of_table rfl rfl)
  · exact refl h

theorem bindLink {index : Nat} {datagram : Datagram S}
    (hbind : h.bindLink index datagram = some h') : Calm h h' := by
  unfold Hub.bindLink at hbind
  repeat' split at hbind
  · cases hbind
    exact refl h
  · simp at hbind
  · cases hbind
    exact refl h
  · simp at hbind
  · cases hbind
    exact updateLink h index fun _ => ⟨rfl, fun h => ⟨h, rfl⟩, fun _ h => h⟩

theorem receive (h : Hub S) (index : Nat) (datagram : Datagram S) (now : Nat) :
    Calm h (h.receive index datagram now).1 := by
  unfold Hub.receive
  split
  · exact refl h
  · rename_i g hbind
    have hengine : Calm (g.settleBootstrap index datagram) { g.settleBootstrap index datagram with
        engine := ((g.settleBootstrap index datagram).engine.handleDatagram datagram now).1 } :=
      of_table rfl rfl
    exact (bindLink hbind).trans ((settleBootstrap g index datagram).trans
      (hengine.trans (announce _ index now)))

theorem frame (h : Hub S) (index : Nat) (read : Hub.Frame S) (now : Nat) :
    Calm h (h.frame index read now) := by
  have hseen : Calm h (h.updateLink index fun link => { link with lastSeen := now, pingedAt := none }) :=
    updateLink h index fun _ => ⟨rfl, fun h => ⟨h, rfl⟩, fun _ h => h⟩
  unfold Hub.frame
  split
  · exact refl h
  · cases read with
    | unreadable => exact dropLink h index .remote
    | data datagram =>
      have hreceived := hseen.trans (receive _ index datagram now)
      dsimp only
      split
      · rename_i g reason hreceive
        rw [hreceive] at hreceived
        exact hreceived.trans (dropLink g index reason)
      · rename_i g hreceive
        rw [hreceive] at hreceived
        exact hreceived
    | unparsed => exact hseen
    | refused | ended => exact hseen.trans (dropLink _ index .remote)

theorem transmit (h : Hub S) (sent : Bool) : Calm h (h.transmit sent) := by
  unfold Hub.transmit
  split
  · exact refl h
  · rename_i datagram rest houtbox
    have hsent : Calm h { h with engine := { h.engine with outbox := rest } } := of_table rfl rfl
    dsimp only
    split
    · exact hsent
    · split
      · exact hsent
      · exact hsent.trans (dropLink _ _ .remote)

theorem resume (h : Hub S) : Calm h h.resume := by
  unfold Hub.resume
  split
  · exact refl h
  · have hcleared : Calm h { h with writing := none } := of_table rfl rfl
    dsimp only
    split
    · exact hcleared.trans (dropLink _ _ .interruptedWrite)
    · exact hcleared

theorem expireLinks (h : Hub S) (now : Nat) : Calm h (h.expireLinks now) := by
  have hchecked : Calm h { h with links := h.links.map fun link => (link.keepalive now).1 } := by
    refine ⟨fun _ hd _ => hd, fun link' hlink' hawaits => ?_, fun link' hlink' probed hprobed => ?_⟩
    · obtain ⟨link, hlink, rfl⟩ := List.mem_map.mp hlink'
      refine ⟨link, hlink, ?_⟩
      simp only [Link.keepalive] at hawaits ⊢
      split at hawaits
      · exact ⟨by split <;> rfl, hawaits, by split <;> exact id⟩
      · exact ⟨by split <;> rfl, hawaits, by split <;> exact id⟩
    · obtain ⟨link, hlink, rfl⟩ := List.mem_map.mp hlink'
      refine ⟨link, hlink, ?_⟩
      simp only [Link.keepalive] at hprobed ⊢
      split at hprobed
      · exact ⟨by split <;> rfl, hprobed⟩
      · exact ⟨by split <;> rfl, hprobed⟩
  unfold Hub.expireLinks
  dsimp only
  split
  · exact (hchecked.trans (dropLinks _ _ .unresponsive)).trans (of_table rfl rfl)
  · exact hchecked.trans (dropLinks _ _ .unresponsive)

theorem pong (h : Hub S) (index : Nat) : Calm h (h.pong index) :=
  updateLink h index fun _ => ⟨rfl, fun h => by simp at h, by simp⟩

end Calm

theorem mem_mapIdx_links {f : Nat → Link → Link} {link' : Link}
    (hlink' : link' ∈ h.links.mapIdx f) : ∃ i link, h.links[i]? = some link ∧ link' = f i link := by
  obtain ⟨i, hi⟩ := List.mem_iff_getElem?.mp hlink'
  rw [List.getElem?_mapIdx] at hi
  obtain ⟨link, hlink, rfl⟩ := Option.map_eq_some_iff.mp hi
  exact ⟨i, link, hlink, rfl⟩

theorem keepalive_owesProbe {rounds : List (Ski × Nat)}
    (howes : h.OwesProbe) (hwaits : WaitsForPongs (h, rounds) (.keepalive now sent)) :
    (h.keepalive now sent).OwesProbe := by
  refine (Calm.dropLinks _ _ .remote).owesProbe fun d hd hp link' hlink' hawaits => ?_
  obtain ⟨hmem, hski⟩ := List.mem_filter.mp hlink'
  obtain ⟨i, link, hlink, rfl⟩ := mem_mapIdx_links hmem
  split at hski
  case isTrue hping =>
    rw [if_pos hping]
    obtain ⟨hdue, hsent⟩ := Bool.and_eq_true_iff.mp hping
    exact hwaits (link, i) (List.mem_zipIdx_iff_getElem?.mpr hlink) hdue hsent
      ⟨d, hd, (beq_iff_eq.mp hski).symm, hp⟩
  case isFalse hping =>
    rw [if_neg hping] at hawaits ⊢
    exact howes d hd hp link (List.mem_filter.mpr ⟨List.mem_of_getElem? hlink, hski⟩) hawaits

theorem keepalive_pingsLogged {rounds : List (Ski × Nat)} (hlogged : PingsLogged (h, rounds))
    (now : Nat) (sent : Nat → Bool) : PingsLogged (h.keepalive now sent, rounds) := by
  refine (Calm.dropLinks _ _ .remote).pingsLogged fun link' hlink' probed hprobed => ?_
  obtain ⟨i, link, hlink, rfl⟩ := mem_mapIdx_links hlink'
  have hold := hlogged link (List.mem_of_getElem? hlink) probed
  split at hprobed
  case isTrue hping => exact (if_pos hping).symm ▸ hold hprobed
  case isFalse hping => exact (if_neg hping).symm ▸ hold hprobed

def probed (ski : Ski) (now : Nat) (sent : Nat → Bool) (index : Nat) (link : Link) : Link :=
  if link.ski == ski then
    let link := (link.keepalive now).1
    if sent index then { link with awaitingPong := true, probedAt := some now } else link
  else link

theorem probed_ski (ski : Ski) (now : Nat) (sent : Nat → Bool) (index : Nat) (link : Link) :
    (probed ski now sent index link).ski = link.ski := by
  unfold probed Link.keepalive
  dsimp only
  split
  · split <;> split <;> rfl
  · rfl

theorem probed_probedAt {ski : Ski} {index : Nat} {link : Link} {t : Nat}
    (h : t ∈ (probed ski now sent index link).probedAt) :
    (link.ski = ski ∧ t = now) ∨ t ∈ link.probedAt := by
  have hanswered : (link.keepalive now).1.probedAt = link.probedAt := by
    simp only [Link.keepalive]
    split <;> rfl
  unfold probed at h
  dsimp only at h
  split at h
  case isTrue hpeer =>
    split at h
    · exact .inl ⟨beq_iff_eq.mp hpeer, (Option.some.inj h).symm⟩
    · exact .inr (hanswered ▸ h)
  case isFalse => exact .inr h

def markProbed (h : Hub S) (ski : Ski) : List Duplicate :=
  modifyFirst (fun d => d.ski == ski) (fun d _ => { d with probed := true }) h.duplicates

theorem mem_markProbed {ski : Ski} {d : Duplicate} (hd : d ∈ h.markProbed ski) :
    d ∈ h.duplicates ∨ d.ski = ski := by
  unfold markProbed at hd
  generalize h.duplicates = duplicates at hd ⊢
  induction duplicates with
  | nil => simp at hd
  | cons first rest ih =>
    cases hfirst : first.ski == ski with
    | true =>
      rw [modifyFirst_cons_pos rest hfirst] at hd
      rcases List.mem_cons.mp hd with rfl | hd
      · exact .inr (beq_iff_eq.mp hfirst)
      · exact .inl (List.mem_cons_of_mem _ hd)
    | false =>
      rw [modifyFirst_cons_neg rest hfirst] at hd
      rcases List.mem_cons.mp hd with rfl | hd
      · exact .inl List.mem_cons_self
      · exact (ih hd).imp_left (List.mem_cons_of_mem _)

theorem arbitrate_probe
    (hd : h.duplicates = duplicate :: rest) (hr : h.resolution duplicate now = .probe)
    (sent : Nat → Bool) :
    h.arbitrate now sent =
      ({ h with
          links := h.links.mapIdx (probed duplicate.ski now sent)
          duplicates := h.markProbed duplicate.ski }.dropLinks
        (h.positions fun link index => link.ski == duplicate.ski && !sent index) .remote).wake
          (now + pongTimeout) := by
  simp only [resolution, linksTo] at hr
  simp only [arbitrate, hd, hr]
  simp only [markProbed, hd]
  rfl

theorem arbitrate_probe_links
    (hd : h.duplicates = duplicate :: rest) (hr : h.resolution duplicate now = .probe)
    (sent : Nat → Bool) :
    (h.arbitrate now sent).links = ((h.links.mapIdx (probed duplicate.ski now sent)).zipIdx.filter
      fun e => !(e.1.ski == duplicate.ski && !sent e.2)).map Prod.fst := by
  rw [arbitrate_probe hd hr]
  generalize hg : ({ h with
      links := h.links.mapIdx (probed duplicate.ski now sent)
      duplicates := h.markProbed duplicate.ski } : Hub S) = g
  have hglinks : g.links = h.links.mapIdx (probed duplicate.ski now sent) := by rw [← hg]
  have hpositions : h.positions (fun link index => link.ski == duplicate.ski && !sent index) =
      g.positions fun link index => link.ski == duplicate.ski && !sent index := by
    unfold positions
    rw [hglinks, positions_mapIdx (p := fun link index => link.ski == duplicate.ski && !sent index)
      h.links fun i link => by rw [probed_ski]]
  change (g.dropLinks _ _).links = _
  rw [hpositions, dropLinks_positions, hglinks]

theorem probe_owesProbe (howes : h.OwesProbe) (hd : h.duplicates = duplicate :: rest)
    (hr : h.resolution duplicate now = .probe) : (h.arbitrate now sent).OwesProbe := by
  intro d hd' hp link' hlink' hawaits
  obtain ⟨hmem, hski⟩ := List.mem_filter.mp hlink'
  have hmark : d ∈ h.markProbed duplicate.ski := by
    rw [arbitrate_probe hd hr] at hd'
    exact (Calm.dropLinks _ _ .remote).duplicates d hd' hp
  rw [arbitrate_probe_links hd hr] at hmem
  obtain ⟨⟨link', i⟩, he, rfl⟩ := List.mem_map.mp hmem
  obtain ⟨hzip, hkept⟩ := List.mem_filter.mp he
  have hat : (h.links.mapIdx (probed duplicate.ski now sent))[i]? = some link' :=
    List.mem_zipIdx_iff_getElem?.mp hzip
  rw [List.getElem?_mapIdx] at hat
  obtain ⟨link, hlink, rfl⟩ := Option.map_eq_some_iff.mp hat
  simp only [probed_ski] at hkept hski
  by_cases hpeer : link.ski == duplicate.ski
  · have hsent : sent i = true := by simpa [hpeer] using hkept
    simp [probed, hpeer, hsent]
  · have hsame : probed duplicate.ski now sent i link = link := by simp [probed, hpeer]
    rw [hsame] at hawaits ⊢
    rcases mem_markProbed hmark with hold | hother
    · exact howes d hold hp link (List.mem_filter.mpr ⟨List.mem_of_getElem? hlink, hski⟩) hawaits
    · exact absurd (by rw [← hother]; exact hski) hpeer

theorem arbitrate_owesProbe (howes : h.OwesProbe) (now : Nat) (sent : Nat → Bool) :
    (h.arbitrate now sent).OwesProbe := by
  cases hd : h.duplicates with
  | nil =>
    have hsame : h.arbitrate now sent = h := by simp [arbitrate, hd]
    rw [hsame]
    exact howes
  | cons duplicate rest =>
    cases hr : h.resolution duplicate now with
    | settled =>
      rw [arbitrate_settled hd hr]
      exact (Calm.forget h duplicate.ski).owesProbe howes
    | keepNewest =>
      rw [arbitrate_keepNewest hd hr]
      exact (Calm.closeDuplicates h _).owesProbe howes
    | wait until_ =>
      rw [arbitrate_wait hd hr]
      exact (Calm.of_table rfl rfl).owesProbe howes
    | probe => exact probe_owesProbe howes hd hr
    | closeAfterProbe =>
      rw [arbitrate_closeAfterProbe hd hr]
      exact ((Calm.dropLinks h _ .unresponsive).trans (Calm.closeDuplicates _ _)).owesProbe howes

theorem arbitrate_pingsLogged {rounds : List (Ski × Nat)} (hlogged : PingsLogged (h, rounds)) (now : Nat)
    (sent : Nat → Bool) :
    PingsLogged (h.arbitrate now sent,
      ((h.pinged now).map fun ski => (ski, now)).toList ++ rounds) := by
  have hlogged' : PingsLogged (h, ((h.pinged now).map fun ski => (ski, now)).toList ++ rounds) :=
    fun link hlink probed hprobed => List.mem_append_right _ (hlogged link hlink probed hprobed)
  cases hd : h.duplicates with
  | nil =>
    have hsame : h.arbitrate now sent = h := by simp [arbitrate, hd]
    rw [hsame]
    exact hlogged'
  | cons duplicate rest =>
    cases hr : h.resolution duplicate now with
    | settled =>
      rw [arbitrate_settled hd hr]
      exact (Calm.forget h duplicate.ski).pingsLogged hlogged'
    | keepNewest =>
      rw [arbitrate_keepNewest hd hr]
      exact (Calm.closeDuplicates h _).pingsLogged hlogged'
    | wait until_ =>
      rw [arbitrate_wait hd hr]
      exact (Calm.of_table rfl rfl).pingsLogged hlogged'
    | probe =>
      have hpinged : h.pinged now = some duplicate.ski := by simp [pinged, hd, hr]
      rw [arbitrate_probe hd hr, hpinged]
      refine (Calm.trans (Calm.dropLinks _ _ .remote) (Calm.of_table rfl rfl)).pingsLogged ?_
      intro link' hlink' t ht
      obtain ⟨i, link, hlink, rfl⟩ := mem_mapIdx_links hlink'
      rw [probed_ski]
      rcases probed_probedAt ht with ⟨hpeer, rfl⟩ | hold
      · exact hpeer ▸ List.mem_cons_self
      · exact List.mem_cons_of_mem _ (hlogged link (List.mem_of_getElem? hlink) t hold)
    | closeAfterProbe =>
      rw [arbitrate_closeAfterProbe hd hr]
      exact ((Calm.dropLinks h _ .unresponsive).trans (Calm.closeDuplicates _ _)).pingsLogged hlogged'

theorem rounds_next {s : Hub S × List (Ski × Nat)} (howes : s.1.OwesProbe) (hlogged : PingsLogged s) (op : HubOp S)
    (hwaits : WaitsForPongs s op) :
    (rounds.next s op).1.OwesProbe ∧ PingsLogged (rounds.next s op) := by
  obtain ⟨h, times⟩ := s
  have hcalm : ∀ {h' : Hub S}, Calm h h' → h'.OwesProbe ∧ PingsLogged (h', times) :=
    fun calm => ⟨calm.owesProbe howes, calm.pingsLogged hlogged⟩
  cases op with
  | adopt ski origin now => exact hcalm (Calm.adopt h ski origin now)
  | frame index read now => exact hcalm (Calm.frame h index read now)
  | transmit sent => exact hcalm (Calm.transmit h sent)
  | resume => exact hcalm (Calm.resume h)
  | expireLinks now => exact hcalm (Calm.expireLinks h now)
  | keepalive now sent =>
    exact ⟨keepalive_owesProbe howes hwaits, keepalive_pingsLogged hlogged now sent⟩
  | pong index => exact hcalm (Calm.pong h index)
  | arbitrate now sent => exact ⟨arbitrate_owesProbe howes now sent, arbitrate_pingsLogged hlogged now sent⟩
  | close ski => exact hcalm (Calm.dropLinks h _ .local_)
  | disconnect ski =>
    exact hcalm (Calm.of_subset (fun _ hd => (List.mem_filter.mp hd).1)
      fun _ hl => (List.mem_filter.mp hl).1)
  | shutdown => exact hcalm (Calm.of_subset (fun _ hd => nomatch hd) fun _ hl => nomatch hl)
  | interrupt | engineTimeout | wake | setMaxConnections | takeEvent | takeSpineEvent =>
    exact hcalm (Calm.of_table rfl rfl)

theorem probed_of_closeAfterProbe
    (hr : h.resolution duplicate now = .closeAfterProbe) : duplicate.probed = true := by
  simp only [resolution, resolve] at hr
  by_contra hnot
  repeat' split at hr
  all_goals simp_all

/-- Arbitration drops as unresponsive nothing but connections that await a pong, of a peer whose ping
round it takes for over. -/
theorem unresponsive_drops {link : Link} (hdropped : (link, .unresponsive) ∈ h.drops now sent) :
    ∃ duplicate rest, h.duplicates = duplicate :: rest ∧
      h.resolution duplicate now = .closeAfterProbe ∧ link ∈ h.linksTo duplicate.ski ∧
      link.awaitingPong = true := by
  have hquiet : (h.arbitrate now sent).dropped ≠ h.dropped := fun hsame => by
    rw [drops, hsame, List.drop_length] at hdropped
    cases hdropped
  cases hd : h.duplicates with
  | nil => exact absurd (by simp [arbitrate, hd]) hquiet
  | cons duplicate rest =>
    refine ⟨duplicate, rest, rfl, ?_⟩
    cases hr : h.resolution duplicate now with
    | settled => exact absurd (by rw [arbitrate_settled hd hr]; rfl) hquiet
    | keepNewest =>
      exact absurd (by rw [arbitrate_keepNewest hd hr, closeDuplicates_dropped]) hquiet
    | wait until_ => exact absurd (by rw [arbitrate_wait hd hr]; rfl) hquiet
    | probe =>
      -- whoever cannot be pinged has gone, but not for being late
      rw [drops, arbitrate_probe hd hr] at hdropped
      change _ ∈ (Hub.dropLinks _ _ _).dropped.drop _ at hdropped
      rw [dropLinks_dropped _ (h.pairwise_indices _), List.drop_left] at hdropped
      obtain ⟨i, -, hat⟩ := List.mem_filterMap.mp hdropped
      obtain ⟨_, -, hreason⟩ := Option.map_eq_some_iff.mp hat
      cases hreason
    | closeAfterProbe =>
      rw [drops, arbitrate_closeAfterProbe hd hr, closeDuplicates_dropped] at hdropped
      obtain ⟨-, i, hat, htest⟩ := mem_dropLinks_positions hdropped
      obtain ⟨hski, hawaits⟩ := Bool.and_eq_true_iff.mp htest
      exact ⟨rfl, List.mem_filter.mpr ⟨List.mem_of_getElem? hat, hski⟩, hawaits⟩

theorem linksTo_arbitrate_other
    (hd : h.duplicates = duplicate :: rest) {ski : Ski} (hother : ski ≠ duplicate.ski)
    (hprobe : h.resolution duplicate now ≠ .probe) (sent : Nat → Bool) :
    (h.arbitrate now sent).linksTo ski = h.linksTo ski := by
  have hcloses : ∀ g : Hub S, (g.closeDuplicates duplicate.ski).linksTo ski = g.linksTo ski := by
    intro g
    cases hnewest : g.newest duplicate.ski with
    | none =>
      simp only [closeDuplicates, hnewest]
      rfl
    | some keep =>
      rw [linksTo, g.closeDuplicates_links hnewest, List.filter_map, List.filter_filter, linksTo_eq_map]
      congr 1
      refine List.filter_congr fun e _ => ?_
      by_cases hski : e.1.ski = ski
      · simp [doomed, hski, hother]
      · simp [hski]
  cases hr : h.resolution duplicate now with
  | settled =>
    rw [arbitrate_settled hd hr]
    rfl
  | keepNewest =>
    rw [arbitrate_keepNewest hd hr]
    exact hcloses h
  | wait until_ =>
    rw [arbitrate_wait hd hr]
    rfl
  | probe => exact absurd hr hprobe
  | closeAfterProbe =>
    rw [arbitrate_closeAfterProbe hd hr, hcloses, linksTo, dropLinks_positions,
      map_fst_filter_zipIdx (fun link : Link => !(link.ski == duplicate.ski && link.awaitingPong)),
      List.filter_filter]
    refine List.filter_congr fun link _ => ?_
    by_cases hski : link.ski = ski
    · simp [hski, hother]
    · simp [hski]

theorem linksTo_arbitrate_probe {ski : Ski} (hd : h.duplicates = duplicate :: rest)
    (hr : h.resolution duplicate now = .probe)
    (hsent : ∀ entry ∈ h.links.zipIdx, entry.1.ski = ski → sent entry.2 = true) (hsome : h.linksTo ski ≠ []) :
    (h.arbitrate now sent).linksTo ski ≠ [] := by
  obtain ⟨link, hlink⟩ := List.exists_mem_of_ne_nil _ hsome
  obtain ⟨hmem, hski⟩ := List.mem_filter.mp hlink
  obtain ⟨i, hi⟩ := List.mem_iff_getElem?.mp hmem
  have hpinged : sent i = true :=
    hsent (link, i) (List.mem_zipIdx_iff_getElem?.mpr hi) (beq_iff_eq.mp hski)
  have hkept : probed duplicate.ski now sent i link ∈ (h.arbitrate now sent).links := by
    rw [arbitrate_probe_links hd hr]
    refine List.mem_map.mpr ⟨(probed duplicate.ski now sent i link, i), List.mem_filter.mpr ⟨?_, ?_⟩, rfl⟩
    · rw [List.mem_zipIdx_iff_getElem?, List.getElem?_mapIdx, hi]
      rfl
    · simp [hpinged]
  exact List.ne_nil_of_mem (List.mem_filter.mpr ⟨hkept, by rwa [probed_ski]⟩)

theorem givesTime {rounds : List (Ski × Nat)} (howes : h.OwesProbe) (hlogged : PingsLogged (h, rounds))
    (hwaits : WaitsForPongs (h, rounds) (.arbitrate now sent)) : h.GivesTime now sent := by
  have hover : ∀ {duplicate : Duplicate} {rest : List Duplicate} {link : Link},
      h.duplicates = duplicate :: rest → h.resolution duplicate now = .closeAfterProbe →
      link ∈ h.linksTo duplicate.ski → link.awaitingPong = true → Overdue link now := by
    intro duplicate rest link hd hr hlink hawaits
    have hprobed := probed_of_closeAfterProbe hr
    have hmem : duplicate ∈ h.duplicates := hd ▸ List.mem_cons_self
    obtain ⟨t, ht⟩ := Option.isSome_iff_exists.mp (howes duplicate hmem hprobed link hlink hawaits)
    obtain ⟨hof, hski⟩ := List.mem_filter.mp hlink
    exact ⟨t, ht, hwaits duplicate (by simp [hd]) hprobed ⟨link, hlink, hawaits⟩ (link.ski, t)
      (hlogged link hof t ht) (beq_iff_eq.mp hski)⟩
  refine ⟨fun link hdropped => ?_, fun ski hsome hsent hprompt => ?_⟩
  · obtain ⟨duplicate, rest, hd, hr, hlink, hawaits⟩ := unresponsive_drops hdropped
    exact hover hd hr hlink hawaits
  · cases hd : h.duplicates with
    | nil => simpa [arbitrate, hd] using hsome
    | cons duplicate rest =>
      by_cases hprobe : h.resolution duplicate now = .probe
      · exact linksTo_arbitrate_probe hd hprobe hsent hsome
      · by_cases hother : ski = duplicate.ski
        · subst hother
          cases hr : h.resolution duplicate now with
          | settled =>
            rw [arbitrate_settled hd hr]
            exact hsome
          | keepNewest =>
            rw [arbitrate_keepNewest hd hr]
            rcases h.closeDuplicates_linksTo duplicate.ski with ⟨hnone, -⟩ | ⟨link, -, hleft, -⟩
            · exact absurd hnone hsome
            · simp [hleft]
          | wait until_ =>
            rw [arbitrate_wait hd hr]
            exact hsome
          | probe => exact absurd hr hprobe
          | closeAfterProbe =>
            rw [arbitrate_closeAfterProbe hd hr]
            rcases closeDuplicates_linksTo (h.dropLinks (h.positions fun link _ =>
                link.ski == duplicate.ski && link.awaitingPong) .unresponsive) duplicate.ski with
              ⟨hnone, -⟩ | ⟨link, -, hleft, -⟩
            · -- nothing has answered, so every connection is overdue, and not prompt
              rw [linksTo_drop_unanswered] at hnone
              obtain ⟨link, hlink⟩ := List.exists_mem_of_ne_nil _ hsome
              have hawaits : link.awaitingPong = true := by
                simpa using List.filter_eq_nil_iff.mp hnone link hlink
              obtain ⟨t, ht, hlate⟩ := hover hd hr hlink hawaits
              have htime := hprompt link hlink hawaits t ht
              omega
            · simp [hleft]
        · rw [linksTo_arbitrate_other hd hother hprobe]
          exact hsome

end Hub

/-- In every run of the hub whose steps wait for the pongs of a ping round, arbitration drops a
connection as unresponsive only once its time to answer is over, and a peer whose connections are
prompt keeps one of them. -/
theorem arbitration_gives_pongs_time (ski : Ski) (engine : Engine S) (ops : List (HubOp S))
    (hrun : Hub.rounds.Admits Hub.WaitsForPongs (Hub.new ski engine, []) ops) :
    ∀ before now sent, before ++ [.arbitrate now sent] <+: ops →
      (Hub.machine.run (Hub.new ski engine) before).GivesTime now sent := by
  intro before now sent hprefix
  have hadmits := Hub.rounds.admits_prefix hrun hprefix
  rw [Hub.rounds.admits_append] at hadmits
  obtain ⟨howes, hlogged⟩ : (Hub.rounds.run (Hub.new ski engine, []) before).1.OwesProbe ∧
      Hub.PingsLogged (Hub.rounds.run (Hub.new ski engine, []) before) :=
    Hub.rounds.run_invariant Hub.WaitsForPongs (fun s => s.1.OwesProbe ∧ Hub.PingsLogged s)
      (fun s op hs hop => Hub.rounds_next hs.1 hs.2 op hop) before _
      ⟨by simp [Hub.OwesProbe, Hub.new], by simp [Hub.PingsLogged, Hub.new]⟩ hadmits.1
  rw [← Hub.rounds_run (Hub.new ski engine, []) before]
  exact Hub.givesTime howes hlogged hadmits.2.1

def probedOps : List (HubOp Schema.limitsOnly) :=
  [.adopt 2 .accepted 0, .adopt 2 .dialed (fromSecs 1), .adopt 3 .accepted (fromSecs 1),
    .arbitrate (fromSecs 5) fun _ => true]

def answeredOps : List (HubOp Schema.limitsOnly) := probedOps ++ [.pong 1]

theorem arbitration_gives_pongs_time_heatPump :
    Hub.rounds.Admits Hub.WaitsForPongs (smallGateway, [])
        (answeredOps ++ [.arbitrate (fromSecs 15) fun _ => true]) ∧
      (Hub.machine.run smallGateway answeredOps).GivesTime (fromSecs 15) (fun _ => true) ∧
      ((Hub.machine.run smallGateway answeredOps).drops (fromSecs 15) fun _ => true).map Prod.snd =
        [.unresponsive] ∧
      (((Hub.machine.run smallGateway answeredOps).arbitrate (fromSecs 15) fun _ => true).linksTo
        2).map Link.opened = [fromSecs 1] := by
  have hadmits : Hub.rounds.Admits Hub.WaitsForPongs (smallGateway, [])
      (answeredOps ++ [.arbitrate (fromSecs 15) fun _ => true]) := by decide +kernel
  exact ⟨hadmits, arbitration_gives_pongs_time 1 gatewayEngine _ hadmits answeredOps (fromSecs 15)
    (fun _ => true) (List.prefix_refl _), by decide +kernel, by decide +kernel⟩

/-- A frame of another peer wakes the loop in the middle of the ping round, and both connections are
dropped while their time still runs. -/
theorem stray_frame_cuts_ping_round :
    let h := Hub.machine.run smallGateway (probedOps ++ [.frame 2 .unparsed (fromSecs 6)])
    (∀ link ∈ h.linksTo 2, Hub.Prompt link (fromSecs 6)) ∧
      (h.linksTo 2).map Link.probedAt = [some (fromSecs 5), some (fromSecs 5)] ∧
      (h.drops (fromSecs 6) fun _ => true).map Prod.snd = [.unresponsive, .unresponsive] ∧
      (h.arbitrate (fromSecs 6) fun _ => true).linksTo 2 = [] ∧
      ¬ h.GivesTime (fromSecs 6) fun _ => true := by
  refine ⟨by decide +kernel, by decide +kernel, by decide +kernel, by decide +kernel, fun hgives => ?_⟩
  exact hgives.kept 2 (by decide +kernel) (by decide +kernel) (by decide +kernel) (by decide +kernel)

end Eebus.Runtime
