import Eebus.Library.Recency
import Eebus.Spine.Replication

/-!
What an update leaves of everything else that is remembered of the peers. A table of functions is kept in
the order of their last updates, and the first gives way once it is full.
-/

namespace Eebus.Spine

open Eebus.Library Eebus.Model

variable {S : Schema}

/-- A function of a feature, whichever way the feature is addressed. -/
abbrev Place (S : Schema) := Option AddressDevice × List Nat × Option Nat × Function S.Other

def place (feature : FeatureAddress) (function : Function S.Other) : Place S :=
  (feature.device, entityPath feature, feature.feature, function)

def placeOf (held : FeatureAddress × CmdData S) : Place S := place held.1 held.2.function

variable {data : CmdData S} {feature : FeatureAddress} {ops : WriteOps S}

section Table

variable {table : List (FeatureAddress × CmdData S)} {device : AddressDevice} {source : FeatureAddress}

def lookUp (spot : Place S) (table : List (FeatureAddress × CmdData S)) : Option (CmdData S) :=
  (table.find? (hasKey placeOf spot)).map Prod.snd

/-- Everything in the table is filed under this device. -/
def FiledUnder (device : AddressDevice) (table : List (FeatureAddress × CmdData S)) : Prop :=
  ∀ held ∈ table, held.1.device = some device

theorem sameFeature_eq_hasKey (h : FiledUnder device table)
    (hfeature : feature.device = some device) (function : Function S.Other) :
    ∀ held ∈ table, (sameFeature held.1 feature && decide (held.2.function = function)) =
      hasKey placeOf (place feature function) held := by
  intro held hmem
  rw [Bool.eq_iff_iff, hasKey_iff]
  simp [sameFeature, devicesAgree, placeOf, place, h held hmem, hfeature, and_assoc]

theorem remembers_eq_place (h : FiledUnder device table) (hsource : source.device = some device)
    (data : CmdData S) : ∀ held ∈ table,
      Engine.remembers source data held = hasKey placeOf (place source data.function) held := by
  intro held hmem
  rw [← sameFeature_eq_hasKey h hsource data.function held hmem, Engine.remembers]
  congr 1
  rw [Bool.eq_iff_iff, beq_iff_eq, decide_eq_true_iff, CmdData.function, CmdData.function,
    Function.known.injEq]

/-- An update goes to the end of the table, once there is room for it; one that cannot be merged leaves
the table without the function it names. -/
theorem resolveRemembered_eq (h : FiledUnder device table) (hsource : source.device = some device)
    (data : CmdData S) (ops : WriteOps S) :
    (Engine.resolveRemembered source data ops table).1 =
      let rest := table.eraseP (hasKey placeOf (place source data.function))
      match retold (lookUp (place source data.function) table) data ops with
      | none => rest
      | some resolved =>
        (if maxRemoteFunctions ≤ rest.length then rest.drop 1 else rest) ++ [(source, resolved)] := by
  have hcongr := remembers_eq_place h hsource data
  have hfind : table.find? (Engine.remembers source data) =
      table.find? (hasKey placeOf (place source data.function)) := by
    rw [← List.head?_filter, List.filter_congr hcongr, List.head?_filter]
  have hstart : ((table.find? (Engine.remembers source data)).map Prod.snd).or
      (CmdData.empty data.function) =
        some ((lookUp (place source data.function) table).getD data.blank) := by
    rw [hfind, lookUp]
    cases table.find? (hasKey placeOf (place source data.function)) <;> rfl
  unfold Engine.resolveRemembered retold
  rw [hstart, eraseP_congr hcongr]
  dsimp only
  cases ops.resolve ((lookUp (place source data.function) table).getD data.blank) data with
  | error error => rfl
  | ok resolved =>
    by_cases hlong : resolved.entryCount > maxListEntries
    · simp only [if_pos hlong]
    · simp only [if_neg hlong]

theorem filedUnder_resolveRemembered (h : FiledUnder device table) (hsource : source.device = some device)
    (data : CmdData S) (ops : WriteOps S) :
    FiledUnder device (Engine.resolveRemembered source data ops table).1 := by
  rw [resolveRemembered_eq h hsource]
  have hrest : FiledUnder device (table.eraseP (hasKey placeOf (place source data.function))) :=
    fun held hmem => h held (List.eraseP_sublist.subset hmem)
  dsimp only
  split
  · exact hrest
  · intro held hmem
    cases List.mem_append.mp hmem with
    | inl hmem =>
      refine hrest held ?_
      split at hmem
      · exact List.mem_of_mem_drop hmem
      · exact hmem
    | inr hmem =>
      rw [List.mem_singleton.mp hmem]
      exact hsource

theorem retold_place {held : Option (CmdData S)} {resolved : CmdData S}
    (hheld : ∀ d ∈ held, d.key = data.key) (h : retold held data ops = some resolved) :
    placeOf (source, resolved) = place source data.function := by
  unfold retold at h
  split at h
  · cases h
  case h_2 resolved' hresolve =>
    split at h
    · cases h
    obtain rfl := Option.some.inj h
    have hstart : (held.getD data.blank).key = data.key := by
      cases held with
      | none => rfl
      | some d => exact hheld d rfl
    rw [placeOf, CmdData.function, resolve_key hstart hresolve, CmdData.function]

theorem lookUp_key {d : CmdData S} (h : d ∈ lookUp (place source data.function) table) :
    d.key = data.key := by
  obtain ⟨held, hfind, rfl⟩ := Option.map_eq_some_iff.mp h
  have hplace : placeOf held = place source data.function := hasKey_iff.mp (List.find?_some hfind)
  simp only [placeOf, place, Prod.mk.injEq] at hplace
  exact Function.known.inj hplace.2.2.2

/-- A table is kept in the order of these updates, the newest last, and holds as many as it may. -/
structure Orderly (past : List (Place S)) (table : List (FeatureAddress × CmdData S)) : Prop where
  inOrder : (table.map placeOf).reverse.Sublist (recency past)
  bounded : table.length ≤ maxRemoteFunctions

theorem orderly_nil (past : List (Place S)) : Orderly past [] := ⟨List.nil_sublist _, Nat.zero_le _⟩

namespace Orderly

variable {past : List (Place S)}

theorem distinct (h : Orderly past table) : (table.map placeOf).Nodup :=
  List.nodup_reverse.mp (h.inOrder.nodup (nodup_recency past))

theorem sublist {table' : List (FeatureAddress × CmdData S)} (h : Orderly past table)
    (hsub : table'.Sublist table) : Orderly past table' :=
  ⟨(hsub.map placeOf).reverse.trans h.inOrder, hsub.length_le.trans h.bounded⟩

theorem elsewhere (h : Orderly past table) {updated : Place S} (hother : updated ∉ table.map placeOf) :
    Orderly (updated :: past) table :=
  ⟨Sublist.unused h.inOrder (by rwa [List.mem_reverse]), h.bounded⟩

theorem append (h : Orderly past table) {entry : FeatureAddress × CmdData S}
    (hother : placeOf entry ∉ table.map placeOf) (hroom : table.length < maxRemoteFunctions) :
    Orderly (placeOf entry :: past) (table ++ [entry]) := by
  refine ⟨?_, ?_⟩
  · rw [List.map_append, List.map_singleton, List.reverse_concat]
    exact Sublist.used h.inOrder (by rwa [List.mem_reverse])
  · rw [List.length_append, List.length_singleton]
    exact hroom

theorem not_mem_erase (h : Orderly past table) (gone : Place S) :
    gone ∉ (table.eraseP (hasKey placeOf gone)).map placeOf := by
  intro hmem
  obtain ⟨held, hheld, rfl⟩ := List.mem_map.mp hmem
  have hnone : (table.eraseP (hasKey placeOf (placeOf held))).find? (hasKey placeOf (placeOf held)) = none := by
    rw [find?_eraseP_hasKey h.distinct, if_pos rfl]
  exact List.find?_eq_none.mp hnone held hheld (hasKey_iff.mpr rfl)

theorem lookUp_erase (h : Orderly past table) (gone spot : Place S) :
    lookUp spot (table.eraseP (hasKey placeOf gone)) = if gone = spot then none else lookUp spot table := by
  rw [lookUp, find?_eraseP_hasKey h.distinct]
  split <;> rfl

theorem leastRecent_head {first : FeatureAddress × CmdData S} {rest : List (FeatureAddress × CmdData S)}
    (h : Orderly past (first :: rest)) :
    LeastRecent past ((first :: rest).map placeOf).reverse (placeOf first) := by
  have hsplit : ((first :: rest).map placeOf).reverse = (rest.map placeOf).reverse ++ [placeOf first] := by
    rw [List.map_cons, List.reverse_cons]
  have hinOrder := h.inOrder
  rw [hsplit] at hinOrder ⊢
  exact leastRecent_last hinOrder

theorem update_refused (h : Orderly past table) (hfiled : FiledUnder device table)
    (hsource : source.device = some device)
    (hrefused : retold (lookUp (place source data.function) table) data ops = none) :
    Orderly past (Engine.resolveRemembered source data ops table).1 ∧
      ∀ spot, lookUp spot (Engine.resolveRemembered source data ops table).1 =
        if place source data.function = spot then none else lookUp spot table := by
  rw [resolveRemembered_eq hfiled hsource, hrefused]
  exact ⟨h.sublist List.eraseP_sublist, h.lookUp_erase _⟩

/-- An update that is merged comes last. It replaces what was held of its function, or the least recent
function gives way to it once the table is full. -/
theorem makes_room (h : Orderly past table) (hfiled : FiledUnder device table)
    (hsource : source.device = some device) {resolved : CmdData S}
    (hmerged : retold (lookUp (place source data.function) table) data ops = some resolved) :
    ∃ kept, (Engine.resolveRemembered source data ops table).1 = kept ++ [(source, resolved)] ∧
      (kept = table.eraseP (hasKey placeOf (place source data.function)) ∧
          kept.length < maxRemoteFunctions ∨
        ∃ first, table = first :: kept ∧ table.length = maxRemoteFunctions ∧
          place source data.function ∉ table.map placeOf ∧
          LeastRecent past (table.map placeOf) (placeOf first)) := by
  rw [resolveRemembered_eq hfiled hsource, hmerged]
  have hgone := h.not_mem_erase (place source data.function)
  generalize hrest : table.eraseP (hasKey placeOf (place source data.function)) = rest at hgone
  dsimp only
  by_cases hfull : maxRemoteFunctions ≤ rest.length
  · -- Nothing was erased, and the first gives way.
    have hsame : rest = table := by
      have hsub : rest.Sublist table := hrest ▸ List.eraseP_sublist
      exact hsub.eq_of_length (Nat.le_antisymm hsub.length_le (h.bounded.trans hfull))
    subst hsame
    cases rest with
    | nil => exact absurd hfull (Nat.not_succ_le_zero 31)
    | cons first tail =>
      rw [if_pos hfull, List.drop_one, List.tail_cons]
      refine ⟨tail, rfl, .inr ⟨first, rfl, Nat.le_antisymm h.bounded hfull, hgone, ?_⟩⟩
      obtain ⟨hmem, newer, older, hsplit, hothers⟩ := h.leastRecent_head
      exact ⟨List.mem_reverse.mp hmem, newer, older, hsplit,
        fun other hother => hothers other (List.mem_reverse.mpr hother)⟩
  · rw [if_neg hfull]
    exact ⟨rest, rfl, .inl ⟨rfl, Nat.lt_of_not_le hfull⟩⟩

theorem update_merged (h : Orderly past table) (hfiled : FiledUnder device table)
    (hsource : source.device = some device) {resolved : CmdData S}
    (hmerged : retold (lookUp (place source data.function) table) data ops = some resolved) :
    Orderly (place source data.function :: past) (Engine.resolveRemembered source data ops table).1 ∧
      ∀ spot, place source data.function ≠ spot →
        lookUp spot (Engine.resolveRemembered source data ops table).1 = lookUp spot table ∨
          maxRemoteFunctions ≤ table.length ∧ LeastRecent past (table.map placeOf) spot := by
  have hnew : placeOf (source, resolved) = place source data.function :=
    retold_place (fun d hd => lookUp_key hd) hmerged
  have hlast : ∀ spot, place source data.function ≠ spot → ∀ kept : List (FeatureAddress × CmdData S),
      lookUp spot (kept ++ [(source, resolved)]) = lookUp spot kept := by
    intro spot hspot kept
    have hnone : [(source, resolved)].find? (hasKey placeOf spot) = none := by
      rw [List.find?_singleton, if_neg (fun hkey => hspot (hnew.symm.trans (hasKey_iff.mp hkey)))]
    rw [lookUp, List.find?_append, hnone, Option.or_none, lookUp]
  obtain ⟨kept, hafter, ⟨hkept, hroom⟩ | ⟨first, htable, hfull, habsent, hleast⟩⟩ :=
    h.makes_room hfiled hsource hmerged
  · rw [hafter, hkept]
    have horderly : Orderly past (table.eraseP (hasKey placeOf (place source data.function))) :=
      h.sublist List.eraseP_sublist
    have hgone : placeOf (source, resolved) ∉
        (table.eraseP (hasKey placeOf (place source data.function))).map placeOf := by
      rw [hnew]
      exact h.not_mem_erase _
    refine ⟨hnew ▸ horderly.append hgone (hkept ▸ hroom), fun spot hspot => .inl ?_⟩
    rw [hlast spot hspot, h.lookUp_erase, if_neg hspot]
  · rw [hafter]
    subst htable
    have htail : Orderly past kept := h.sublist (List.sublist_cons_self first kept)
    refine ⟨?_, fun spot hspot => ?_⟩
    · refine hnew ▸ htail.append (fun hmem => habsent ?_) (Nat.lt_of_succ_le h.bounded)
      exact List.mem_cons_of_mem _ (hnew ▸ hmem)
    · by_cases hfirst : placeOf first = spot
      · exact .inr ⟨hfull.ge, hfirst ▸ hleast⟩
      · have hskip : hasKey placeOf spot first = false := decide_eq_false hfirst
        left
        rw [hlast spot hspot, lookUp, lookUp, List.find?_cons_of_neg (by simp [hskip])]

end Orderly

end Table

def KeepsTables (e e' : Engine S) : Prop :=
  ∀ device peer', e'.findPeer device = some peer' →
    (∃ peer, e.findPeer device = some peer ∧ peer'.data = peer.data) ∨ peer'.data = []

namespace KeepsTables

variable {e e' e'' : Engine S}

theorem refl (e : Engine S) : KeepsTables e e := fun _ peer h => .inl ⟨peer, h, rfl⟩

theorem trans (h : KeepsTables e e') (h' : KeepsTables e' e'') : KeepsTables e e'' := by
  intro device peer'' hfound
  obtain ⟨peer', hfound', hdata'⟩ | hempty := h' device peer'' hfound
  · rw [hdata']
    exact h device peer' hfound'
  · exact .inr hempty

theorem of_peers (h : e'.peers = e.peers) : KeepsTables e e' := by
  intro device peer' hfound
  rw [Engine.findPeer_congr h] at hfound
  exact .inl ⟨peer', hfound, rfl⟩

theorem of_sends {P : Datagram S → Prop} (h : Sends P e e') : KeepsTables e e' := of_peers h.peers

theorem without (e : Engine S) (other : Option AddressDevice) : KeepsTables e (e.without other) := by
  intro device peer' hfound
  by_cases hother : other = some device
  · rw [hother] at hfound
    obtain ⟨hmem, hat⟩ : peer' ∈ (e.removePeer device).peers ∧ Peer.isAt device peer' = true :=
      ⟨List.mem_of_find?_eq_some hfound, List.find?_some hfound⟩
    have hgone := (List.mem_filter.mp hmem).2
    rw [hat] at hgone
    cases hgone
  · rw [Engine.findPeer_eq_head?, Engine.record_without hother, ← Engine.findPeer_eq_head?] at hfound
    exact .inl ⟨peer', hfound, rfl⟩

theorem peerEntry (e : Engine S) (device : AddressDevice) : KeepsTables e (e.peerEntry device) := by
  intro other peer' hfound
  by_cases hother : other = device
  · subst hother
    rw [e.peerEntry_finds] at hfound
    obtain rfl := Option.some.inj hfound
    unfold Engine.peerAt
    cases hheld : e.findPeer other with
    | none => exact .inr rfl
    | some peer => exact .inl ⟨peer, rfl, rfl⟩
  · rw [Engine.findPeer_eq_head?, (e.sameFor_peerEntry hother).record, ← Engine.findPeer_eq_head?] at hfound
    exact without e _ other peer' hfound

theorem updatePeer (e : Engine S) (device : AddressDevice) {g : Peer S → Peer S}
    (haddress : ∀ p, p.remote.address = some device → (g p).remote.address = some device)
    (hdata : ∀ p, (g p).data = p.data) : KeepsTables e (e.updatePeer device g) := by
  intro other peer' hfound
  by_cases hother : other = device
  · subst hother
    rw [Engine.findPeer_updatePeer haddress] at hfound
    obtain ⟨peer, hheld, rfl⟩ := Option.map_eq_some_iff.mp hfound
    exact .inl ⟨peer, hheld, hdata peer⟩
  · have hsame := Engine.sameFor_updatePeer e hother (g := g) fun p hp => by
      have haddress' := haddress p (by simpa [Peer.isAt] using hp)
      simp [Peer.isAt, haddress']
    rw [Engine.findPeer_eq_head?, hsame.record, ← Engine.findPeer_eq_head?] at hfound
    exact .inl ⟨peer', hfound, rfl⟩

theorem observeSource (e : Engine S) (source : FeatureAddress) (counter : MsgCounter) :
    KeepsTables e (e.observeSource source counter).1 := by
  unfold Engine.observeSource
  split
  · exact refl e
  case h_2 device _ => exact (peerEntry e device).trans (updatePeer _ device (fun _ hp => hp) fun _ => rfl)

theorem absorb {e : Engine S} {source : FeatureAddress}
    (hdocument : isDocument data.key = true ∨ source.device = none) :
    KeepsTables e (e.absorb source data ops).1 := by
  unfold Engine.absorb
  split
  · simp only [Engine.absorbDiscovery]
    split
    · exact refl e
    case h_2 device _ =>
      refine ((peerEntry e device).trans ?_).trans (of_peers rfl)
      exact updatePeer _ device (fun _ hp => RemoteDevice.applyDetailedDiscovery_address _ _ _ hp)
        fun _ => rfl
  · simp only [Engine.absorbUseCases]
    split
    · exact refl e
    case h_2 device _ =>
      refine ((peerEntry e device).trans ?_).trans (of_peers rfl)
      exact updatePeer _ device (fun _ hp => hp) fun _ => rfl
  case h_3 _ hdiscovery huseCases =>
    cases hdocument with
    | inl hdocument =>
      obtain ⟨key, value⟩ := data
      simp only [isDocument, Bool.or_eq_true, decide_eq_true_eq] at hdocument
      cases hdocument with
      | inl hkey =>
        subst hkey
        exact absurd rfl (hdiscovery value)
      | inr hkey =>
        subst hkey
        exact absurd rfl (huseCases value)
    | inr hnone =>
      simp only [Engine.resolveRemote, hnone]
      exact refl e

end KeepsTables

/-- What a reply or a notification says of a function. -/
structure Report (S : Schema) where
  source : FeatureAddress
  data : CmdData S
  ops : WriteOps S

namespace Report

def spot (u : Report S) : Place S := place u.source u.data.function

/-- What it makes of what is remembered; none where it cannot be merged. -/
def merged (u : Report S) (e : Engine S) : Option (CmdData S) :=
  retold (e.remoteData u.source u.data.function) u.data u.ops

end Report

namespace Engine

variable {e : Engine S} {d : Datagram S} {now : Nat} {u : Report S} {device : AddressDevice}

/-- What a datagram that is served reports, the two documents apart. -/
def told (e : Engine S) (d : Datagram S) (now : Nat) : Option (Report S) :=
  if (e.handleDatagram d now).2 then do
    let (source, cmd) ← Datagram.report d
    let data ← cmd.data
    if isDocument data.key then none else some ⟨source, data, WriteOps.of cmd⟩
  else none

def updates (e : Engine S) : EngineOp S → Option (Place S)
  | .handleDatagram d now => do
    let u ← e.told d now
    let _ ← u.source.device
    let _ ← u.merged e
    some u.spot
  | _ => none

theorem report_iff {source : FeatureAddress} {cmd : Cmd S} {v : Envelope} (h : TakenUp e d v) :
    Datagram.report d = some (source, cmd) ↔
      v.source = source ∧ d.commands = [cmd] ∧ (v.classifier = .reply ∨ v.classifier = .notify) := by
  obtain ⟨header, hheader, -, hclassifier, hsource, -⟩ := h.header
  simp only [Datagram.report, hheader, Option.bind_some, hclassifier, hsource]
  cases v.classifier <;> cases hcommands : d.commands with
  | nil => simp
  | cons first rest => cases rest <;> simp [and_comm]

theorem told_cases (h : e.told d now = some u) : ∃ v cmd, TakenUp e d v ∧ v.source = u.source ∧
    d.commands = [cmd] ∧ (v.classifier = .reply ∨ v.classifier = .notify) ∧ cmd.data = some u.data ∧
    WriteOps.of cmd = u.ops ∧ isDocument u.data.key = false := by
  unfold told at h
  split at h
  case isFalse => cases h
  case isTrue hserved =>
    obtain ⟨⟨source, cmd⟩, hreport, h⟩ := Option.bind_eq_some_iff.mp h
    obtain ⟨data, hdata, h⟩ := Option.bind_eq_some_iff.mp h
    split at h
    case isTrue => cases h
    case isFalse hplain =>
      obtain rfl := Option.some.inj h
      obtain ⟨v, hv⟩ | ⟨-, hunserved⟩ := e.handleDatagram_cases d now
      · obtain ⟨hsource, hcommand, hclassifier⟩ := (report_iff hv).mp hreport
        exact ⟨v, cmd, hv, hsource, hcommand, hclassifier, hdata, rfl, by simpa using hplain⟩
      · rw [hunserved] at hserved
        cases hserved

theorem informed_plain (peer : Peer S) {source : FeatureAddress} {cmd : Cmd S}
    (hdata : cmd.data = some data) (hplain : isDocument data.key = false) :
    peer.informed source cmd =
      { peer with data := (resolveRemembered source data (WriteOps.of cmd) peer.data).1 } := by
  obtain ⟨key, value⟩ := data
  cases key with
  | nodeManagementDetailedDiscoveryData => cases hplain
  | nodeManagementUseCaseData => cases hplain
  | _ => simp [Peer.informed, hdata]

variable (now) in
theorem handleDatagram_told {v : Envelope} {cmd : Cmd S} (hv : TakenUp e d v)
    (hcommand : d.commands = [cmd]) (hclassifier : v.classifier = .reply ∨ v.classifier = .notify) :
    ∃ filed : Engine S, filed.peers = (v.filed e).1.peers ∧ (e.handleDatagram d now).1.peers =
      (filed.handleIncomingData cmd v.source v.classifier).1.peers := by
  refine ⟨((v.filed e).1.resolvePending v.reference v.source).1, ?_, ?_⟩
  · cases v.reference <;> rfl
  · rw [handleDatagram_of_takenUp hv, serve, (sends_acknowledge _ _ _ _ _ _ _).peers, hcommand]
    cases hclassifier with
    | inl hreply => rw [hreply, handleCommands, handleCmd]
    | inr hnotify => rw [hnotify, handleCommands, handleCmd]

theorem told_found (h : e.told d now = some u) (hdevice : u.source.device = some device) :
    ∃ counters, (e.handleDatagram d now).1.findPeer device = some { e.peerAt device with
      counters := counters
      data := (resolveRemembered u.source u.data u.ops (e.peerAt device).data).1 } := by
  obtain ⟨v, cmd, hv, hsource, hcommand, hclassifier, hdata, hops, hplain⟩ := told_cases h
  obtain ⟨filed, hpeers, hafter⟩ := handleDatagram_told now hv hcommand hclassifier
  have hvdevice : v.source.device = some device := by rw [hsource, hdevice]
  have hfound := (findPeer_congr hpeers device).trans (e.observeSource_files hvdevice v.counter).1
  refine ⟨((e.peerAt device).counters.observe v.counter).1, ?_⟩
  rw [findPeer_congr hafter, handleIncomingData_found hfound hvdevice,
    informed_plain _ hdata hplain, hsource, hops]

theorem told_nameless (h : e.told d now = some u) (hdevice : u.source.device = none) :
    (e.handleDatagram d now).1.peers = e.peers := by
  obtain ⟨v, cmd, hv, hsource, hcommand, hclassifier, hdata, -, hplain⟩ := told_cases h
  obtain ⟨filed, hpeers, hafter⟩ := handleDatagram_told now hv hcommand hclassifier
  have hvdevice : v.source.device = none := by rw [hsource, hdevice]
  have hfiled : (v.filed e).1 = e := by rw [Envelope.filed, observeSource, hvdevice]
  rw [hafter, ← hfiled, ← hpeers, handleIncomingData, hdata]
  generalize u.data = data at hplain
  obtain ⟨key, value⟩ := data
  cases key with
  | nodeManagementDetailedDiscoveryData => cases hplain
  | nodeManagementUseCaseData => cases hplain
  | _ => simp only [absorb, resolveRemote, hvdevice, emit]

theorem told_others (h : e.told d now = some u) (hdevice : u.source.device = some device)
    {other : AddressDevice} (hother : other ≠ device) :
    (e.handleDatagram d now).1.findPeer other = e.findPeer other ∨
      (e.handleDatagram d now).1.findPeer other = (e.without (e.evictedFor device)).findPeer other := by
  obtain ⟨v, cmd, hv, hsource, -⟩ := told_cases h
  obtain ⟨header, hheader, -, -, hvsource, -⟩ := hv.header
  have horigin : d.header.bind Header.addressSource = some u.source := by
    rw [hheader, Option.bind_some, hvsource, hsource]
  simp only [findPeer_eq_head?]
  exact (e.handleDatagram_sameFor now horigin hdevice hother).imp
    (fun hsame => congrArg List.head? hsame.record) (fun hsame => congrArg List.head? hsame.record)

theorem decideWrite_peers (e : Engine S) (w : DatagramWrite S) (now : Nat) :
    (e.decideWrite w now).1.peers = e.peers := by
  unfold decideWrite
  split
  · split <;> rfl
  · obtain ⟨said, -, hsends⟩ := e.applyWrite_sends w.feature w.data w.ops w.source w.destination
    exact hsends.peers

theorem keepsTables_untold (h : e.told d now = none) : KeepsTables e (e.handleDatagram d now).1 := by
  rcases e.handleDatagram_served d now with hdiscarded | ⟨v, e', hv, hserved, hsends⟩
  · cases hdiscarded with
    | unread hsends => exact .of_sends hsends
    | filed source counter _ _ hsends => exact (KeepsTables.observeSource e source counter).trans (.of_sends hsends)
  · refine ((KeepsTables.observeSource e v.source v.counter).trans ?_).trans (.of_sends hsends)
    cases hserved with
    | answered _ _ hanswered => exact .of_sends hanswered
    | written w _ => exact .of_peers (decideWrite_peers _ w now)
    | called _ cmd _ _ => exact .of_peers (handleCall_frame _ cmd _).1
    | informed _ cmd hclassifier hcommand =>
      have hpending : KeepsTables (v.filed e).1
          ((v.filed e).1.resolvePending v.reference v.source).1 := by
        cases v.reference <;> exact .of_peers rfl
      refine hpending.trans ?_
      unfold handleIncomingData
      split
      · exact .refl _
      case h_2 data hdata =>
        refine (KeepsTables.absorb (.inl ?_)).trans (.of_peers rfl)
        have hreport := (report_iff hv).mpr ⟨rfl, hcommand, hclassifier⟩
        simpa [told, handleDatagram_isServed hv, hreport, hdata] using h
    | settled _ cmd _ _ => exact .of_peers (handleResult_peers _ cmd _ _)

theorem keepsTables_perform {op : EngineOp S} (h : ∀ d now, op ≠ .handleDatagram d now) :
    KeepsTables e (e.perform op) := by
  have hspared : (∀ server, SparesRecord server e op) → KeepsTables e (e.perform op) := by
    intro hspares device peer' hfound
    rw [(perform_spares (hspares device)).1] at hfound
    exact .inl ⟨peer', hfound, rfl⟩
  cases op with
  | handleDatagram d now => exact absurd rfl (h d now)
  | removePeer device => exact KeepsTables.without e (some device)
  | configure g => exact .of_peers rfl
  | pollTransmit => exact .of_peers rfl
  | _ => exact hspared fun _ => trivial

/-- Every record's table is its own, and in the order of these updates. -/
def Recalls (past : List (Place S)) (e : Engine S) : Prop :=
  ∀ device peer, e.findPeer device = some peer → FiledUnder device peer.data ∧ Orderly past peer.data

namespace Recalls

variable {past : List (Place S)}

theorem keep {e' : Engine S} (h : Recalls past e) (hkeeps : KeepsTables e e') : Recalls past e' := by
  intro device peer' hfound
  obtain ⟨peer, hheld, hdata⟩ | hempty := hkeeps device peer' hfound
  · rw [hdata]
    exact h device peer hheld
  · rw [hempty]
    exact ⟨fun _ hmem => absurd hmem List.not_mem_nil, orderly_nil past⟩

theorem peerAt (h : Recalls past e) (device : AddressDevice) :
    FiledUnder device (e.peerAt device).data ∧ Orderly past (e.peerAt device).data := by
  unfold Engine.peerAt
  cases hfound : e.findPeer device with
  | none => exact ⟨fun _ hmem => absurd hmem List.not_mem_nil, orderly_nil past⟩
  | some peer => exact h device peer hfound

theorem remoteData_eq (h : Recalls past e) (hfeature : feature.device = some device)
    {function : Function S.Other} (hdiscovery : function ≠ .known .nodeManagementDetailedDiscoveryData)
    (huseCases : function ≠ .known .nodeManagementUseCaseData) :
    e.remoteData feature function = lookUp (place feature function) (e.peerAt device).data := by
  unfold remoteData Engine.peerAt
  simp only [hfeature, Option.bind_eq_bind, Option.bind_some]
  cases hfound : e.findPeer device with
  | none => rfl
  | some peer =>
    have hcongr := sameFeature_eq_hasKey (h device peer hfound).1 hfeature function
    simp only [Option.bind_some, if_neg hdiscovery, if_neg huseCases, Option.getD_some]
    rw [lookUp, ← List.head?_filter, List.filter_congr hcongr, List.head?_filter]

theorem remoteData_told (h : Recalls past e) (htold : e.told d now = some u)
    (hdevice : u.source.device = some device) :
    e.remoteData u.source u.data.function = lookUp u.spot (e.peerAt device).data := by
  obtain ⟨-, -, -, -, -, -, -, -, hplain⟩ := told_cases htold
  refine h.remoteData_eq hdevice ?_ ?_ <;>
    exact fun hfunction => by simp [isDocument, Function.known.inj hfunction] at hplain

theorem merged_told (h : Recalls past e) (htold : e.told d now = some u)
    (hdevice : u.source.device = some device) :
    u.merged e = retold (lookUp u.spot (e.peerAt device).data) u.data u.ops := by
  rw [Report.merged, h.remoteData_told htold hdevice]

theorem others (h : Recalls past e) (htold : e.told d now = some u) (hdevice : u.source.device = some device)
    {other : AddressDevice} (hother : other ≠ device) {peer : Peer S}
    (hfound : (e.handleDatagram d now).1.findPeer other = some peer) :
    FiledUnder other peer.data ∧ Orderly past peer.data := by
  cases told_others htold hdevice hother with
  | inl hsame => exact h other peer (hsame ▸ hfound)
  | inr hsame => exact h.keep (KeepsTables.without e _) other peer (hsame ▸ hfound)

theorem tell (h : Recalls past e) (htold : e.told d now = some u) (hdevice : u.source.device = some device) :
    Recalls (((u.merged e).map fun _ => u.spot).toList ++ past) (e.handleDatagram d now).1 := by
  intro other peer hfound
  obtain ⟨hfiled, horderly⟩ := h.peerAt device
  have hspot : u.spot = place u.source u.data.function := rfl
  rw [h.merged_told htold hdevice]
  by_cases hother : other = device
  · subst hother
    obtain ⟨counters, hrecord⟩ := told_found htold hdevice
    rw [hrecord] at hfound
    obtain rfl := Option.some.inj hfound
    refine ⟨filedUnder_resolveRemembered hfiled hdevice _ _, ?_⟩
    dsimp only
    rw [hspot]
    cases hmerged : retold (lookUp (place u.source u.data.function) (e.peerAt other).data) u.data u.ops with
    | none => exact (horderly.update_refused hfiled hdevice hmerged).1
    | some resolved => exact (horderly.update_merged hfiled hdevice hmerged).1
  · obtain ⟨hother', horder⟩ := h.others htold hdevice hother hfound
    refine ⟨hother', ?_⟩
    cases retold (lookUp u.spot (e.peerAt device).data) u.data u.ops with
    | none => exact horder
    | some resolved =>
      refine horder.elsewhere fun hmem => hother ?_
      obtain ⟨held, hheld, hplace⟩ := List.mem_map.mp hmem
      have hsame : held.1.device = u.source.device := congrArg Prod.fst hplace
      rw [hother' held hheld, hdevice] at hsame
      exact Option.some.inj hsame

theorem perform (h : Recalls past e) (op : EngineOp S) :
    Recalls ((e.updates op).toList ++ past) (e.perform op) := by
  cases op with
  | handleDatagram d now =>
    cases htold : e.told d now with
    | none =>
      simp only [updates, htold, Option.bind_eq_bind, Option.bind_none, Option.toList_none, List.nil_append]
      exact h.keep (keepsTables_untold htold)
    | some u =>
      simp only [updates, htold, Option.bind_eq_bind, Option.bind_some]
      cases hdevice : u.source.device with
      | none =>
        exact h.keep (.of_peers (told_nameless htold hdevice))
      | some device =>
        have htell := h.tell htold hdevice
        cases hmerged : u.merged e with
        | none => rwa [hmerged] at htell
        | some resolved => rwa [hmerged] at htell
  | _ => exact h.keep (keepsTables_perform (by simp))

end Recalls

/-- The updates a recorded run has seen, newest first. -/
def updatesIn (steps : List (Event (Engine S) (EngineOp S) Unit)) : List (Place S) :=
  steps.flatMap fun step => (step.before.updates step.input).toList

theorem recalls_run (device : LocalDevice S) (ops : List (EngineOp S)) :
    Recalls (updatesIn (machine.recorded.run (new device, []) ops).2)
      (machine.recorded.run (new device, []) ops).1 := by
  refine machine.recorded.run_invariant (fun _ _ => True) (fun s => Recalls (updatesIn s.2) s.1) ?_ ops
    (new device, []) ?_ (machine.recorded.admits_of_forall (fun _ _ => trivial) ops _)
  · exact fun s op h _ => h.perform op
  · intro _ peer hfound
    cases hfound

/-- What is remembered of a peer is its own, one value for each function, and kept in the order in which
the functions were last taken up, the newest last. The next one that is taken up takes the place of its own
last value, or in a full table of the function that was taken up least recently. -/
theorem remembered_by_recency (device : LocalDevice S) (ops : List (EngineOp S)) (address : AddressDevice) :
    let s := machine.recorded.run (new device, []) ops
    let table := (s.1.peerAt address).data
    (FiledUnder address table ∧ (table.map placeOf).Nodup ∧
      (table.map placeOf).reverse.Sublist (recency (updatesIn s.2)) ∧ table.length ≤ maxRemoteFunctions) ∧
    ∀ d now u resolved, s.1.told d now = some u → u.source.device = some address →
      u.merged s.1 = some resolved →
        ∃ kept, ((s.1.handleDatagram d now).1.peerAt address).data = kept ++ [(u.source, resolved)] ∧
          (kept = table.eraseP (hasKey placeOf u.spot) ∧ kept.length < maxRemoteFunctions ∨
            ∃ first, table = first :: kept ∧ table.length = maxRemoteFunctions ∧
              u.spot ∉ table.map placeOf ∧
              LeastRecent (updatesIn s.2) (table.map placeOf) (placeOf first)) := by
  intro s table
  have hrecalls := recalls_run device ops
  obtain ⟨hfiled, horderly⟩ := hrecalls.peerAt address
  refine ⟨⟨hfiled, horderly.distinct, horderly.inOrder, horderly.bounded⟩, ?_⟩
  intro d now u resolved htold hdevice hmerged
  obtain ⟨counters, hrecord⟩ := told_found htold hdevice
  rw [hrecalls.merged_told htold hdevice] at hmerged
  rw [peerAt_of_found hrecord]
  exact horderly.makes_room hfiled hdevice hmerged

end Engine

namespace Report

/-- The table of the report's sender is full, and this is its least recent function. -/
def GivesWay (u : Report S) (past : List (Place S)) (e : Engine S) (spot : Place S) : Prop :=
  ∃ device peer, u.source.device = some device ∧ e.findPeer device = some peer ∧
    maxRemoteFunctions ≤ peer.data.length ∧ LeastRecent past (peer.data.map placeOf) spot

/-- A report that cannot be merged changes nothing that is remembered, and one that can nothing but its
function and the one that gives way to it. -/
def SparesRest (u : Report S) (past : List (Place S)) (e e' : Engine S) : Prop :=
  match u.merged e with
  | none => ∀ feature function, e'.remoteData feature function = e.remoteData feature function
  | some _ => ∀ feature function, place feature function ≠ u.spot →
      e'.remoteData feature function = e.remoteData feature function ∨
        u.GivesWay past e (place feature function)

end Report

namespace Engine

variable {e e' : Engine S} {d : Datagram S} {now : Nat} {u : Report S} {device : AddressDevice}
  {past : List (Place S)}

theorem remoteData_congr
    (h : ∀ device ∈ feature.device, e'.findPeer device = e.findPeer device) (function : Function S.Other) :
    e'.remoteData feature function = e.remoteData feature function := by
  unfold remoteData
  cases hdevice : feature.device with
  | none => rfl
  | some device => simp only [Option.bind_eq_bind, Option.bind_some, h device hdevice]

theorem remoteData_after (h : Recalls past e) (htold : e.told d now = some u)
    (hdevice : u.source.device = some device) (htracked : e.tracks device = true)
    (hfeature : feature.device = some device) (function : Function S.Other) :
    u.spot ≠ place feature function ∧
        (e.handleDatagram d now).1.remoteData feature function = e.remoteData feature function ∨
      e.remoteData feature function = lookUp (place feature function) (e.peerAt device).data ∧
        (e.handleDatagram d now).1.remoteData feature function = lookUp (place feature function)
          (resolveRemembered u.source u.data u.ops (e.peerAt device).data).1 := by
  obtain ⟨peer, hfound⟩ : ∃ peer, e.findPeer device = some peer :=
    Option.isSome_iff_exists.mp (List.find?_isSome.mpr (List.any_eq_true.mp htracked))
  obtain ⟨counters, hrecord⟩ := told_found htold hdevice
  rw [peerAt_of_found hfound] at hrecord ⊢
  obtain ⟨-, -, -, -, -, -, -, -, hplain⟩ := told_cases htold
  have hother : ∀ key, isDocument key = true → function = .known key → u.spot ≠ place feature function := by
    rintro key hkey rfl heq
    have hfunction : u.data.function = .known key := congrArg (fun spot : Place S => spot.2.2.2) heq
    rw [Function.known.inj hfunction, hkey] at hplain
    cases hplain
  by_cases hdiscovery : function = .known .nodeManagementDetailedDiscoveryData
  · refine .inl ⟨hother _ rfl hdiscovery, ?_⟩
    simp only [remoteData, hfeature, Option.bind_eq_bind, Option.bind_some, hrecord, hfound, if_pos hdiscovery]
  by_cases huseCases : function = .known .nodeManagementUseCaseData
  · refine .inl ⟨hother _ rfl huseCases, ?_⟩
    simp only [remoteData, hfeature, Option.bind_eq_bind, Option.bind_some, hrecord, hfound,
      if_neg hdiscovery, if_pos huseCases]
  · right
    have hafter := h.tell htold hdevice
    refine ⟨?_, ?_⟩
    · rw [h.remoteData_eq hfeature hdiscovery huseCases, peerAt_of_found hfound]
    · rw [hafter.remoteData_eq hfeature hdiscovery huseCases, peerAt_of_found hrecord]

theorem remoteData_elsewhere (htold : e.told d now = some u) (hdevice : u.source.device = some device)
    (htracked : e.tracks device = true) (hfeature : feature.device ≠ some device)
    (function : Function S.Other) :
    (e.handleDatagram d now).1.remoteData feature function = e.remoteData feature function := by
  refine remoteData_congr (fun other hother => ?_) function
  have hne : other ≠ device := fun heq => hfeature (heq ▸ hother)
  have hothers := told_others htold hdevice hne
  rw [evictedFor_of_tracks htracked] at hothers
  exact hothers.elim id id

theorem remoteData_refused (h : Recalls past e) (htold : e.told d now = some u)
    (hdevice : u.source.device = some device) (htracked : e.tracks device = true)
    (hrefused : u.merged e = none) (feature : FeatureAddress) (function : Function S.Other) :
    (e.handleDatagram d now).1.remoteData feature function =
      if u.spot = place feature function then none else e.remoteData feature function := by
  obtain ⟨hfiled, horderly⟩ := h.peerAt device
  rw [h.merged_told htold hdevice] at hrefused
  by_cases hfeature : feature.device = some device
  · obtain ⟨hother, hsame⟩ | ⟨hbefore, hafter⟩ := remoteData_after h htold hdevice htracked hfeature function
    · rw [hsame, if_neg hother]
    · rw [hafter, hbefore, (horderly.update_refused hfiled hdevice hrefused).2]
      rfl
  · rw [remoteData_elsewhere htold hdevice htracked hfeature, if_neg]
    intro heq
    have hsame : u.source.device = feature.device := congrArg Prod.fst heq
    exact hfeature (hsame.symm.trans hdevice)

theorem remoteData_merged (h : Recalls past e) (htold : e.told d now = some u)
    (hdevice : u.source.device = some device) (htracked : e.tracks device = true) {resolved : CmdData S}
    (hmerged : u.merged e = some resolved) {function : Function S.Other}
    (hspot : u.spot ≠ place feature function) :
    (e.handleDatagram d now).1.remoteData feature function = e.remoteData feature function ∨
      u.GivesWay past e (place feature function) := by
  obtain ⟨hfiled, horderly⟩ := h.peerAt device
  rw [h.merged_told htold hdevice] at hmerged
  by_cases hfeature : feature.device = some device
  · obtain ⟨-, hsame⟩ | ⟨hbefore, hafter⟩ := remoteData_after h htold hdevice htracked hfeature function
    · exact .inl hsame
    · rw [hafter, hbefore]
      refine ((horderly.update_merged hfiled hdevice hmerged).2 _ hspot).imp_right fun hgives => ?_
      obtain ⟨peer, hfound⟩ : ∃ peer, e.findPeer device = some peer :=
        Option.isSome_iff_exists.mp (List.find?_isSome.mpr (List.any_eq_true.mp htracked))
      rw [peerAt_of_found hfound] at hgives
      exact ⟨device, peer, hdevice, hfound, hgives⟩
  · exact .inl (remoteData_elsewhere htold hdevice htracked hfeature function)

theorem Recalls.sparesRest_iff (h : Recalls past e) (htold : e.told d now = some u)
    (hpeer : ∀ sender ∈ u.source.device, e.tracks sender = true) :
    u.SparesRest past e (e.handleDatagram d now).1 ↔
      ¬(u.merged e = none ∧ (e.remoteData u.source u.data.function).isSome = true) := by
  unfold Report.SparesRest
  cases hdevice : u.source.device with
  | none =>
    -- A report that names no device is filed nowhere.
    have hsame : ∀ feature function,
        (e.handleDatagram d now).1.remoteData feature function = e.remoteData feature function :=
      fun feature => remoteData_congr fun device _ => findPeer_congr (told_nameless htold hdevice) device
    have hunknown : e.remoteData u.source u.data.function = none := by
      simp only [remoteData, hdevice, Option.bind_eq_bind, Option.bind_none]
    refine ⟨fun _ hloses => ?_, fun _ => ?_⟩
    · rw [hunknown] at hloses
      cases hloses.2
    · split
      · exact hsame
      · exact fun feature function _ => .inl (hsame feature function)
  | some device =>
    have htracked : e.tracks device = true := hpeer device hdevice
    cases hmerged : u.merged e with
    | some resolved =>
      refine ⟨fun _ hloses => absurd hloses.1 (by simp), fun _ feature function hspot => ?_⟩
      exact remoteData_merged h htold hdevice htracked hmerged (Ne.symm hspot)
    | none =>
      have hafter := remoteData_refused h htold hdevice htracked hmerged
      constructor
      · intro hspares hloses
        have hgone : e.remoteData u.source u.data.function = none :=
          (hspares u.source u.data.function).symm.trans
            ((hafter u.source u.data.function).trans (if_pos rfl))
        rw [hgone] at hloses
        cases hloses.2
      · intro hkeeps feature function
        rw [hafter]
        split
        case isTrue heq =>
          have hfeature : feature.device = some device :=
            (congrArg Prod.fst heq : u.source.device = feature.device).symm.trans hdevice
          obtain ⟨hother, -⟩ | ⟨hbefore, -⟩ := remoteData_after h htold hdevice htracked hfeature function
          · exact absurd heq hother
          · rw [hbefore, ← heq, ← h.remoteData_told htold hdevice]
            exact (Option.not_isSome_iff_eq_none.mp fun hsome => hkeeps ⟨rfl, hsome⟩).symm
        case isFalse => rfl

/-- After any run, a report of a peer on record leaves what is remembered of the others, and of its own
function where it cannot be merged, exactly when it can be merged or nothing is remembered of its function. -/
theorem spares_rest_iff (device : LocalDevice S) (ops : List (EngineOp S)) (d : Datagram S) (now : Nat)
    (u : Report S) :
    let s := machine.recorded.run (new device, []) ops
    s.1.told d now = some u → (∀ sender ∈ u.source.device, s.1.tracks sender = true) →
      (u.SparesRest (updatesIn s.2) s.1 (s.1.handleDatagram d now).1 ↔
        ¬(u.merged s.1 = none ∧ (s.1.remoteData u.source u.data.function).isSome = true)) := by
  intro s htold hpeer
  exact (recalls_run device ops).sparesRest_iff htold hpeer

end Engine

namespace MemoryScenario

open ReplicaScenario

def managerDevice : LocalDevice Schema.limitsOnly := .fromAddress manager "EnergyManagementSystem"

/-- The heat pump notifies of its limit, with these filters. -/
def notice (counter : MsgCounter) (filters : List (Filter Schema.limitsOnly)) (watts : Int) :
    Datagram Schema.limitsOnly :=
  ⟨some (Engine.header limits (nodeManagement manager) counter .notify false none),
    some ⟨some [⟨none, some filters, some (limit watts)⟩]⟩⟩

def reported (filters : List (Filter Schema.limitsOnly)) (watts : Int) : Report Schema.limitsOnly :=
  ⟨limits, limit watts, WriteOps.of ⟨none, some filters, some (limit watts)⟩⟩

def told : List (EngineOp Schema.limitsOnly) := [.handleDatagram (notice 1 [] 4200) 0]

theorem spares_rest_iff_partial :
    let s := Engine.machine.recorded.run (.new managerDevice, []) told
    (reported [.partialUpdate] 2500).SparesRest (Engine.updatesIn s.2) s.1
      (s.1.handleDatagram (notice 2 [.partialUpdate] 2500) 0).1 := by
  have hserved : ((Engine.machine.recorded.run (.new managerDevice, []) told).1.handleDatagram
      (notice 2 [.partialUpdate] 2500) 0).2 = true := by decide +kernel
  have hmerged : ((reported [.partialUpdate] 2500).merged
      (Engine.machine.recorded.run (.new managerDevice, []) told).1).isSome = true := by decide +kernel
  refine (Engine.spares_rest_iff managerDevice told (notice 2 [.partialUpdate] 2500) 0
    (reported [.partialUpdate] 2500) (by rw [Engine.told, if_pos hserved]; rfl) ?_).mpr fun hloses => ?_
  · rintro sender ⟨⟩
    decide +kernel
  · rw [hloses.1] at hmerged
    cases hmerged

/-- A delete that selects by the selectors of another function. -/
def misdirected : Filter Schema.limitsOnly :=
  ⟨some ⟨true, false⟩, some [⟨.setpointListData, ⟨none⟩⟩], none⟩

/-- A notification that cannot be merged takes the limit it does not replace. -/
theorem unmergeable_notice_erases :
    let s := Engine.machine.recorded.run (.new managerDevice, []) told
    let u := reported [misdirected] 2500
    s.1.told (notice 2 [misdirected] 2500) 0 = some u ∧ s.1.tracks heatPump = true ∧ u.merged s.1 = none ∧
      s.1.remoteData limits (.known .loadControlLimitListData) = some (limit 4200) ∧
      (s.1.handleDatagram (notice 2 [misdirected] 2500) 0).1.remoteData limits
        (.known .loadControlLimitListData) = none ∧
      ¬u.SparesRest (Engine.updatesIn s.2) s.1 (s.1.handleDatagram (notice 2 [misdirected] 2500) 0).1 := by
  have hserved : ((Engine.machine.recorded.run (.new managerDevice, []) told).1.handleDatagram
      (notice 2 [misdirected] 2500) 0).2 = true := by decide +kernel
  have hmerged : (reported [misdirected] 2500).merged
      (Engine.machine.recorded.run (.new managerDevice, []) told).1 = none := by decide +kernel
  have hbefore : (Engine.machine.recorded.run (.new managerDevice, []) told).1.remoteData limits
      (.known .loadControlLimitListData) = some (limit 4200) := by decide +kernel
  have hafter : ((Engine.machine.recorded.run (.new managerDevice, []) told).1.handleDatagram
      (notice 2 [misdirected] 2500) 0).1.remoteData limits (.known .loadControlLimitListData) = none := by
    decide +kernel
  refine ⟨by rw [Engine.told, if_pos hserved]; rfl, by decide +kernel, hmerged, hbefore, hafter, ?_⟩
  unfold Report.SparesRest
  rw [hmerged]
  intro hspares
  have hsame := hspares limits (.known .loadControlLimitListData)
  rw [hbefore, hafter] at hsame
  cases hsame

end MemoryScenario

end Eebus.Spine
