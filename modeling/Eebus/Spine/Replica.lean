import Eebus.Library.Upsert
import Eebus.Model.Merging
import Eebus.Spine.Joined
import Eebus.Spine.Numbering
import Eebus.Spine.Session

/-!
What a client remembers of a server's functions, message by message. As long as no function has to
give way to another, one function is told of by the messages about it alone.
-/

namespace Eebus.Spine

open Eebus.Library Eebus.Model

variable {S : Schema}

def Datagram.IsFrom (device : AddressDevice) (d : Datagram S) : Prop :=
  ∃ source destination counter classifier ackRequest reference cmd,
    source.device = some device ∧ d = ⟨some (Engine.header source destination counter classifier
      ackRequest reference), some ⟨some [cmd]⟩⟩

def Datagram.report (d : Datagram S) : Option (FeatureAddress × Cmd S) :=
  match d.header.bind Header.cmdClassifier, d.header.bind Header.addressSource, d.commands with
  | some .reply, some source, [cmd] => some (source, cmd)
  | some .notify, some source, [cmd] => some (source, cmd)
  | _, _, _ => none

variable {source : FeatureAddress}

theorem Datagram.IsFrom.report {device : AddressDevice} {d : Datagram S}
    (h : Datagram.IsFrom device d) {cmd : Cmd S}
    (hreport : Datagram.report d = some (source, cmd)) : source.device = some device := by
  obtain ⟨source', destination, counter, classifier, ackRequest, reference, cmd', hsource, rfl⟩ := h
  cases classifier <;> cases hreport <;> exact hsource

def slot (source : FeatureAddress) (data : CmdData S) : List Nat × Option Nat × Key S.Other :=
  (entityPath source, source.feature, data.key)

/-- The two documents that are kept beside the table. -/
def isDocument (key : Key S.Other) : Bool :=
  key = .nodeManagementDetailedDiscoveryData || key = .nodeManagementUseCaseData

def retold (held : Option (CmdData S)) (data : CmdData S) (ops : WriteOps S) : Option (CmdData S) :=
  match ops.resolve (held.getD data.blank) data with
  | .error _ => none
  | .ok resolved => if resolved.entryCount > maxListEntries then none else some resolved

def hear (row : List Nat × Option Nat × Key S.Other) (held : Option (CmdData S)) (d : Datagram S) :
    Option (CmdData S) :=
  match Datagram.report d with
  | none => held
  | some (source, cmd) =>
    match cmd.data with
    | none => held
    | some data => if slot source data = row then retold held data (WriteOps.of cmd) else held

theorem sameFeature_iff_slot {a b : FeatureAddress} {device : AddressDevice}
    (ha : a.device = some device) (hb : b.device = some device) {data held : CmdData S} :
    sameFeature a b = true ∧ held.key = data.key ↔ slot a held = slot b data := by
  simp [sameFeature, devicesAgree, ha, hb, slot, and_assoc]

theorem resolve_key {ops : WriteOps S} {start data resolved : CmdData S} (hkey : start.key = data.key)
    (h : ops.resolve start data = .ok resolved) : resolved.key = data.key := by
  have hfunction : start.function = data.function := congrArg Function.known hkey
  have hdeleted := runDeletes_function hfunction ops.deleteSteps
  unfold WriteOps.resolve at h
  split at h
  · cases h
  case h_2 deleted hrun =>
    rw [hrun] at hdeleted
    split at h
    · split at h
      case h_1 merged hmerged =>
        cases h
        obtain ⟨merged', hmerged', hfunction⟩ := apply_sameFunction hdeleted ops.isPartial
        rw [hmerged] at hmerged'
        cases hmerged'
        exact key_eq_of_function (hfunction.trans hdeleted)
      case h_2 => cases h
    · cases h
      exact key_eq_of_function hdeleted

section Table

variable {table : List (FeatureAddress × CmdData S)} {device : AddressDevice}
  {rows : List (List Nat × Option Nat × Key S.Other)}

def rowOf (held : FeatureAddress × CmdData S) : List Nat × Option Nat × Key S.Other :=
  slot held.1 held.2

def recalled (row : List Nat × Option Nat × Key S.Other) (table : List (FeatureAddress × CmdData S)) :
    Option (CmdData S) :=
  (table.find? (hasKey rowOf row)).map Prod.snd

/-- A table of the functions of one device: one row for each, all of them among these. -/
structure WellKept (device : AddressDevice) (rows : List (List Nat × Option Nat × Key S.Other))
    (table : List (FeatureAddress × CmdData S)) : Prop where
  own : ∀ held ∈ table, held.1.device = some device
  distinct : (table.map rowOf).Nodup
  listed : ∀ held ∈ table, rowOf held ∈ rows

theorem wellKept_nil (device : AddressDevice) (rows : List (List Nat × Option Nat × Key S.Other)) :
    WellKept device rows [] :=
  ⟨fun _ h => absurd h List.not_mem_nil, List.nodup_nil, fun _ h => absurd h List.not_mem_nil⟩

theorem remembers_eq_hasKey (h : WellKept device rows table)
    (hsource : source.device = some device) (data : CmdData S) :
    ∀ held ∈ table, Engine.remembers source data held = hasKey rowOf (slot source data) held := by
  intro held hmem
  rw [Bool.eq_iff_iff, hasKey_iff, Engine.remembers, Bool.and_eq_true, beq_iff_eq]
  exact sameFeature_iff_slot (h.own held hmem) hsource

theorem recalled_key (table : List (FeatureAddress × CmdData S)) (source : FeatureAddress)
    (data : CmdData S) : ((recalled (slot source data) table).getD
      data.blank).key = data.key := by
  unfold recalled
  cases hfind : table.find? (hasKey rowOf (slot source data)) with
  | none => rfl
  | some held =>
    have hrow : rowOf held = slot source data := hasKey_iff.mp (List.find?_some hfind)
    simp only [rowOf, slot, Prod.mk.injEq] at hrow
    exact hrow.2.2

theorem WellKept.resolveRemembered (h : WellKept device rows table)
    (hrows : rows.length ≤ maxRemoteFunctions)
    (hsource : source.device = some device) {data : CmdData S} (hlisted : slot source data ∈ rows)
    (ops : WriteOps S) :
    WellKept device rows (Engine.resolveRemembered source data ops table).1 ∧
      ∀ row, recalled row (Engine.resolveRemembered source data ops table).1 =
        if slot source data = row then retold (recalled row table) data ops else recalled row table := by
  let rest := table.eraseP (hasKey rowOf (slot source data))
  have hcongr := remembers_eq_hasKey h hsource data
  have hfind : table.find? (Engine.remembers source data) =
      table.find? (hasKey rowOf (slot source data)) := by
    rw [← List.head?_filter, List.filter_congr hcongr, List.head?_filter]
  have herase : table.eraseP (Engine.remembers source data) = rest := by
    exact eraseP_congr hcongr
  have hsub : rest.Sublist table := List.eraseP_sublist
  have hrest : WellKept device rows rest :=
    ⟨fun held hmem => h.own held (hsub.subset hmem), (hsub.map rowOf).nodup h.distinct,
      fun held hmem => h.listed held (hsub.subset hmem)⟩
  have hrecall : ∀ row, recalled row rest = if slot source data = row then none else recalled row table := by
    intro row
    simp only [recalled, rest, find?_eraseP_hasKey h.distinct]
    split <;> rfl
  have hroom : ¬ maxRemoteFunctions ≤ rest.length := by
    have hlt : rest.length < rows.length := length_eraseP_hasKey_lt h.distinct h.listed hlisted
    omega
  have hstart : ((table.find? (Engine.remembers source data)).map Prod.snd).or
      (CmdData.empty data.function) =
        some ((recalled (slot source data) table).getD data.blank) := by
    rw [hfind]
    cases hheld : recalled (slot source data) table with
    | none =>
      have hnone : (table.find? (hasKey rowOf (slot source data))).map Prod.snd = none := hheld
      rw [hnone]
      rfl
    | some held =>
      have hsome : (table.find? (hasKey rowOf (slot source data))).map Prod.snd = some held := hheld
      rw [hsome]
      rfl
  unfold Engine.resolveRemembered retold
  rw [hstart, herase]
  dsimp only
  cases hresolve : ops.resolve
      ((recalled (slot source data) table).getD data.blank) data with
  | error error =>
    refine ⟨hrest, fun row => ?_⟩
    rw [hrecall]
    split
    case isTrue heq => rw [← heq, hresolve]
    case isFalse => rfl
  | ok resolved =>
    dsimp only
    split
    case isTrue hlong =>
      refine ⟨hrest, fun row => ?_⟩
      rw [hrecall]
      split
      case isTrue heq => simp only [← heq, hresolve, if_pos hlong]
      case isFalse => rfl
    case isFalse hshort =>
      have hkey : resolved.key = data.key := resolve_key (recalled_key table source data) hresolve
      have hrow : rowOf (source, resolved) = slot source data := by
        simp only [rowOf, slot, hkey]
      refine ⟨⟨?_, ?_, ?_⟩, fun row => ?_⟩
      · intro held hmem
        cases List.mem_append.mp hmem with
        | inl hmem => exact hrest.own held hmem
        | inr hmem =>
          rw [List.mem_singleton.mp hmem]
          exact hsource
      · rw [List.map_append, List.map_singleton, List.nodup_append]
        refine ⟨hrest.distinct, List.nodup_singleton _, fun a ha b hb heq => ?_⟩
        obtain ⟨held, hmem, rfl⟩ := List.mem_map.mp ha
        rw [List.mem_singleton.mp hb, hrow] at heq
        have hnone : rest.find? (hasKey rowOf (slot source data)) = none := by
          rw [find?_eraseP_hasKey h.distinct, if_pos rfl]
        exact List.find?_eq_none.mp hnone held hmem (hasKey_iff.mpr heq)
      · intro held hmem
        cases List.mem_append.mp hmem with
        | inl hmem => exact hrest.listed held hmem
        | inr hmem =>
          rw [List.mem_singleton.mp hmem, hrow]
          exact hlisted
      · have hlast : recalled row (rest ++ [(source, resolved)]) =
            (recalled row rest).or (if slot source data = row then some resolved else none) := by
          rw [recalled, List.find?_append, Option.map_or, List.find?_singleton]
          simp only [hasKey, hrow, decide_eq_true_eq]
          split <;> rfl
        rw [hlast, hrecall]
        split
        case isTrue heq => simp only [← heq, hresolve, if_neg hshort, Option.none_or]
        case isFalse => rw [Option.or_none]

end Table

theorem MsgCounterTracker.observe_fresh {tracker : MsgCounterTracker} {counter : MsgCounter}
    (h : ∀ last, tracker.last = some last → last < counter) :
    (tracker.observe counter).2.isAcceptable = true ∧
      (tracker.observe counter).1.last = some counter := by
  cases hlast : tracker.last with
  | none =>
    unfold observe
    rw [hlast]
    exact ⟨rfl, rfl⟩
  | some last => exact observe_ahead hlast (.inl (h last hlast))

def Peer.heard (peer : Peer S) (d : Datagram S) : Peer S :=
  match Datagram.report d with
  | none => peer
  | some (source, cmd) => peer.informed source cmd

def Datagram.row (d : Datagram S) : Option (List Nat × Option Nat × Key S.Other) := do
  let (source, cmd) ← Datagram.report d
  some (slot source (← cmd.data))

theorem Peer.informed_counters (peer : Peer S) (source : FeatureAddress) (cmd : Cmd S) :
    (peer.informed source cmd).counters = peer.counters := by
  unfold Peer.informed
  dsimp only
  split <;> rfl

theorem Peer.heard_counters (peer : Peer S) (d : Datagram S) :
    (peer.heard d).counters = peer.counters := by
  unfold Peer.heard
  split
  · rfl
  · exact peer.informed_counters _ _

theorem WellKept.heard {peer : Peer S} {device : AddressDevice}
    {rows : List (List Nat × Option Nat × Key S.Other)} (h : WellKept device rows peer.data)
    (hrows : rows.length ≤ maxRemoteFunctions) {d : Datagram S} (hfrom : Datagram.IsFrom device d)
    (hlisted : ∀ row, Datagram.row d = some row → row ∈ rows) :
    WellKept device rows (peer.heard d).data ∧
      ∀ row, isDocument row.2.2 = false → recalled row (peer.heard d).data = hear row (recalled row peer.data) d := by
  unfold Peer.heard hear
  cases hreport : Datagram.report d with
  | none => exact ⟨h, fun _ _ => rfl⟩
  | some report =>
    obtain ⟨source, cmd⟩ := report
    dsimp only
    cases hdata : cmd.data with
    | none =>
      have hsame : peer.informed source cmd = peer := by simp [Peer.informed, hdata]
      rw [hsame]
      exact ⟨h, fun _ _ => rfl⟩
    | some data =>
      have hsource : source.device = some device := Datagram.IsFrom.report hfrom hreport
      have hrow : slot source data ∈ rows := hlisted _ (by simp [Datagram.row, hreport, hdata])
      obtain ⟨hkept, hrecall⟩ := h.resolveRemembered hrows hsource hrow (WriteOps.of cmd)
      cases hdocument : isDocument data.key with
      | true =>
        have hsame : (peer.informed source cmd).data = peer.data := by
          obtain ⟨key, value⟩ := data
          simp only [isDocument, Bool.or_eq_true, decide_eq_true_eq] at hdocument
          rcases hdocument with rfl | rfl <;> simp [Peer.informed, hdata]
        rw [hsame]
        refine ⟨h, fun row hrow => ?_⟩
        have hother : slot source data ≠ row := by
          rintro rfl
          rw [slot, hdocument] at hrow
          cases hrow
        simp only [if_neg hother]
      | false =>
        have hsame : (peer.informed source cmd).data =
            (Engine.resolveRemembered source data (WriteOps.of cmd) peer.data).1 := by
          obtain ⟨key, value⟩ := data
          cases key with
          | nodeManagementDetailedDiscoveryData => cases hdocument
          | nodeManagementUseCaseData => cases hdocument
          | _ => simp [Peer.informed, hdata]
        rw [hsame]
        exact ⟨hkept, fun row _ => hrecall row⟩

namespace Engine

variable {e : Engine S} {device : AddressDevice}

theorem peerEntry_finds (e : Engine S) (device : AddressDevice) :
    (e.peerEntry device).findPeer device = some (e.peerAt device) := by
  cases hfound : e.findPeer device with
  | some peer => rw [peerEntry_of_found hfound, hfound, peerAt_of_found hfound]
  | none =>
    have hnone := List.find?_eq_none.mp hfound
    have hany : ¬ e.peers.any (Peer.isAt device) = true := by
      intro hany
      obtain ⟨peer, hmem, hat⟩ := List.any_eq_true.mp hany
      exact hnone peer hmem hat
    have hsub : ∀ p ∈ (if maxPeers ≤ e.peers.length then e.evict else e).peers, p ∈ e.peers := by
      intro p hp
      split at hp
      · simp only [evict] at hp
        split at hp
        · exact (List.mem_filter.mp hp).1
        · exact List.mem_of_mem_eraseIdx hp
      · exact hp
    have hrest : (if maxPeers ≤ e.peers.length then e.evict else e).peers.find? (Peer.isAt device) =
        none := List.find?_eq_none.mpr fun p hp => hnone p (hsub p hp)
    have hnew : Peer.isAt device (Peer.new device : Peer S) = true := by
      simp [Peer.isAt, Peer.new, RemoteDevice.unknown]
    rw [peerEntry, if_neg hany, peerAt, hfound, findPeer]
    dsimp only
    rw [List.find?_append, hrest, List.find?_singleton, if_pos hnew]
    rfl

theorem observeSource_files (hsource : source.device = some device)
    (counter : MsgCounter) :
    (e.observeSource source counter).1.findPeer device = some
        { e.peerAt device with counters := ((e.peerAt device).counters.observe counter).1 } ∧
      (e.observeSource source counter).2 =
        ((e.peerAt device).counters.observe counter).2.isAcceptable := by
  have hentry := e.peerEntry_finds device
  unfold observeSource observeCounter
  rw [hsource]
  simp only [peerAt_of_found hentry]
  refine ⟨(findPeer_updatePeer ?_).trans (by rw [hentry]; rfl), trivial⟩
  exact fun p hp => hp

theorem findPeer_congr {e e' : Engine S} (h : e'.peers = e.peers) (device : AddressDevice) :
    e'.findPeer device = e.findPeer device := by
  rw [findPeer, h, findPeer]

theorem handleWrite_peers (e : Engine S) (cmd : Cmd S) (source destination : FeatureAddress)
    (counter : MsgCounter) (ackRequest : Bool) (now : Nat) :
    (e.handleWrite cmd source destination counter ackRequest now).1.peers = e.peers := by
  simp only [handleWrite]
  repeat' split
  case h_2.isFalse =>
    obtain ⟨said, -, hbooks⟩ := e.applyWrite_books _ _ _ source destination
    exact hbooks.peers
  all_goals rfl

theorem handleResult_peers (e : Engine S) (cmd : Cmd S) (reference : Option MsgCounter)
    (origin : FeatureAddress) : (e.handleResult cmd reference origin).peers = e.peers := by
  have hpending : (e.resolvePending reference origin).1.peers = e.peers := by
    cases reference <;> rfl
  simp only [handleResult]
  split
  case h_1 e' heq => rwa [heq] at hpending
  case h_2 e' request heq =>
    rw [heq] at hpending
    simp only [emit]
    split <;> exact hpending

theorem handleIncomingData_found {peer : Peer S} (h : e.findPeer device = some peer)
    (hsource : source.device = some device) (cmd : Cmd S) (classifier : CmdClassifier) :
    (e.handleIncomingData cmd source classifier).1.findPeer device =
      some (peer.informed source cmd) := by
  unfold handleIncomingData
  cases hdata : cmd.data with
  | none =>
    have hsame : peer.informed source cmd = peer := by simp [Peer.informed, hdata]
    rw [hsame]
    exact h
  | some data => exact absorb_found h hsource hdata

theorem handleDatagram_heard (husable : isUsableDeviceAddress device = true)
    (hother : device ≠ e.device.address) {d : Datagram S} (hfrom : Datagram.IsFrom device d)
    (hfor : Datagram.isFor e.device.address d = true) {counter : MsgCounter}
    (hcounter : Datagram.counter d = some counter)
    (hfresh : ∀ last, (e.peerAt device).counters.last = some last → last < counter) (now : Nat) :
    ∃ peer : Peer S, peer.data = (e.peerAt device).data ∧ peer.counters.last = some counter ∧
      (e.handleDatagram d now).1.findPeer device = some (peer.heard d) := by
  obtain ⟨source, destination, counter', classifier, ackRequest, reference, cmd, hsource, rfl⟩ := hfrom
  obtain rfl : counter' = counter := Option.some.inj hcounter
  obtain ⟨hacceptable, hlast⟩ := MsgCounterTracker.observe_fresh hfresh
  obtain ⟨hfiled, hfiledFresh⟩ := e.observeSource_files hsource counter'
  refine ⟨{ e.peerAt device with counters := ((e.peerAt device).counters.observe counter').1 }, rfl,
    hlast, ?_⟩
  let v : Envelope := ⟨source, destination, classifier, counter', reference, ackRequest⟩
  have hack : (if ackRequest then some true else none : Option Bool).getD false = ackRequest := by
    cases ackRequest <;> rfl
  have hv : TakenUp e ⟨some (header source destination counter' classifier ackRequest reference),
      some ⟨some [cmd]⟩⟩ v := by
    have hversion : versionAcceptable (some spineVersion) = true := by decide
    refine ⟨⟨_, rfl, rfl, rfl, rfl, rfl, rfl, hack, hversion⟩, ?_, ?_, ?_⟩
    · simp [sourceTrusted, v, hsource, husable, hother]
    · have hdestination : destination.device.all (· == e.device.address) = true := hfor
      cases hdevice : destination.device with
      | none => simp
      | some x =>
        rw [hdevice] at hdestination
        simpa [v, hdevice] using hdestination
    · exact hfiledFresh.trans hacceptable
  rw [handleDatagram_of_takenUp hv now, serve,
    findPeer_congr (sends_acknowledge _ _ _ _ _ _ _).peers]
  change ((v.filed e).1.handleCmd cmd source destination classifier counter' reference ackRequest
    now).1.findPeer device = _
  have hpending : ((v.filed e).1.resolvePending reference source).1.peers = (v.filed e).1.peers := by
    cases reference <;> rfl
  cases classifier with
  | read => exact (findPeer_congr (sends_handleRead _ _ _ _ _).peers device).trans hfiled
  | write => exact (findPeer_congr (handleWrite_peers _ _ _ _ _ _ _) device).trans hfiled
  | call => exact (findPeer_congr (handleCall_frame _ cmd source).1 device).trans hfiled
  | reply =>
    exact handleIncomingData_found ((findPeer_congr hpending device).trans hfiled) hsource cmd .reply
  | notify =>
    exact handleIncomingData_found ((findPeer_congr hpending device).trans hfiled) hsource cmd .notify
  | result => exact (findPeer_congr (handleResult_peers _ cmd reference source) device).trans hfiled

end Engine

end Eebus.Spine
