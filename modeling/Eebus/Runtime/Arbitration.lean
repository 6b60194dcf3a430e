import Eebus.Library.Positions
import Eebus.Runtime.Operations

/-! A peer with two connections: which of them goes, when, and which one stays. -/

namespace Eebus.Runtime

open Eebus.Library Eebus.Model Eebus.Spine
open Eebus.Ship (Ski)

variable {S : Schema}

namespace Hub

@[simp]
theorem dropLink_links (h : Hub S) (index : Nat) (reason : Disconnect) :
    (h.dropLink index reason).links = h.links.eraseIdx index := by
  simp only [dropLink]
  split
  case h_1 hnone =>
    rw [List.eraseIdx_of_length_le (by simpa using hnone)]
  case h_2 link hlink =>
    simp only [forgetPeerState, emit, forget]
    cases link.device <;> (dsimp only; split <;> rfl)

theorem dropLinks_links (h : Hub S) (indices : List Nat) (reason : Disconnect) :
    (h.dropLinks indices reason).links = indices.foldl List.eraseIdx h.links := by
  induction indices generalizing h with
  | nil => rfl
  | cons index rest ih =>
    change ((h.dropLink index reason).dropLinks rest reason).links = _
    rw [ih, dropLink_links]
    rfl

theorem dropLinks_positions (h : Hub S) (test : Link → Nat → Bool) (reason : Disconnect) :
    (h.dropLinks (h.positions test) reason).links =
      (h.links.zipIdx.filter fun e => !test e.1 e.2).map Prod.fst := by
  rw [dropLinks_links]
  exact foldl_eraseIdx_positions _ h.links

def linksTo (h : Hub S) (ski : Ski) : List Link := h.links.filter fun link => link.ski == ski

theorem newest_eq_latest (h : Hub S) (ski : Ski) :
    h.newest ski =
      (latest Link.opened (h.links.zipIdx.filter fun e => e.1.ski == ski)).map Prod.snd := rfl

theorem linksTo_eq_map (h : Hub S) (ski : Ski) :
    h.linksTo ski = (h.links.zipIdx.filter fun e => e.1.ski == ski).map Prod.fst :=
  (map_fst_filter_zipIdx _ h.links 0).symm

theorem closeDuplicates_links (h : Hub S) {ski : Ski} {keep : Nat} (hkeep : h.newest ski = some keep) :
    (h.closeDuplicates ski).links =
      (h.links.zipIdx.filter fun e => !doomed ski keep e).map Prod.fst := by
  simp [closeDuplicates, hkeep]

theorem closeDuplicates_linksTo (h : Hub S) (ski : Ski) :
    (h.linksTo ski = [] ∧ (h.closeDuplicates ski).linksTo ski = []) ∨
      ∃ link ∈ h.linksTo ski, (h.closeDuplicates ski).linksTo ski = [link] ∧
        ∀ other ∈ h.linksTo ski, other.opened ≤ link.opened := by
  cases hlatest : latest Link.opened (h.links.zipIdx.filter fun e => e.1.ski == ski) with
  | none =>
    have hnone : h.linksTo ski = [] := by
      rw [linksTo_eq_map, latest_none_iff.mp hlatest, List.map_nil]
    have hsame : h.closeDuplicates ski = h.forget ski := by
      simp [closeDuplicates, newest_eq_latest, hlatest]
    exact .inl ⟨hnone, by rw [hsame]; exact hnone⟩
  | some best =>
    obtain ⟨⟨link, hmem, hopened⟩, hmax⟩ := latest_spec hlatest
    obtain ⟨hzip, hski⟩ := List.mem_filter.mp hmem
    have hat : h.links[best.2]? = some link := List.mem_zipIdx_iff_getElem?.mp hzip
    refine .inr ⟨link, List.mem_filter.mpr ⟨List.mem_of_getElem? hat, hski⟩, ?_, ?_⟩
    · rw [linksTo, h.closeDuplicates_links (by rw [newest_eq_latest, hlatest]; rfl),
        List.filter_map, List.filter_filter]
      have honly : ∀ e ∈ h.links.zipIdx,
          (((fun link => link.ski == ski) ∘ Prod.fst) e && !doomed ski best.2 e) =
            (e.2 == 0 + best.2) := by
        intro e he
        rw [List.mem_zipIdx_iff_getElem?] at he
        rw [Nat.zero_add]
        by_cases hindex : e.2 = best.2
        · have heq : e.1 = link := Option.some.inj (by rw [← he, hindex, hat])
          simpa [doomed, hindex, heq] using hski
        · cases hs : e.1.ski == ski with
          | false => simp [hs, hindex]
          | true =>
            simp only [Function.comp_apply, hs, doomed, Bool.true_and, bne, Bool.not_not]
      rw [List.filter_congr honly, filter_zipIdx_at hat 0]
      rfl
    · intro other hother
      rw [linksTo_eq_map] at hother
      obtain ⟨e, he, rfl⟩ := List.mem_map.mp hother
      rw [hopened]
      exact hmax e he

def resolution (h : Hub S) (duplicate : Duplicate) (now : Nat) : Resolution :=
  resolve h.ski duplicate.ski ((h.linksTo duplicate.ski).map Link.opened) duplicate.since
    duplicate.probed now

/-- The peer arbitration decides about now, with those of its connections that count as alive: all
of them at once, or those that answered the ping round. -/
def contenders (h : Hub S) (now : Nat) : Option (Ski × List Link) :=
  match h.duplicates with
  | [] => none
  | duplicate :: _ =>
    match h.resolution duplicate now with
    | .keepNewest => some (duplicate.ski, h.linksTo duplicate.ski)
    | .closeAfterProbe =>
      some (duplicate.ski, (h.linksTo duplicate.ski).filter fun link => !link.awaitingPong)
    | .settled | .wait _ | .probe => none

/-- Arbitration decides about the first of the duplicates, and only once it keeps the newest of all its
connections or the newest of those that answered. -/
theorem contenders_cases {h : Hub S} {now : Nat} {ski : Ski} {alive : List Link}
    (hcontenders : h.contenders now = some (ski, alive)) :
    ∃ duplicate rest, h.duplicates = duplicate :: rest ∧ ski = duplicate.ski ∧
      (h.resolution duplicate now = .keepNewest ∧ alive = h.linksTo duplicate.ski ∨
        h.resolution duplicate now = .closeAfterProbe ∧
          alive = (h.linksTo duplicate.ski).filter fun link => !link.awaitingPong) := by
  unfold contenders at hcontenders
  cases hd : h.duplicates with
  | nil => simp [hd] at hcontenders
  | cons duplicate rest =>
    simp only [hd] at hcontenders
    refine ⟨duplicate, rest, rfl, ?_⟩
    cases hr : h.resolution duplicate now with
    | settled | wait until_ | probe => simp [hr] at hcontenders
    | keepNewest =>
      simp only [hr, Option.some.injEq, Prod.mk.injEq] at hcontenders
      exact ⟨hcontenders.1.symm, .inl ⟨rfl, hcontenders.2.symm⟩⟩
    | closeAfterProbe =>
      simp only [hr, Option.some.injEq, Prod.mk.injEq] at hcontenders
      exact ⟨hcontenders.1.symm, .inr ⟨rfl, hcontenders.2.symm⟩⟩

/-- Arbitration leaves the most recently opened of the connections that are alive, whenever it
decides. -/
def KeepsLatest (h : Hub S) : Prop :=
  ∀ now sent ski alive, h.contenders now = some (ski, alive) →
    (alive = [] ∧ (h.arbitrate now sent).linksTo ski = []) ∨
      ∃ link ∈ alive, (h.arbitrate now sent).linksTo ski = [link] ∧
        ∀ other ∈ alive, other.opened ≤ link.opened

section
variable {h : Hub S} {duplicate : Duplicate} {rest : List Duplicate} {now : Nat}

theorem arbitrate_settled (hd : h.duplicates = duplicate :: rest)
    (hr : h.resolution duplicate now = .settled) (sent : Nat → Bool) :
    h.arbitrate now sent = h.forget duplicate.ski := by
  simp only [resolution, linksTo] at hr
  simp only [arbitrate, hd, hr]

theorem arbitrate_keepNewest (hd : h.duplicates = duplicate :: rest)
    (hr : h.resolution duplicate now = .keepNewest) (sent : Nat → Bool) :
    h.arbitrate now sent = h.closeDuplicates duplicate.ski := by
  simp only [resolution, linksTo] at hr
  simp only [arbitrate, hd, hr]

theorem arbitrate_wait {until_ : Nat} (hd : h.duplicates = duplicate :: rest)
    (hr : h.resolution duplicate now = .wait until_) (sent : Nat → Bool) :
    h.arbitrate now sent = h.wake until_ := by
  simp only [resolution, linksTo] at hr
  simp only [arbitrate, hd, hr]

theorem arbitrate_closeAfterProbe (hd : h.duplicates = duplicate :: rest)
    (hr : h.resolution duplicate now = .closeAfterProbe) (sent : Nat → Bool) :
    h.arbitrate now sent =
      (h.dropLinks (h.positions fun link _ => link.ski == duplicate.ski && link.awaitingPong)
        .unresponsive).closeDuplicates duplicate.ski := by
  simp only [resolution, linksTo] at hr
  simp only [arbitrate, hd, hr]

end

theorem linksTo_drop_unanswered (h : Hub S) (ski : Ski) (reason : Disconnect) :
    (h.dropLinks (h.positions fun link _ => link.ski == ski && link.awaitingPong) reason).linksTo
        ski = (h.linksTo ski).filter fun link => !link.awaitingPong := by
  rw [linksTo, dropLinks_positions,
    map_fst_filter_zipIdx (fun link : Link => !(link.ski == ski && link.awaitingPong)), linksTo,
    List.filter_filter, List.filter_filter]
  apply List.filter_congr
  intro link _
  cases link.ski == ski with
  | false => simp
  | true => simp

theorem keepsLatest (h : Hub S) : h.KeepsLatest := by
  intro now sent ski alive hcontenders
  obtain ⟨duplicate, rest, hd, rfl, ⟨hr, rfl⟩ | ⟨hr, rfl⟩⟩ := contenders_cases hcontenders
  · rw [arbitrate_keepNewest hd hr]
    exact h.closeDuplicates_linksTo duplicate.ski
  · rw [arbitrate_closeAfterProbe hd hr, ← h.linksTo_drop_unanswered duplicate.ski .unresponsive]
    exact closeDuplicates_linksTo _ duplicate.ski

theorem updateLink_length (h : Hub S) (index : Nat) (g : Link → Link) :
    (h.updateLink index g).links.length = h.links.length := by
  simp [updateLink]

theorem settleBootstrap_length (h : Hub S) (index : Nat) (datagram : Datagram S) :
    (h.settleBootstrap index datagram).links.length = h.links.length := by
  unfold settleBootstrap
  split
  · rfl
  · exact h.updateLink_length index _

theorem announce_length (h : Hub S) (index now : Nat) :
    (h.announce index now).links.length = h.links.length := by
  unfold announce
  repeat' split
  · rfl
  · rfl
  · exact h.updateLink_length index _
  · rfl

theorem bindLink_length {h h' : Hub S} {index : Nat} {datagram : Datagram S}
    (hbind : h.bindLink index datagram = some h') : h'.links.length = h.links.length := by
  unfold bindLink at hbind
  repeat' split at hbind
  · cases hbind
    rfl
  · simp at hbind
  · cases hbind
    rfl
  · simp at hbind
  · cases hbind
    exact h.updateLink_length index _

theorem frame_data_length (h : Hub S) {index : Nat} (hindex : index < h.links.length)
    (datagram : Datagram S) (now : Nat) :
    (h.frame index (.data datagram) now).links.length = h.links.length ↔
      ((h.updateLink index fun link => { link with lastSeen := now, pingedAt := none }).bindLink
        index datagram).isSome := by
  have hlen := h.updateLink_length index fun link => { link with lastSeen := now, pingedAt := none }
  generalize hg : (h.updateLink index fun link =>
    { link with lastSeen := now, pingedAt := none }) = g at hlen ⊢
  simp only [frame, if_neg (Nat.not_le.mpr hindex), hg, receive]
  cases hbind : g.bindLink index datagram with
  | none =>
    simp only [dropLink_links, List.length_eraseIdx, hlen, hindex, if_true, Option.isSome_none,
      Bool.false_eq_true, iff_false]
    omega
  | some g' =>
    simp only [announce_length, settleBootstrap_length, bindLink_length hbind, hlen,
      Option.isSome_some]

/-- A connection takes a datagram from the device another connection is bound to exactly when it is
bound to that device already, or the address cannot be keyed on. -/
theorem bindLink_isSome_iff {h : Hub S} {i j : Nat} {older newer : Link} {device : AddressDevice}
    {datagram : Datagram S} (hi : h.links[i]? = some older) (hj : h.links[j]? = some newer)
    (hne : i ≠ j) (hbound : older.device = some device)
    (hsource : (datagram.header.bind Header.addressSource).bind FeatureAddress.device = some device) :
    (h.bindLink j datagram).isSome ↔
      newer.device = some device ∨ isUsableDeviceAddress device = false := by
  simp only [bindLink, sourceDevice, hsource, hj]
  cases husable : isUsableDeviceAddress device with
  | false => simp [Option.filter, husable]
  | true =>
    have htaken : h.taken j device = true := by
      simp only [taken, Bool.or_eq_true, List.any_eq_true]
      refine .inr ⟨(older, i), List.mem_zipIdx_iff_getElem?.mpr hi, ?_⟩
      simp [hbound, hne]
    cases hnewer : newer.device with
    | none => simp [Option.filter, husable, hnewer, htaken]
    | some bound =>
      by_cases hsame : bound = device
      · simp [Option.filter, husable, hnewer, hsame]
      · simp [Option.filter, husable, hnewer, hsame]

end Hub

/-- A datagram on a second connection from the device the first one is bound to is taken, and
arbitration left to decide, exactly when the second connection speaks for that device already (or
the address cannot be keyed on). -/
theorem second_connection_kept_iff (h : Hub S) (i j : Nat) (older newer : Link)
    (device : AddressDevice) (datagram : Datagram S) (now : Nat)
    (hi : h.links[i]? = some older) (hj : h.links[j]? = some newer) (hne : i ≠ j)
    (hbound : older.device = some device)
    (hsource : (datagram.header.bind Header.addressSource).bind FeatureAddress.device = some device) :
    ((h.frame j (.data datagram) now).links.length = h.links.length ∧ h.KeepsLatest) ↔
      newer.device = some device ∨ isUsableDeviceAddress device = false := by
  have hindex : j < h.links.length := (List.getElem?_eq_some_iff.mp hj).1
  rw [and_iff_left h.keepsLatest, h.frame_data_length hindex]
  have hi' : (h.updateLink j fun link => { link with lastSeen := now, pingedAt := none }).links[i]? =
      some older := by
    simp [Hub.updateLink, Ne.symm hne, hi]
  have hj' : (h.updateLink j fun link => { link with lastSeen := now, pingedAt := none }).links[j]? =
      some { newer with lastSeen := now, pingedAt := none } := by
    simp [Hub.updateLink, hj]
  have hkey := Hub.bindLink_isSome_iff hi' hj' hne hbound hsource
  exact hkey

def heatPump : AddressDevice := "d:_i:2_HeatPump"

def heatPumpDatagram (counter : MsgCounter) : Datagram Schema.limitsOnly :=
  ⟨some (Engine.header (nodeManagement heatPump) (nodeManagement "d:_i:1_Gateway") counter .notify
    false none), none⟩

def gatewayEngine : Engine Schema.limitsOnly :=
  Engine.new (LocalDevice.fromAddress "d:_i:1_Gateway" "EnergyManagementSystem")

/-- The gateway, with its key below the heat pump's. -/
def smallGateway : Hub Schema.limitsOnly := Hub.new 1 gatewayEngine

/-- Two connections of the heat pump, the older one bound to its device. -/
def doubleConnection : Hub Schema.limitsOnly :=
  Hub.machine.run smallGateway [.adopt 2 .accepted 0, .frame 0 (.data (heatPumpDatagram 1)) 0,
    .adopt 2 .dialed (fromSecs 1)]

def olderLink : Link where
  ski := 2
  origin := .accepted
  device := some heatPump
  opened := 0
  lastSeen := 0
  pingedAt := none
  awaitingPong := false
  probedAt := none
  bootstrap := [1, 2]
  announced := false

def newerLink : Link :=
  { olderLink with
    origin := .dialed
    device := none
    opened := fromSecs 1
    lastSeen := fromSecs 1
    bootstrap := [3, 4] }

theorem second_connection_kept_iff_heatPump :
    doubleConnection.links = [olderLink, newerLink] ∧ olderLink.ski = newerLink.ski ∧
      olderLink.opened < newerLink.opened ∧
      (((doubleConnection.frame 1 (.data (heatPumpDatagram 2)) (fromSecs 2)).links.length =
            doubleConnection.links.length ∧ doubleConnection.KeepsLatest) ↔
        newerLink.device = some heatPump ∨ isUsableDeviceAddress heatPump = false) :=
  ⟨by decide +kernel, rfl, by decide,
    second_connection_kept_iff doubleConnection 0 1 olderLink newerLink heatPump
      (heatPumpDatagram 2) (fromSecs 2) (by decide +kernel) (by decide +kernel) (by decide) rfl rfl⟩

/-- The second connection is closed by the first datagram it carries, before arbitration runs. -/
theorem second_connection_closed_as_conflict :
    doubleConnection.links = [olderLink, newerLink] ∧ olderLink.ski = newerLink.ski ∧
      olderLink.opened < newerLink.opened ∧ olderLink.device = some heatPump ∧
      (doubleConnection.frame 1 (.data (heatPumpDatagram 2)) (fromSecs 2)).links = [olderLink] ∧
      (doubleConnection.frame 1 (.data (heatPumpDatagram 2)) (fromSecs 2)).pending.getLast? =
        some (.disconnected newerLink.ski .addressConflict) := by
  decide +kernel

end Eebus.Runtime
