import Eebus.Spine.Dispatch

/-!
Two engines joined by channels that keep the order of what they carry: a server that reports, and
the client that keeps a record of it. What the server sends elsewhere does not enter the channel.
-/

namespace Eebus.Spine

open Eebus.Library Eebus.Model

variable {S : Schema}

structure Joined (S : Schema) where
  server : Engine S
  client : Engine S
  /-- On the way to the client. -/
  down : List (Datagram S)
  /-- On the way to the server. -/
  up : List (Datagram S)

/-- Where a datagram goes: to the device it names, or, where it names none, to whoever is there. -/
def Datagram.isFor (device : AddressDevice) (datagram : Datagram S) : Bool :=
  (datagram.header.bind Header.addressDestination).all fun destination =>
    destination.device.all (· == device)

namespace Joined

def transmitDown (s : Joined S) : Joined S :=
  match s.server.outbox with
  | [] => s
  | datagram :: rest =>
    { s with
      server := { s.server with outbox := rest }
      down := if Datagram.isFor s.client.device.address datagram then s.down ++ [datagram] else s.down }

def transmitUp (s : Joined S) : Joined S :=
  match s.client.outbox with
  | [] => s
  | datagram :: rest =>
    { s with
      client := { s.client with outbox := rest }
      up := if Datagram.isFor s.server.device.address datagram then s.up ++ [datagram] else s.up }

def deliverDown (s : Joined S) (now : Nat) : Joined S :=
  match s.down with
  | [] => s
  | datagram :: rest => { s with client := (s.client.handleDatagram datagram now).1, down := rest }

def deliverUp (s : Joined S) (now : Nat) : Joined S :=
  match s.up with
  | [] => s
  | datagram :: rest => { s with server := (s.server.handleDatagram datagram now).1, up := rest }

/-- Everything that was sent has arrived. -/
def Quiescent (s : Joined S) : Prop :=
  s.server.outbox = [] ∧ s.client.outbox = [] ∧ s.down = [] ∧ s.up = []

def inFlight (s : Joined S) : List (Datagram S) := s.down ++ s.server.outbox

end Joined

namespace MsgCounterTracker

/-- A counter that is taken up as coming after the last one: it is higher, or so much lower that
the peer must have started over. -/
def Ahead (last counter : MsgCounter) : Prop :=
  last < counter ∨ restartThreshold ≤ last - counter

theorem observe_ahead {tracker : MsgCounterTracker} {last counter : MsgCounter}
    (hlast : tracker.last = some last) (h : Ahead last counter) :
    (tracker.observe counter).2.isAcceptable = true ∧
      (tracker.observe counter).1.last = some counter := by
  unfold observe
  rw [hlast]
  dsimp only
  split
  case isTrue =>
    refine ⟨?_, rfl⟩
    dsimp only
    split <;> rfl
  case isFalse hle =>
    rw [if_pos (h.resolve_left hle)]
    exact ⟨rfl, rfl⟩

theorem ahead_next (last : MsgCounter) : Ahead last (nextMsgCounter last) := by
  unfold nextMsgCounter
  split
  case isTrue hroom =>
    left
    rw [UInt64.lt_iff_toNat_lt, UInt64.toNat_add, UInt64.toNat_one]
    omega
  case isFalse hfull =>
    right
    have hlast : last.toNat < 2 ^ 64 := last.toNat_lt
    have hvalue : last.toNat = 2 ^ 64 - 1 := by omega
    rw [UInt64.le_iff_toNat_le, UInt64.toNat_sub, hvalue]
    decide

end MsgCounterTracker

def Peer.informed (peer : Peer S) (source : FeatureAddress) (cmd : Cmd S) : Peer S :=
  let ops := WriteOps.of cmd
  match cmd.data with
  | none => peer
  | some ⟨.nodeManagementDetailedDiscoveryData, update⟩ =>
    let merged :=
      if !ops.deletes.isEmpty then mergeDetailedDiscovery peer.discovery (markRemoved update)
      else if ops.isPartial then mergeDetailedDiscovery peer.discovery update
      else update
    { peer with discovery := merged, remote := peer.remote.applyDetailedDiscovery merged }
  | some ⟨.nodeManagementUseCaseData, update⟩ =>
    let merged :=
      if ops.isPartial || !ops.deletes.isEmpty then
        mergeUseCases peer.useCases update (!ops.deletes.isEmpty)
      else update
    { peer with useCases := merged, remote := peer.remote.applyUseCaseData merged }
  | some data => { peer with data := (Engine.resolveRemembered source data ops peer.data).1 }

namespace Engine

variable {e : Engine S} {device : AddressDevice} {peer : Peer S}

theorem findPeer_address (h : e.findPeer device = some peer) : peer.remote.address = some device := by
  have hat : Peer.isAt device peer = true := List.find?_some h
  simpa [Peer.isAt] using hat

theorem findPeer_updatePeer {g : Peer S → Peer S}
    (hg : ∀ p, p.remote.address = some device → (g p).remote.address = some device) :
    (e.updatePeer device g).findPeer device = (e.findPeer device).map g := by
  refine find?_modifyFirst_self (fun p hp => ?_) e.peers
  have hp' : p.remote.address = some device := by simpa [Peer.isAt] using hp
  simp [Peer.isAt, hg p hp']

section

variable (h : e.findPeer device = some peer)

include h

theorem peerEntry_of_found : e.peerEntry device = e := by
  have hany : e.peers.any (Peer.isAt device) = true :=
    List.any_eq_true.mpr ⟨peer, List.mem_of_find?_eq_some h, List.find?_some h⟩
  simp [peerEntry, hany]

theorem peerAt_of_found : e.peerAt device = peer := by
  simp [peerAt, h]

theorem observeSource_found {source : FeatureAddress}
    (hsource : source.device = some device) (counter : MsgCounter) :
    (e.observeSource source counter).1.findPeer device =
        some { peer with counters := (peer.counters.observe counter).1 } ∧
      (e.observeSource source counter).2 = (peer.counters.observe counter).2.isAcceptable := by
  unfold observeSource observeCounter
  rw [hsource]
  simp only [peerEntry_of_found h, peerAt_of_found h]
  refine ⟨(findPeer_updatePeer ?_).trans (by rw [h]; rfl), trivial⟩
  exact fun p hp => hp

theorem absorb_found {source : FeatureAddress}
    (hsource : source.device = some device) {cmd : Cmd S} {data : CmdData S}
    (hdata : cmd.data = some data) :
    (e.absorb source data (WriteOps.of cmd)).1.findPeer device = some (peer.informed source cmd) := by
  have haddress := findPeer_address h
  unfold Peer.informed absorb
  rw [hdata]
  obtain ⟨key, value⟩ := data
  cases key with
  | nodeManagementDetailedDiscoveryData =>
    have hdevice : discoveryDevice (S := S) source value = some device := by
      simp [discoveryDevice, hsource]
    simp only [absorbDiscovery, hdevice, peerEntry_of_found h, peerAt_of_found h]
    refine (findPeer_updatePeer ?_).trans (by rw [h]; rfl)
    exact fun p hp => RemoteDevice.applyDetailedDiscovery_address _ _ _ hp
  | nodeManagementUseCaseData =>
    simp only [absorbUseCases, hsource, peerEntry_of_found h, peerAt_of_found h]
    refine (findPeer_updatePeer ?_).trans (by rw [h]; rfl)
    exact fun p hp => hp
  | _ =>
    simp only [resolveRemote, hsource, peerEntry_of_found h, peerAt_of_found h]
    refine (findPeer_updatePeer ?_).trans (by rw [h]; rfl)
    exact fun p hp => hp

theorem handleDatagram_report
    (husable : isUsableDeviceAddress device = true) (hother : device ≠ e.device.address)
    {source destination : FeatureAddress} (hsource : source.device = some device)
    (hdestination : destination.device.all (· == e.device.address) = true) {counter last : MsgCounter}
    (hlast : peer.counters.last = some last) (hahead : MsgCounterTracker.Ahead last counter)
    {classifier : CmdClassifier} (hclassifier : classifier = .reply ∨ classifier = .notify)
    (reference : Option MsgCounter) {cmd : Cmd S} {data : CmdData S} (hdata : cmd.data = some data)
    (now : Nat) :
    let e' := (e.handleDatagram ⟨some (header source destination counter classifier false reference),
      some ⟨some [cmd]⟩⟩ now).1
    e'.findPeer device = some (Peer.informed
        { peer with counters := (peer.counters.observe counter).1 } source cmd) ∧
      e'.outbox = e.outbox ∧ e'.device = e.device := by
  intro e'
  obtain ⟨hacceptable, -⟩ := MsgCounterTracker.observe_ahead hlast hahead
  obtain ⟨hfiled, hfresh⟩ := observeSource_found h hsource counter
  let v : Envelope := ⟨source, destination, classifier, counter, reference, false⟩
  have hv : TakenUp e ⟨some (header source destination counter classifier false reference),
      some ⟨some [cmd]⟩⟩ v := by
    have hversion : versionAcceptable (some spineVersion) = true := by decide
    refine ⟨⟨_, rfl, rfl, rfl, rfl, rfl, rfl, rfl, hversion⟩, ?_, ?_, ?_⟩
    · simp [sourceTrusted, v, hsource, husable, hother]
    · cases hdevice : destination.device with
      | none => rfl
      | some x =>
        rw [hdevice] at hdestination
        simpa [v, hdevice] using hdestination
    · exact hfresh.trans hacceptable
  let filed := (e.observeSource source counter).1
  have hpending : (filed.resolvePending reference source).1.findPeer device =
      some { peer with counters := (peer.counters.observe counter).1 } := by
    cases reference <;> exact hfiled
  have habsorbed := absorb_found hpending hsource hdata
  have hserved : e' = ((filed.resolvePending reference source).1.handleIncomingData cmd source
      classifier).1 := by
    have hincoming : ((filed.resolvePending reference source).1.handleIncomingData cmd source
        classifier).2 = .none := by
      simp [handleIncomingData, hdata]
    have hcmd : filed.handleCmd cmd source destination classifier counter reference false now =
        (((filed.resolvePending reference source).1.handleIncomingData cmd source classifier).1,
          .answer .none) := by
      rcases hclassifier with rfl | rfl <;> simp only [handleCmd, hincoming]
    have hack : owesAck classifier false .none = false := by
      rcases hclassifier with rfl | rfl <;> rfl
    simp only [e', handleDatagram_of_takenUp hv now, serve, Envelope.filed, v, Datagram.commands,
      Option.bind_some, Option.getD_some, handleCommands]
    rw [hcmd]
    simp only [acknowledge, hack]
    rfl
  rw [hserved]
  refine ⟨?_, ?_, ?_⟩
  · simp only [handleIncomingData, hdata]
    exact habsorbed
  · exact (hearing_outbox.informed _ cmd source classifier reference).trans
      (observeSource_outbox e source counter)
  · rw [handleIncomingData_device, resolvePending_device]
    exact observeSource_device e source counter

end

end Engine

end Eebus.Spine
