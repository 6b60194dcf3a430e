import Eebus.Library.Machine
import Eebus.Spine.Discovery
import Eebus.Spine.Header
import Eebus.Spine.Relations

/-! The SPINE engine of one device: what it remembers about its peers, what it sends, and what a
received datagram does. -/

namespace Eebus.Spine

open Eebus.Library Eebus.Model

def maxRemoteFunctions : Nat := 32
def maxPendingRequests : Nat := 64
def maxPeers : Nat := 32
def maxDeferredWrites : Nat := 16

def retrySchedule : List Nat := [fromSecs 30, fromSecs (5 * 60), fromSecs (15 * 60)]

variable {S : Schema}

structure WriteOps (S : Schema) where
  deletes : List (Filter S)
  isPartial : Bool
  stores : Bool

namespace WriteOps

/-- A command of nothing but deletes carries its payload as identity; anything else stores it. -/
def of (cmd : Cmd S) : WriteOps S :=
  let deletes := cmd.filters.filter Filter.isDelete
  ⟨deletes, cmd.isPartial, deletes.isEmpty || cmd.isPartial⟩

def applyDeletes (data : CmdData S) : List (Filter S) → LocalFeature S →
    LocalFeature S × Except (FeatureError S) Unit
  | [], feature => (feature, .ok ())
  | filter :: rest, feature =>
    match feature.deleteFiltered data filter with
    | (feature', .ok ()) => applyDeletes data rest feature'
    | (feature', .error e) => (feature', .error e)

def applyTo (ops : WriteOps S) (feature : LocalFeature S) (data : CmdData S) :
    LocalFeature S × Except (FeatureError S) Unit :=
  match applyDeletes data ops.deletes feature with
  | (feature', .error e) => (feature', .error e)
  | (feature', .ok ()) =>
    if ops.stores then
      match feature'.apply data ops.isPartial with
      | .ok feature'' => (feature'', .ok ())
      | .error e => (feature', .error e)
    else (feature', .ok ())

section Keeps

variable {P : LocalFeature S → Prop} {data : CmdData S}

variable (hdelete : ∀ f filter, P f → P (f.deleteFiltered data filter).1)

include hdelete

theorem applyDeletes_keeps (filters : List (Filter S)) {f : LocalFeature S} (h : P f) :
    P (applyDeletes data filters f).1 := by
  induction filters generalizing f with
  | nil => exact h
  | cons filter rest ih =>
    have hfirst := hdelete f filter h
    unfold applyDeletes
    split
    case h_1 f' heq =>
      rw [heq] at hfirst
      exact ih hfirst
    case h_2 f' e heq =>
      rw [heq] at hfirst
      exact hfirst

/-- What each step of a write keeps of a feature, the whole write keeps. -/
theorem applyTo_keeps {ops : WriteOps S}
    (happly : ∀ {f f'}, P f → f.apply data ops.isPartial = .ok f' → P f') {f : LocalFeature S}
    (h : P f) : P (ops.applyTo f data).1 := by
  have hdeletes := applyDeletes_keeps hdelete ops.deletes h
  unfold applyTo
  split
  case h_1 f' e heq =>
    rw [heq] at hdeletes
    exact hdeletes
  case h_2 f' heq =>
    rw [heq] at hdeletes
    split
    · split
      case h_1 f'' hok => exact happly hdeletes hok
      case h_2 => exact hdeletes
    · exact hdeletes

end Keeps

def deleteSteps (ops : WriteOps S) :
    List (Option (FilterSelectors S) × Option (FilterElements S)) :=
  ops.deletes.flatMap addressedBy

def resolve (ops : WriteOps S) (resolved update : CmdData S) : Except RestrictError (CmdData S) :=
  match runSteps (deleteStep update) ops.deleteSteps resolved with
  | (_, .error e) => .error e
  | (deleted, .ok ()) =>
    if ops.stores then
      match deleted.apply update ops.isPartial with
      | .ok merged => .ok merged
      | .error _ => .error .mismatch
    else .ok deleted

end WriteOps

def resolveWrite (stored : Option (CmdData S)) (update : CmdData S) (ops : WriteOps S) : CmdData S :=
  match stored.or (CmdData.empty update.function) with
  | none => update
  | some start =>
    match ops.resolve start update with
    | .ok resolved => resolved
    | .error _ => update

/-- Answers a partial read: the union of what the selectors pick, cut down to the elements the
filter keeps. -/
def restrictForRead (data : CmdData S) (filter : Filter S) : Except RestrictError (CmdData S) :=
  let selectors := filter.selectors.getD []
  match data with
  | ⟨.nodeManagementDetailedDiscoveryData, discovery⟩ => do
    let narrowed ← selectors.foldlM (fun narrowed selector =>
      match selector with
      | ⟨.nodeManagementDetailedDiscoveryData, selector⟩ =>
        Except.ok (restrictDetailedDiscovery narrowed (S.discoverySelectors selector))
      | _ => .error .mismatch) discovery
    let narrowed : CmdData S := ⟨.nodeManagementDetailedDiscoveryData, narrowed⟩
    match filter.elements with
    | none => .ok narrowed
    | some elements => narrowed.restrict none (some elements)
  | data =>
    match selectors with
    | [] => data.restrict none filter.elements
    | first :: rest => do
      let start ← data.restrict (some first) filter.elements
      rest.foldlM (fun union selector => do
        let part ← data.restrict (some selector) filter.elements
        match union.apply part true with
        | .ok union => .ok union
        | .error _ => .error .mismatch) start

inductive Awaiting
  | answer
  | retry
deriving DecidableEq

structure Pending (S : Schema) where
  request : MsgCounter
  transmissions : List MsgCounter
  destination : FeatureAddress
  datagram : Datagram S
  retries : Nat
  deadline : Nat
  awaiting : Awaiting

/-- What this device knows about one peer: the merged state of the functions it sent, newest
last, and its two discovery documents, which are merged by rules of their own. -/
structure Peer (S : Schema) where
  remote : RemoteDevice S.Other
  counters : MsgCounterTracker
  data : List (FeatureAddress × CmdData S)
  discovery : NodeManagementDetailedDiscoveryData S.Other
  useCases : NodeManagementUseCaseData

def Peer.new (device : AddressDevice) : Peer S where
  remote := RemoteDevice.unknown device
  counters := MsgCounterTracker.new
  data := []
  discovery := ⟨none, none, none, none⟩
  useCases := ⟨none⟩

def Peer.isAt (device : AddressDevice) (peer : Peer S) : Bool := peer.remote.address == some device

structure DeferredWrite (S : Schema) where
  token : Nat
  feature : FeatureAddress
  peer : FeatureAddress
  data : CmdData S
  ops : WriteOps S
  reference : MsgCounter
  ackRequest : Bool
  deadline : Nat

structure WriteRequest (S : Schema) where
  token : Nat
  request : MsgCounter
  feature : FeatureAddress
  origin : FeatureAddress
  data : CmdData S
  resolved : CmdData S
  isPartial : Bool
  delete : Bool

inductive SpineEvent (S : Schema)
  | discoveryUpdated (device : AddressDevice)
  | useCasesUpdated (device : AddressDevice)
  | writeAbandoned (token : Nat) (feature origin : FeatureAddress)
  | dataWritten (feature origin : FeatureAddress) (function : Function S.Other)
  | writeRequested (write : WriteRequest S)
  | dataNotified (feature : FeatureAddress) (data resolved : CmdData S)
  | replyReceived (feature : FeatureAddress) (data resolved : CmdData S)
  | resultReceived (request : MsgCounter) (error : ErrorNumber)
  | bindingGranted (client server : FeatureAddress)
  | bindingReleased (client server : FeatureAddress)
  | subscriptionGranted (client server : FeatureAddress)
  | subscriptionReleased (client server : FeatureAddress)
  | requestRetried (request : MsgCounter) (destination : FeatureAddress) (attempt : Nat)
  | requestTimedOut (request : MsgCounter) (destination : FeatureAddress)

structure Engine (S : Schema) where
  device : LocalDevice S
  relations : Relations
  useCases : List AnnouncedUseCase
  counters : MsgCounter
  peers : List (Peer S)
  outbox : List (Datagram S)
  events : List (SpineEvent S)
  pending : List (Pending S)
  deferred : List (DeferredWrite S)
  /-- Counts the deferred writes; the source's is a `u64`, and no run defers 2 ^ 64 of them. -/
  nextToken : Nat
  maxResponseDelay : Nat

namespace Engine

def new (device : LocalDevice S) : Engine S where
  device := device
  relations := Relations.new .singlePerFeature
  useCases := []
  counters := 1
  peers := []
  outbox := []
  events := []
  pending := []
  deferred := []
  nextToken := 1
  maxResponseDelay := defaultMaxResponseDelay

def emit (e : Engine S) (event : SpineEvent S) : Engine S :=
  { e with events := e.events ++ [event] }

def advanceCounter (e : Engine S) : Engine S := { e with counters := nextMsgCounter e.counters }

def findPeer (e : Engine S) (device : AddressDevice) : Option (Peer S) :=
  e.peers.find? (Peer.isAt device)

def abandonedEvent (write : DeferredWrite S) : SpineEvent S :=
  .writeAbandoned write.token write.feature write.peer

def removePeer (e : Engine S) (device : AddressDevice) : Engine S :=
  let waits := fun write : DeferredWrite S => write.peer.device == some device
  { e with
    relations := e.relations.removeDevice device
    peers := e.peers.filter fun peer => !peer.isAt device
    pending := e.pending.filter fun p => p.destination.device != some device
    deferred := e.deferred.filter fun write => !waits write
    events := e.events ++ (e.deferred.filter waits).map abandonedEvent }

def evictIndex (e : Engine S) : Nat :=
  (e.peers.findIdx? fun peer =>
    peer.remote.entities.isEmpty && peer.remote.useCases.isEmpty).getD 0

def evict (e : Engine S) : Engine S :=
  match e.peers[e.evictIndex]?.bind fun peer => peer.remote.address with
  | some evicted => e.removePeer evicted
  | none => { e with peers := e.peers.eraseIdx e.evictIndex }

def peerEntry (e : Engine S) (device : AddressDevice) : Engine S :=
  if e.peers.any (Peer.isAt device) then e
  else
    let e := if maxPeers ≤ e.peers.length then e.evict else e
    { e with peers := e.peers ++ [Peer.new device] }

def peerAt (e : Engine S) (device : AddressDevice) : Peer S :=
  (e.findPeer device).getD (Peer.new device)

def updatePeer (e : Engine S) (device : AddressDevice) (g : Peer S → Peer S) : Engine S :=
  { e with peers := modifyFirst (Peer.isAt device) (fun peer _ => g peer) e.peers }

def observeCounter (e : Engine S) (device : AddressDevice) (counter : MsgCounter) :
    Engine S × Bool :=
  let e := e.peerEntry device
  let (tracker, check) := (e.peerAt device).counters.observe counter
  (e.updatePeer device fun peer => { peer with counters := tracker }, check.isAcceptable)

def responseDelayOf (e : Engine S) (destination : FeatureAddress) : Nat :=
  (do
    let peer ← e.findPeer (← destination.device)
    (← peer.remote.featureAt destination).maxResponseDelay).getD e.maxResponseDelay

def timedOutEvent (request : Pending S) : SpineEvent S :=
  .requestTimedOut request.request request.destination

/-- Waits for the answer to a request. The oldest requests give way once there are too many. -/
def await (e : Engine S) (destination : FeatureAddress) (counter : MsgCounter)
    (datagram : Datagram S) (now : Nat) : Engine S :=
  let excess := e.pending.length + 1 - maxPendingRequests
  { e with
    events := e.events ++ (e.pending.take excess).map timedOutEvent
    pending := e.pending.drop excess ++
      [{ request := counter
         transmissions := [counter]
         destination := destination
         datagram := datagram
         retries := 0
         deadline := now + e.responseDelayOf destination
         awaiting := .answer }] }

def send (e : Engine S) (datagram : Datagram S) : Engine S :=
  { e with outbox := e.outbox ++ [datagram] }

def localAddress (e : Engine S) (addressed : FeatureAddress) : FeatureAddress :=
  { addressed with device := some e.device.address }

def header (source destination : FeatureAddress) (counter : MsgCounter)
    (classifier : CmdClassifier) (ackRequest : Bool) (reference : Option MsgCounter) : Header where
  specificationVersion := some spineVersion
  addressSource := some source
  addressDestination := some destination
  msgCounter := some counter
  msgCounterReference := reference
  cmdClassifier := some classifier
  ackRequest := if ackRequest then some true else none

def sendCmd (e : Engine S) (source destination : FeatureAddress) (classifier : CmdClassifier)
    (reference : Option MsgCounter) (cmd : Cmd S) : Engine S :=
  (e.advanceCounter).send
    ⟨some (header source destination e.counters classifier false reference), some ⟨some [cmd]⟩⟩

def request (e : Engine S) (source destination : FeatureAddress) (classifier : CmdClassifier)
    (ackRequest : Bool) (cmd : Cmd S) (now : Nat) : Engine S × MsgCounter :=
  let datagram : Datagram S :=
    ⟨some (header source destination e.counters classifier ackRequest none), some ⟨some [cmd]⟩⟩
  ((e.advanceCounter.await destination e.counters datagram now).send datagram, e.counters)

def sendResult (e : Engine S) (source destination : FeatureAddress) (reference : MsgCounter)
    (error : ErrorNumber) : Engine S :=
  e.sendCmd (e.localAddress destination) source .result (some reference)
    (Cmd.withData ⟨.resultData, ⟨some error⟩⟩)

def readFiltered (e : Engine S) (destination source : FeatureAddress)
    (function : Function S.Other) (filters : List (Filter S)) (now : Nat) : Engine S × MsgCounter :=
  e.request source destination .read false (filters.foldl Cmd.withFilter (Cmd.read function)) now

def read (e : Engine S) (destination source : FeatureAddress) (function : Function S.Other)
    (now : Nat) : Engine S × MsgCounter :=
  e.readFiltered destination source function [] now

def writeFiltered (e : Engine S) (destination source : FeatureAddress) (data : CmdData S)
    (filters : List (Filter S)) (now : Nat) : Engine S × MsgCounter :=
  e.request source destination .write true (filters.foldl Cmd.withFilter (Cmd.withData data)) now

def call (e : Engine S) (data : CmdData S) (server : FeatureAddress) (now : Nat) :
    Engine S × MsgCounter :=
  let destination := match server.device with
    | some device => nodeManagement device
    | none => nodeManagementWithoutDevice
  e.request (nodeManagement e.device.address) destination .call true (Cmd.withData data) now

def peerFeatureType (e : Engine S) (address : FeatureAddress) : Option FeatureType := do
  let peer ← e.findPeer (← address.device)
  let entity ← peer.remote.entity (entityPath address)
  (entity.features.find? fun f => f.address.feature == address.feature).map
    RemoteFeature.featureType

def relationRequest (e : Engine S) (client server : FeatureAddress) : RelationRequestCall :=
  ⟨some ⟨some client, some server,
    (e.peerFeatureType server).or ((e.device.resolve server).map LocalFeature.featureType)⟩⟩

def requestBinding (e : Engine S) (client server : FeatureAddress) (now : Nat) :
    Engine S × MsgCounter :=
  e.call ⟨.nodeManagementBindingRequestCall, e.relationRequest client server⟩ server now

def requestSubscription (e : Engine S) (client server : FeatureAddress) (now : Nat) :
    Engine S × MsgCounter :=
  e.call ⟨.nodeManagementSubscriptionRequestCall, e.relationRequest client server⟩ server now

def discoveryReads (e : Engine S) (destination : FeatureAddress) (now : Nat) :
    Engine S × MsgCounter × MsgCounter :=
  let source := nodeManagement e.device.address
  let (e, first) := e.read destination source (.known .nodeManagementDetailedDiscoveryData) now
  let (e, second) := e.read destination source (.known .nodeManagementUseCaseData) now
  (e, first, second)

def startDiscovery (e : Engine S) (now : Nat) : Engine S × MsgCounter × MsgCounter :=
  e.discoveryReads nodeManagementWithoutDevice now

def discover (e : Engine S) (peer : AddressDevice) (now : Nat) :
    Engine S × MsgCounter × MsgCounter :=
  e.discoveryReads (nodeManagement peer) now

def subscribeToDiscovery (e : Engine S) (peer : AddressDevice) (now : Nat) : Engine S × MsgCounter :=
  e.requestSubscription (nodeManagement e.device.address) (nodeManagement peer) now

def relationEntry (relation : Relation) : RelationEntry :=
  ⟨relation.id, some relation.client, some relation.server⟩

def relationTable (relations : List Relation) : NodeManagementRelationData :=
  ⟨if relations.isEmpty then none else some (relations.map relationEntry)⟩

/-- The functions of NodeManagement that are computed rather than stored. -/
def nodeManagementData (e : Engine S) (function : Function S.Other)
    (recipient : Option AddressDevice) : Option (CmdData S) :=
  match function with
  | .known .nodeManagementDetailedDiscoveryData =>
    some ⟨.nodeManagementDetailedDiscoveryData, detailedDiscovery e.device⟩
  | .known .nodeManagementUseCaseData =>
    some ⟨.nodeManagementUseCaseData, useCaseData e.device.address e.useCases⟩
  | .known .nodeManagementBindingData =>
    some ⟨.nodeManagementBindingData,
      relationTable ((recipient.map e.relations.bindingsWith).getD [])⟩
  | .known .nodeManagementSubscriptionData =>
    some ⟨.nodeManagementSubscriptionData,
      relationTable ((recipient.map e.relations.subscriptionsWith).getD [])⟩
  | _ => none

def notification (e : Engine S) (feature : FeatureAddress) (function : Function S.Other)
    (subscriber : FeatureAddress) : Option (CmdData S) :=
  let stored := e.device.data feature function
  if isNodeManagement feature then (e.nodeManagementData function subscriber.device).or stored
  else stored

def notifySubscriber (feature : FeatureAddress) (function : Function S.Other) (e : Engine S)
    (subscriber : FeatureAddress) : Engine S :=
  match e.notification feature function subscriber with
  | none => e
  | some data => e.sendCmd feature subscriber .notify none (Cmd.withData data)

def notify (e : Engine S) (feature : FeatureAddress) (function : Function S.Other) : Engine S :=
  if !isNodeManagement feature && (e.device.data feature function).isNone then e
  else (e.relations.subscribersOf feature).foldl (notifySubscriber feature function) e

def notifyDiscoveryChange (e : Engine S) (data : NodeManagementDetailedDiscoveryData S.Other) :
    Engine S :=
  let source := nodeManagement e.device.address
  (e.relations.subscribersOf source).foldl (fun e subscriber =>
    e.sendCmd source subscriber .notify none
      ((Cmd.withData ⟨.nodeManagementDetailedDiscoveryData, data⟩).withFilter Filter.partialUpdate)) e

end Engine

end Eebus.Spine
