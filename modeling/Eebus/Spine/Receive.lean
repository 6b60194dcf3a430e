import Eebus.Spine.Engine

/-! Receiving: what a datagram does to the engine, and what becomes of a write the application
decides on. -/

namespace Eebus.Spine

open Eebus.Library Eebus.Model

variable {S : Schema}

inductive CmdOutcome
  | answer (error : ErrorNumber)
  | deferred
deriving DecidableEq

namespace Engine

def readFunction (cmd : Cmd S) : Option (Function S.Other) :=
  cmd.function.or (cmd.data.map CmdData.function)

def readAnswer (e : Engine S) (cmd : Cmd S) (source destination : FeatureAddress) :
    Except ErrorNumber (CmdData S × Bool) :=
  match readFunction cmd with
  | none => .error .general
  | some function =>
    if cmd.filters.length > 1 then .error .restrictedExchangeNotSupported
    else
      match e.device.resolve destination with
      | none => .error .destinationUnknown
      | some feature =>
        match feature.function function with
        | none => .error .commandNotSupported
        | some entry =>
          if !entry.operations.read then .error .commandNotSupported
          else
            let computed :=
              if isNodeManagement destination then e.nodeManagementData function source.device
              else none
            match (computed.or entry.data).or (CmdData.empty function) with
            | none => .error .commandNotSupported
            | some data =>
              match cmd.filters.head? with
              | none => .ok (data, false)
              | some filter =>
                if !entry.operations.readPartial then .error .restrictedExchangeNotSupported
                else
                  match restrictForRead data filter with
                  | .ok data => .ok (data, true)
                  | .error error => .error error.errorNumber

def handleRead (e : Engine S) (cmd : Cmd S) (source destination : FeatureAddress)
    (counter : MsgCounter) : Engine S × ErrorNumber :=
  match e.readAnswer cmd source destination with
  | .error error => (e, error)
  | .ok (data, isPartial) =>
    let reply := Cmd.withData data
    let reply := if isPartial then reply.withFilter Filter.partialUpdate else reply
    (e.sendCmd (e.localAddress destination) source .reply (some counter) reply, .none)

def storeFeature (e : Engine S) (address : FeatureAddress) (feature : LocalFeature S) : Engine S :=
  { e with device := e.device.update address fun _ => feature }

def reportWritten (e : Engine S) (feature origin : FeatureAddress) (function : Function S.Other) :
    Engine S :=
  (e.emit (.dataWritten feature origin function)).notify feature function

def deferWrite (e : Engine S) (feature : LocalFeature S) (data : CmdData S) (ops : WriteOps S)
    (source destination : FeatureAddress) (counter : MsgCounter) (ackRequest : Bool) (now : Nat) :
    Engine S :=
  let token := e.nextToken
  { e with
    nextToken := e.nextToken + 1
    deferred := e.deferred ++
      [{ token := token
         feature := destination
         peer := source
         data := data
         ops := ops
         reference := counter
         ackRequest := ackRequest
         deadline := now + feature.maxResponseDelay.getD e.maxResponseDelay }]
    events := e.events ++ [.writeRequested
      { token := token
        request := counter
        feature := destination
        origin := source
        data := data
        resolved := resolveWrite (feature.data data.function) data ops
        isPartial := ops.isPartial
        delete := !ops.deletes.isEmpty }] }

def applyWrite (e : Engine S) (feature : LocalFeature S) (data : CmdData S) (ops : WriteOps S)
    (source destination : FeatureAddress) : Engine S × CmdOutcome :=
  match ops.applyTo feature data with
  | (feature', .ok ()) =>
    ((e.storeFeature destination feature').reportWritten destination source data.function,
      .answer .none)
  | (feature', .error error) => (e.storeFeature destination feature', .answer error.errorNumber)

def writePermitted (e : Engine S) (feature : LocalFeature S) (source destination : FeatureAddress) :
    Bool :=
  feature.binding ≠ .required || e.relations.isBound source destination

def handleWrite (e : Engine S) (cmd : Cmd S) (source destination : FeatureAddress)
    (counter : MsgCounter) (ackRequest : Bool) (now : Nat) : Engine S × CmdOutcome :=
  match cmd.data with
  | none => (e, .answer .general)
  | some data =>
    match e.device.resolve destination with
    | none => (e, .answer .destinationUnknown)
    | some feature =>
      if !e.writePermitted feature source destination then (e, .answer .bindingRequired)
      else
        let ops := WriteOps.of cmd
        match feature.checkWrite data (ops.isPartial || !ops.deletes.isEmpty) with
        | .error error => (e, .answer error.errorNumber)
        | .ok () =>
          if feature.approval = .deferred then
            if maxDeferredWrites ≤ e.deferred.length then (e, .answer .overload)
            else
              (e.deferWrite feature data ops source destination counter ackRequest now, .deferred)
          else e.applyWrite feature data ops source destination

inductive WriteError (S : Schema)
  | unknownToken
  | notStored (error : FeatureError S)

def findDeferred (e : Engine S) (token : Nat) : Option (DeferredWrite S) :=
  e.deferred.find? fun write => write.token == token

def dropDeferred (e : Engine S) (token : Nat) : Engine S :=
  { e with deferred := e.deferred.eraseP fun write => write.token == token }

def answerDeferred (e : Engine S) (write : DeferredWrite S) (error : ErrorNumber) : Engine S :=
  if owesAck .write write.ackRequest error then
    e.sendResult write.peer write.feature write.reference error
  else e

/-- What deciding to accept does to the feature: the application's own document replaces what is
stored outright; otherwise the write is applied as it arrived. -/
def commit (write : DeferredWrite S) (replacement : Option (CmdData S)) (feature : LocalFeature S) :
    LocalFeature S × Except (FeatureError S) Unit :=
  match replacement with
  | some data =>
    if data.key = write.data.key then
      match feature.setData data with
      | .ok (feature', _) => (feature', .ok ())
      | .error error => (feature, .error error)
    else (feature, .error .unknownFunction)
  | none => write.ops.applyTo feature write.data

def finishWrite (e : Engine S) (token : Nat) (replacement : Option (CmdData S)) :
    Engine S × Except (WriteError S) Unit :=
  match e.findDeferred token with
  | none => (e, .error .unknownToken)
  | some write =>
    let e := e.dropDeferred token
    match e.device.resolve write.feature with
    | none =>
      (e.answerDeferred write (FeatureError.errorNumber (.unknownFunction : FeatureError S)),
        .error (.notStored .unknownFunction))
    | some feature =>
      match commit write replacement feature with
      | (feature', .ok ()) =>
        let e := e.storeFeature write.feature feature'
        ((e.reportWritten write.feature write.peer write.data.function).answerDeferred write .none,
          .ok ())
      | (feature', .error error) =>
        ((e.storeFeature write.feature feature').answerDeferred write error.errorNumber,
          .error (.notStored error))

def acceptWrite (e : Engine S) (token : Nat) : Engine S × Except (WriteError S) Unit :=
  e.finishWrite token none

/-- A refusal that reports success would tell the peer its write was applied. -/
def rejectWrite (e : Engine S) (token : Nat) (error : ErrorNumber) : Engine S × Bool :=
  match e.findDeferred token with
  | none => (e, false)
  | some write =>
    ((e.dropDeferred token).answerDeferred write
      (if error.isSuccess then .commandRejected else error), true)

def clientOfCaller (named source : FeatureAddress) : Except ErrorNumber FeatureAddress :=
  match named.device, source.device with
  | some device, some sender => if device != sender then .error .commandRejected else .ok named
  | none, some sender => .ok { named with device := some sender }
  | _, none => .ok named

def requestEnds (call : RelationRequestCall) : Option (FeatureAddress × FeatureAddress) := do
  let request ← call.request
  some (← request.clientAddress, ← request.serverAddress)

def deleteEnds (call : RelationDeleteCall) : Option (FeatureAddress × FeatureAddress) := do
  let delete ← call.delete
  some (← delete.clientAddress, ← delete.serverAddress)

def handleBindingRequest (e : Engine S) (call : RelationRequestCall) (source : FeatureAddress) :
    Engine S × ErrorNumber :=
  match requestEnds call with
  | none => (e, .general)
  | some (named, server) =>
    match clientOfCaller named source with
    | .error error => (e, error)
    | .ok client =>
      if (e.device.resolve server).isNone then (e, .destinationUnknown)
      else
        match e.relations.addBinding client server with
        | (relations, .ok _) =>
          ({ e with relations := relations }.emit (.bindingGranted client server), .none)
        | (relations, .error error) => ({ e with relations := relations }, error)

def handleSubscriptionRequest (e : Engine S) (call : RelationRequestCall)
    (source : FeatureAddress) : Engine S × ErrorNumber :=
  match requestEnds call with
  | none => (e, .general)
  | some (named, server) =>
    match clientOfCaller named source with
    | .error error => (e, error)
    | .ok client =>
      if !isNodeManagement server && (e.device.resolve server).isNone then
        (e, .destinationUnknown)
      else
        match e.relations.addSubscription client server with
        | (relations, .ok _) =>
          ({ e with relations := relations }.emit (.subscriptionGranted client server), .none)
        | (relations, .error error) => ({ e with relations := relations }, error)

def handleBindingDelete (e : Engine S) (call : RelationDeleteCall) (source : FeatureAddress) :
    Engine S × ErrorNumber :=
  match deleteEnds call with
  | none => (e, .none)
  | some (named, server) =>
    match clientOfCaller named source with
    | .error error => (e, error)
    | .ok client =>
      ({ e with relations := e.relations.removeBinding client server }.emit
        (.bindingReleased client server), .none)

def handleSubscriptionDelete (e : Engine S) (call : RelationDeleteCall)
    (source : FeatureAddress) : Engine S × ErrorNumber :=
  match deleteEnds call with
  | none => (e, .none)
  | some (named, server) =>
    match clientOfCaller named source with
    | .error error => (e, error)
    | .ok client =>
      ({ e with relations := e.relations.removeSubscription client server }.emit
        (.subscriptionReleased client server), .none)

def handleCall (e : Engine S) (cmd : Cmd S) (source : FeatureAddress) : Engine S × ErrorNumber :=
  match cmd.data with
  | some ⟨.nodeManagementBindingRequestCall, call⟩ => e.handleBindingRequest call source
  | some ⟨.nodeManagementSubscriptionRequestCall, call⟩ => e.handleSubscriptionRequest call source
  | some ⟨.nodeManagementBindingDeleteCall, call⟩ => e.handleBindingDelete call source
  | some ⟨.nodeManagementSubscriptionDeleteCall, call⟩ => e.handleSubscriptionDelete call source
  | _ => (e, .commandNotSupported)

/-- The device a discovery document is filed under: the header's, or the payload's for the one
message that carries none in its header. -/
def discoveryDevice (source : FeatureAddress)
    (update : NodeManagementDetailedDiscoveryData S.Other) : Option AddressDevice :=
  source.device.or do
    let information ← update.deviceInformation
    let address ← (← information.description).deviceAddress
    address.device

def absorbDiscovery (e : Engine S) (source : FeatureAddress)
    (update : NodeManagementDetailedDiscoveryData S.Other) (ops : WriteOps S) :
    Engine S × NodeManagementDetailedDiscoveryData S.Other :=
  match discoveryDevice (S := S) source update with
  | none => (e, update)
  | some device =>
    let e := e.peerEntry device
    let stored := (e.peerAt device).discovery
    let merged :=
      if !ops.deletes.isEmpty then mergeDetailedDiscovery stored (markRemoved update)
      else if ops.isPartial then mergeDetailedDiscovery stored update
      else update
    ((e.updatePeer device fun peer =>
        { peer with discovery := merged, remote := peer.remote.applyDetailedDiscovery merged }).emit
      (.discoveryUpdated device), merged)

def absorbUseCases (e : Engine S) (source : FeatureAddress) (update : NodeManagementUseCaseData)
    (ops : WriteOps S) : Engine S × NodeManagementUseCaseData :=
  match source.device with
  | none => (e, update)
  | some device =>
    let e := e.peerEntry device
    let stored := (e.peerAt device).useCases
    let merged :=
      if ops.isPartial || !ops.deletes.isEmpty then
        mergeUseCases stored update (!ops.deletes.isEmpty)
      else update
    ((e.updatePeer device fun peer =>
        { peer with useCases := merged, remote := peer.remote.applyUseCaseData merged }).emit
      (.useCasesUpdated device), merged)

def remembers (source : FeatureAddress) (data : CmdData S) (held : FeatureAddress × CmdData S) :
    Bool :=
  sameFeature held.1 source && held.2.key == data.key

/-- Merges a fragment into the remembered value, bounded as a stored list is. What was remembered
is taken out first; a merge that fails does not put it back. -/
def resolveRemembered (source : FeatureAddress) (data : CmdData S) (ops : WriteOps S)
    (remembered : List (FeatureAddress × CmdData S)) :
    List (FeatureAddress × CmdData S) × CmdData S :=
  match ((remembered.find? (remembers source data)).map Prod.snd).or
      (CmdData.empty data.function) with
  | none => (remembered, data)
  | some start =>
    let rest := remembered.eraseP (remembers source data)
    match ops.resolve start data with
    | .error _ => (rest, data)
    | .ok resolved =>
      if resolved.entryCount > maxListEntries then (rest, data)
      else
        let rest := if maxRemoteFunctions ≤ rest.length then rest.drop 1 else rest
        (rest ++ [(source, resolved)], resolved)

def resolveRemote (e : Engine S) (source : FeatureAddress) (data : CmdData S) (ops : WriteOps S) :
    Engine S × CmdData S :=
  match source.device with
  | none => (e, data)
  | some device =>
    let e := e.peerEntry device
    let (remembered, resolved) := resolveRemembered source data ops (e.peerAt device).data
    (e.updatePeer device fun peer => { peer with data := remembered }, resolved)

def absorb (e : Engine S) (source : FeatureAddress) (data : CmdData S) (ops : WriteOps S) :
    Engine S × CmdData S :=
  match data with
  | ⟨.nodeManagementDetailedDiscoveryData, update⟩ =>
    let (e, merged) := e.absorbDiscovery source update ops
    (e, ⟨.nodeManagementDetailedDiscoveryData, merged⟩)
  | ⟨.nodeManagementUseCaseData, update⟩ =>
    let (e, merged) := e.absorbUseCases source update ops
    (e, ⟨.nodeManagementUseCaseData, merged⟩)
  | data => e.resolveRemote source data ops

def handleIncomingData (e : Engine S) (cmd : Cmd S) (source : FeatureAddress)
    (classifier : CmdClassifier) : Engine S × ErrorNumber :=
  match cmd.data with
  | none => (e, .general)
  | some data =>
    let (e, resolved) := e.absorb source data (WriteOps.of cmd)
    (e.emit (if classifier = .reply then .replyReceived source data resolved
      else .dataNotified source data resolved), .none)

def answers (reference : MsgCounter) (origin : FeatureAddress) (p : Pending S) : Bool :=
  p.transmissions.contains reference
    && p.destination.device.all fun peer => origin.device == some peer

def resolvePending (e : Engine S) (reference : Option MsgCounter) (origin : FeatureAddress) :
    Engine S × Option (Pending S) :=
  match reference with
  | none => (e, none)
  | some reference =>
    ({ e with pending := e.pending.eraseP (answers reference origin) },
      e.pending.find? (answers reference origin))

def recordRelation (relations : Relations) (request : Datagram S) : Relations :=
  match request.commands.head?.bind Cmd.data with
  | some ⟨.nodeManagementBindingRequestCall, call⟩ =>
    match requestEnds call with
    | some (client, server) => relations.recordBinding client server
    | none => relations
  | some ⟨.nodeManagementSubscriptionRequestCall, call⟩ =>
    match requestEnds call with
    | some (client, server) => relations.recordSubscription client server
    | none => relations
  | some ⟨.nodeManagementBindingDeleteCall, call⟩ =>
    match deleteEnds call with
    | some (client, server) => relations.removeHeld client server
    | none => relations
  | some ⟨.nodeManagementSubscriptionDeleteCall, call⟩ =>
    match deleteEnds call with
    | some (client, server) => relations.removeHeld client server
    | none => relations
  | _ => relations

def resultError (cmd : Cmd S) : ErrorNumber :=
  match cmd.data with
  | some ⟨.resultData, result⟩ => result.errorNumber.getD .none
  | _ => .general

def handleResult (e : Engine S) (cmd : Cmd S) (reference : Option MsgCounter)
    (origin : FeatureAddress) : Engine S :=
  match e.resolvePending reference origin with
  | (e, none) => e
  | (e, some request) =>
    let error := resultError cmd
    let e := if error.isSuccess then
        { e with relations := recordRelation e.relations request.datagram }
      else e
    e.emit (.resultReceived request.request error)

def handleCmd (e : Engine S) (cmd : Cmd S) (source destination : FeatureAddress)
    (classifier : CmdClassifier) (counter : MsgCounter) (reference : Option MsgCounter)
    (ackRequest : Bool) (now : Nat) : Engine S × CmdOutcome :=
  match classifier with
  | .read =>
    let (e, error) := e.handleRead cmd source destination counter
    (e, .answer error)
  | .write => e.handleWrite cmd source destination counter ackRequest now
  | .call =>
    let (e, error) := e.handleCall cmd source
    (e, .answer error)
  | .reply | .notify =>
    let (e, _) := e.resolvePending reference source
    let (e, error) := e.handleIncomingData cmd source classifier
    (e, .answer error)
  | .result => (e.handleResult cmd reference source, .answer .none)

/-- A payload carries exactly one command: several are refused whole, and a request with none
asked for nothing. -/
def handleCommands (e : Engine S) (commands : List (Cmd S)) (source destination : FeatureAddress)
    (classifier : CmdClassifier) (counter : MsgCounter) (reference : Option MsgCounter)
    (ackRequest : Bool) (now : Nat) : Engine S × CmdOutcome :=
  match commands with
  | [cmd] => e.handleCmd cmd source destination classifier counter reference ackRequest now
  | [] =>
    match classifier with
    | .read | .write | .call => (e, .answer .general)
    | _ => (e, .answer .none)
  | _ => (e, .answer .general)

def acknowledge (e : Engine S) (source destination : FeatureAddress) (counter : MsgCounter)
    (classifier : CmdClassifier) (ackRequest : Bool) : CmdOutcome → Engine S
  | .deferred => e
  | .answer error =>
    if owesAck classifier ackRequest error then e.sendResult source destination counter error
    else e

def serve (e : Engine S) (datagram : Datagram S) (source destination : FeatureAddress)
    (classifier : CmdClassifier) (counter : MsgCounter) (reference : Option MsgCounter)
    (ackRequest : Bool) (now : Nat) : Engine S :=
  let (e, outcome) :=
    e.handleCommands datagram.commands source destination classifier counter reference ackRequest now
  e.acknowledge source destination counter classifier ackRequest outcome

def observeSource (e : Engine S) (source : FeatureAddress) (counter : MsgCounter) :
    Engine S × Bool :=
  match source.device with
  | none => (e, true)
  | some device => e.observeCounter device counter

def sourceTrusted (e : Engine S) (source : FeatureAddress) : Bool :=
  source.device.all fun device => isUsableDeviceAddress device && device != e.device.address

def handleDatagram (e : Engine S) (datagram : Datagram S) (now : Nat) : Engine S × Bool :=
  match datagram.header with
  | none => (e, false)
  | some header =>
    match header.msgCounter, header.cmdClassifier, header.addressSource,
      header.addressDestination with
    | some counter, some classifier, some source, some destination =>
      if !e.sourceTrusted source then (e, false)
      else if !versionAcceptable header.specificationVersion then
        (if owesAck classifier true .general then e.sendResult source destination counter .general
          else e, false)
      else if destination.device.any (· != e.device.address) then
        let (e, fresh) := e.observeSource source counter
        (if fresh && owesAck classifier true .destinationUnreachable then
            e.sendResult source destination counter .destinationUnreachable
          else e, false)
      else
        let (e, fresh) := e.observeSource source counter
        if !fresh then (e, false)
        else
          (e.serve datagram source destination classifier counter header.msgCounterReference
            (header.ackRequest.getD false) now, true)
    | _, _, _, _ => (e, false)

/-- What a request whose deadline has passed becomes: it waits for its next retry, goes out again
under a counter of its own, or is given up on. -/
def expire (now : Nat) (acc : Engine S × List (Pending S) × List (Pending S)) (request : Pending S) :
    Engine S × List (Pending S) × List (Pending S) :=
  let (e, kept, abandoned) := acc
  if now < request.deadline then (e, kept ++ [request], abandoned)
  else
    match request.awaiting with
    | .answer =>
      match retrySchedule[request.retries]? with
      | some delay =>
        (e, kept ++ [{ request with awaiting := .retry, deadline := now + delay }], abandoned)
      | none => (e, kept, abandoned ++ [request])
    | .retry =>
      let counter := e.counters
      let datagram := { request.datagram with
        header := request.datagram.header.map fun h => { h with msgCounter := some counter } }
      let retried := { request with
        retries := request.retries + 1
        transmissions := request.transmissions ++ [counter]
        datagram := datagram
        awaiting := .answer
        deadline := now + e.responseDelayOf request.destination }
      ((e.advanceCounter.send datagram).emit
        (.requestRetried request.request request.destination retried.retries),
        kept ++ [retried], abandoned)

def handleTimeout (e : Engine S) (now : Nat) : Engine S :=
  let (e, kept, abandoned) := e.pending.foldl (expire now) ({ e with pending := [] }, [], [])
  let e := { e with pending := kept, events := e.events ++ abandoned.map timedOutEvent }
  let stale := fun write : DeferredWrite S => write.deadline ≤ now
  { e with
    deferred := e.deferred.filter fun write => !stale write
    events := e.events ++ (e.deferred.filter fun write => stale write).map abandonedEvent }

def insertBinding (e : Engine S) (client server : FeatureAddress) : Engine S :=
  { e with relations := (e.relations.addBinding client server).1 }

def insertSubscription (e : Engine S) (client server : FeatureAddress) : Engine S :=
  { e with relations := (e.relations.addSubscription client server).1 }

def addEntity (e : Engine S) (entity : LocalEntity S) :
    Engine S × Except LocalDevice.DeviceError Unit :=
  match e.device.addEntity entity with
  | .error error => (e, .error error)
  | .ok device => ({ e with device := device }.notifyDiscoveryChange (entitiesAdded [entity]), .ok ())

def modifyEntity (e : Engine S) (path : List Nat) : Engine S × Except LocalDevice.DeviceError Unit :=
  match e.device.entity path with
  | none => (e, .error .unknownEntity)
  | some entity => (e.notifyDiscoveryChange (entitiesModified [entity]), .ok ())

def removeEntity (e : Engine S) (path : List Nat) :
    Engine S × Except LocalDevice.DeviceError (List (LocalEntity S)) :=
  match e.device.removeEntity path with
  | .error error => (e, .error error)
  | .ok (device, removed) =>
    let useCases := e.useCases.filter fun announced => !path.isPrefixOf announced.entity
    let changed := useCases.length ≠ e.useCases.length
    let e := { e with
      device := device
      relations := e.relations.removeLocalEntity device.address path
      useCases := useCases }
    let e := e.notifyDiscoveryChange (entitiesRemoved removed)
    (if changed then e.notify (nodeManagement device.address) (.known .nodeManagementUseCaseData)
      else e, .ok removed)

end Engine

end Eebus.Spine
