import Eebus.Limitation.Actor
import Eebus.Spine.Operations

/-!
The Energy Guard: the side that sets the limit. It attaches to the Controllable Systems it finds,
learns how each numbers its data, and writes what the grid requires of it, heartbeat first.
-/

namespace Eebus.Limitation

open Eebus.Library Eebus.Model Eebus.Spine

variable {S : Schema}

def retryBackoffStep : Nat := fromSecs 60
def minWriteInterval : Nat := fromSecs (5 * 60)
def heartbeatFreshness : Nat := fromSecs 30
def subscriptionGrace : Nat := fromSecs 10

def Direction.useCaseName : Direction → UseCaseName
  | .consumption => "limitationOfPowerConsumption"
  | .production => "limitationOfPowerProduction"

structure ControllableSystemPeer where
  device : AddressDevice
  loadControl : FeatureAddress
  deviceConfiguration : FeatureAddress
  deviceDiagnosis : Option FeatureAddress
  electricalConnection : Option FeatureAddress
deriving DecidableEq

def locate {Other : Type} (remote : RemoteDevice Other) (direction : Direction) :
    Option ControllableSystemPeer := do
  let useCase ← remote.useCase direction.useCaseName "ControllableSystem"
  let device ← remote.address
  let loadControl ← remote.addressOf useCase .loadControl .server
  let deviceConfiguration ← remote.addressOf useCase .deviceConfiguration .server
  some
    { device := device
      loadControl := loadControl
      deviceConfiguration := deviceConfiguration
      deviceDiagnosis := remote.addressOf useCase .deviceDiagnosis .server
      electricalConnection := remote.addressOf useCase .electricalConnection .server }

def findLimitId (data : CmdData S) (direction : Direction) : Option Nat :=
  match data with
  | ⟨.loadControlLimitDescriptionListData, list⟩ => do
    let entry ← (list.loadControlLimitDescriptionData.getD []).find? fun entry =>
      entry.limitType == some "signDependentAbsValueLimit"
        && entry.limitCategory == some "obligation"
        && entry.limitDirection == some direction.energyDirection
        && entry.scopeType == some "activePowerLimit"
    entry.limitId
  | _ => none

def findKeyId (data : CmdData S) (name : String) : Option Nat :=
  match data with
  | ⟨.deviceConfigurationKeyValueDescriptionListData, list⟩ => do
    let entry ← (list.deviceConfigurationKeyValueDescriptionData.getD []).find? fun entry =>
      entry.keyName == some name
    entry.keyId
  | _ => none

structure PeerIds where
  limit : Option Nat
  failsafeLimit : Option Nat
  failsafeDuration : Option Nat
deriving DecidableEq

namespace PeerIds

def new : PeerIds := ⟨none, none, none⟩

def take (slot found : Option Nat) : Option Nat × Bool :=
  if found.isSome && slot != found then (found, true) else (slot, false)

def learn (ids : PeerIds) (data : CmdData S) (direction : Direction) : PeerIds × Bool :=
  let (limit, limitChanged) := take ids.limit (findLimitId data direction)
  let (failsafeLimit, keyChanged) :=
    take ids.failsafeLimit (findKeyId data direction.failsafeLimitKey)
  let (failsafeDuration, durationChanged) :=
    take ids.failsafeDuration (findKeyId data failsafeDurationMinimumKey)
  (⟨limit, failsafeLimit, failsafeDuration⟩, limitChanged || keyChanged || durationChanged)

def canWriteLimit (ids : PeerIds) : Bool := ids.limit.isSome

end PeerIds

def readConstraints (data : CmdData S) (direction : Direction) : Option NominalMax :=
  match data with
  | ⟨.electricalConnectionCharacteristicListData, list⟩ =>
    (list.electricalConnectionCharacteristicData.getD []).findSome? fun entry => do
      let watts ← entry.value.bind ScaledNumber.toF64
      if entry.characteristicType = some direction.nominalMaxCharacteristic then
        some (.device watts)
      else if entry.characteristicType = some direction.contractualMaxCharacteristic then
        some (.contractual watts)
      else none
  | _ => none

def NominalMax.same : NominalMax → NominalMax → Bool
  | .device a, .device b | .contractual a, .contractual b => a.eq b
  | _, _ => false

structure HeartbeatMonitor where
  timeout : Nat
  last : Option Nat
  counter : Option Nat
  reportedLost : Bool
deriving DecidableEq

namespace HeartbeatMonitor

def new : HeartbeatMonitor := ⟨fromSecs 120, none, none, false⟩

def withTimeout (monitor : HeartbeatMonitor) (timeout : Nat) : HeartbeatMonitor :=
  { monitor with timeout := timeout }

def observe (monitor : HeartbeatMonitor) (now : Nat) : HeartbeatMonitor :=
  { monitor with last := some now, reportedLost := false }

def observeData (monitor : HeartbeatMonitor) (data : CmdData S) (now : Nat) :
    HeartbeatMonitor × Bool :=
  match data with
  | ⟨.deviceDiagnosisHeartbeatData, beat⟩ =>
    ({ monitor with
        counter := beat.heartbeatCounter.or monitor.counter
        last := some now
        reportedLost := false }, true)
  | _ => (monitor, false)

def pollTimeout (monitor : HeartbeatMonitor) : Option Nat :=
  monitor.last.map fun last => last + monitor.timeout

def isAlive (monitor : HeartbeatMonitor) (now : Nat) : Bool :=
  monitor.last.any fun last => now - last < monitor.timeout

def handleTimeout (monitor : HeartbeatMonitor) (now : Nat) : HeartbeatMonitor × Bool :=
  if monitor.reportedLost || monitor.isAlive now || monitor.last.isNone then (monitor, false)
  else ({ monitor with reportedLost := true }, true)

end HeartbeatMonitor

/-- An activated limit carries no duration of zero, which would mean to deactivate it at once. -/
def normalise (limit : LimitWrite) : LimitWrite :=
  let limit := if limit.watts.isNegative then { limit with watts := F64.zero } else limit
  if limit.isActive ∧ limit.duration = some 0 then { limit with duration := none } else limit

def sameLimit (a b : LimitWrite) : Bool :=
  a.isActive == b.isActive && a.duration == b.duration
    && (!a.isActive || (absF64 (a.watts.sub b.watts)).lt (F64.ofRat false (1 / 2)))

def limitPayload (limit : LimitWrite) (limitId : Nat) : CmdData S :=
  ⟨.loadControlLimitListData, ⟨some [
    { limitId := some limitId
      isLimitChangeable := none
      isLimitActive := some limit.isActive
      timePeriod := limit.duration.map fun d => ⟨none, some (formatIso8601Duration d)⟩
      value := some (ScaledNumber.fromF64 limit.watts 0) }]⟩⟩

def withdrawEndTime (limitId : Nat) : Filter S where
  cmdControl := some ⟨true, false⟩
  selectors := some [⟨.loadControlLimitListData, cast (by rw [S.loadControl]; rfl)
    ({ limitId := some limitId } : LoadControlLimitListDataSelectors)⟩]
  elements := some ⟨.loadControlLimitListData, cast (by rw [S.loadControl]; rfl)
    ({ limitId := false
       isLimitChangeable := false
       isLimitActive := false
       timePeriod := some ⟨false, true⟩
       value := none } : LoadControlLimitDataElements)⟩

def limitFilters (limit : LimitWrite) (limitId : Nat) : List (Filter S) :=
  if limit.duration.isSome then [Filter.partialUpdate]
  else [withdrawEndTime limitId, Filter.partialUpdate]

structure Tracked where
  peer : ControllableSystemPeer
  boundLoadControl : Bool
  boundConfiguration : Bool
  readyReported : Bool
  ids : PeerIds
  reportedNoLimit : Bool
  /-- The limit the grid situation requires of this peer. -/
  required : Option LimitWrite
  /-- The limit whose acknowledgement is outstanding. -/
  outstanding : Option (MsgCounter × LimitWrite)
  /-- The limit this peer has acknowledged. -/
  applied : Option LimitWrite
  lastWrite : Option Nat
  writeDueAt : Option Nat
  retryAt : Option Nat
  refusals : Nat
  monitor : HeartbeatMonitor
  pendingBindings : List (MsgCounter × FeatureAddress)
  pendingReads : List (MsgCounter × FeatureAddress)
  attachedAt : Nat
  watchesHeartbeat : Bool
  nominalMax : Option NominalMax
  /-- When this peer was last sent a heartbeat it could have received. -/
  beatSeenAt : Option Nat
  openingWriteSent : Bool
deriving DecidableEq

namespace Tracked

def new (peer : ControllableSystemPeer) (now : Nat) : Tracked where
  peer := peer
  boundLoadControl := false
  boundConfiguration := false
  readyReported := false
  ids := .new
  reportedNoLimit := false
  required := none
  outstanding := none
  applied := none
  lastWrite := none
  writeDueAt := none
  retryAt := none
  refusals := 0
  monitor := .new
  pendingBindings := []
  pendingReads := []
  attachedAt := now
  watchesHeartbeat := false
  nominalMax := none
  beatSeenAt := none
  openingWriteSent := false

def isReady (t : Tracked) : Bool :=
  t.boundLoadControl && t.boundConfiguration && t.ids.canWriteLimit

def canBeHeard (t : Tracked) (now : Nat) : Bool :=
  t.watchesHeartbeat || subscriptionGrace ≤ now - t.attachedAt

def setRequired (t : Tracked) (limit : Option LimitWrite) (now : Nat) : Tracked :=
  { t with
    required := limit.map normalise
    retryAt := none
    refusals := 0
    writeDueAt := some now }

/-- Whether this peer's required limit differs from what it has acknowledged. The opening write is
owed whatever is required. -/
def wantsWrite (t : Tracked) : Bool :=
  if !t.openingWriteSent then true
  else
    match t.required.or (t.applied.map fun _ => LimitWrite.deactivated), t.applied with
    | none, _ => false
    | some required, some applied => !sameLimit required applied
    | some _, none => true

/-- Why no limit is written now: the time one becomes due, or that nothing is to be waited for. -/
def holdsBack (t : Tracked) (now : Nat) : Option (Option Nat) :=
  if !t.isReady || t.outstanding.isSome then some none
  else if !t.wantsWrite then some none
  else if !t.canBeHeard now then some (some (t.attachedAt + subscriptionGrace))
  else
    match t.retryAt, t.lastWrite with
    | some retryAt, _ => if now < retryAt then some (some retryAt) else none
    | none, some last => if now - last < minWriteInterval then some (some (last + minWriteInterval))
      else none
    | none, none => none

def wrote (t : Tracked) (counter : MsgCounter) (limit : LimitWrite) (now : Nat) : Tracked :=
  { t with
    outstanding := some (counter, limit)
    lastWrite := if t.openingWriteSent then some now else none
    retryAt := none
    writeDueAt := none
    openingWriteSent := true }

end Tracked

inductive Unanswered
  | limit
  | description
  | binding
deriving DecidableEq

inductive GuardEvent
  | ready (device : AddressDevice)
  | limitAccepted (device : AddressDevice) (limit : LimitWrite) (request : MsgCounter)
  | limitRefused (device : AddressDevice) (limit : LimitWrite) (error : ErrorNumber) (retryAt : Nat)
  | constraintsLearned (device : AddressDevice) (nominalMax : NominalMax)
  | peerHeartbeatLost (device : AddressDevice)
  | noLimitPublished (device : AddressDevice)
  | peerUnresponsive (device : AddressDevice) (outstanding : Unanswered)
deriving DecidableEq

structure EnergyGuardActor where
  direction : Direction
  client : FeatureAddress
  diagnosis : FeatureAddress
  heartbeat : HeartbeatProducer
  peers : List Tracked
  /-- What the grid requires of a device this guard has not attached to yet. -/
  deferred : List (AddressDevice × Option LimitWrite)
  audit : AuditLog

namespace EnergyGuardActor

def new (direction : Direction) (client diagnosis : FeatureAddress) (now : Nat) :
    EnergyGuardActor where
  direction := direction
  client := client
  diagnosis := diagnosis
  heartbeat := { HeartbeatProducer.new now with next := now }
  peers := []
  deferred := []
  audit := AuditLog.new

def tracked (actor : EnergyGuardActor) (device : AddressDevice) : Option Tracked :=
  actor.peers.find? fun t => t.peer.device == device

/-- When `handleTimeout` is to be called next: the earliest of the heartbeat, the backoffs and the limits
that wait to go out. -/
def pollTimeout (actor : EnergyGuardActor) : Nat :=
  actor.peers.foldl (fun next t =>
    let next := t.writeDueAt.elim next (min next)
    t.retryAt.elim next (min next)) actor.heartbeat.next

end EnergyGuardActor

/-- What passes between the guard and a peer, as the guard sees it. -/
inductive Mark
  | attached
  | detached
  | subscribed
  | boundLoadControl
  | boundConfiguration
  | learned (limitId : Nat)
  | required (limit : Option LimitWrite)
  /-- A heartbeat has gone out to these devices. -/
  | beat (listeners : List AddressDevice)
  | wrote (limitId : Nat) (limit : LimitWrite)
  | accepted
  | refused
  | unanswered
deriving DecidableEq

/-- An entry of the guard's diary; one without a device concerns every peer. -/
structure Entry where
  time : Nat
  device : Option AddressDevice
  mark : Mark
deriving DecidableEq

def Datagram.toDevice (d : Datagram S) : Option AddressDevice :=
  (d.header.bind Header.addressDestination).bind FeatureAddress.device

/-- A guard over its engine, with a diary of what has passed so far, the latest first. -/
structure Guarding (S : Schema) where
  actor : EnergyGuardActor
  engine : Engine S
  diary : List Entry

namespace Guarding

variable (s : Guarding S)

def updateAt (index : Nat) (f : Tracked → Tracked) : Guarding S :=
  { s with actor := { s.actor with peers := s.actor.peers.modify index f } }

def note (time : Nat) (device : Option AddressDevice) (mark : Mark) : Guarding S :=
  { s with diary := ⟨time, device, mark⟩ :: s.diary }

def recordBeat (now : Nat) : Guarding S :=
  { s with actor := { s.actor with peers := s.actor.peers.map fun t =>
      if t.watchesHeartbeat then { t with beatSeenAt := some now } else t } }

def beatNow (now : Nat) : Guarding S :=
  let (heartbeat, beat) := s.actor.heartbeat.beat now
  let published : CmdData S := ⟨.deviceDiagnosisHeartbeatData, beat⟩
  let e := (offerOne s.engine s.actor.diagnosis published).notify s.actor.diagnosis
    (.known .deviceDiagnosisHeartbeatData)
  -- Whom it reaches is read off what the engine has queued.
  let listeners := (e.outbox.drop s.engine.outbox.length).filterMap Datagram.toDevice
  { s with actor := { s.actor with heartbeat := heartbeat }, engine := e }.note now none (.beat listeners)
    |>.recordBeat now

def writeLimit (index : Nat) (t : Tracked) (limitId now : Nat) : Guarding S :=
  let limit := t.required.getD LimitWrite.deactivated
  let payload : CmdData S := limitPayload limit limitId
  let (e, counter) := s.engine.writeFiltered t.peer.loadControl s.actor.client payload
    (limitFilters limit limitId) now
  ({ s with engine := e }.note now (some t.peer.device) (.wrote limitId limit)).updateAt index
    (·.wrote counter limit now)

/-- Writes the limit of one peer unless something holds it back. The heartbeat goes first, unless
the peer has heard one lately. -/
def writeLimitIfDue (index now : Nat) : Guarding S :=
  match s.actor.peers[index]? with
  | none => s
  | some t =>
    match t.holdsBack now with
    | some due => s.updateAt index fun t => { t with writeDueAt := due }
    | none =>
      let stale := t.beatSeenAt.all fun at_ => heartbeatFreshness ≤ now - at_
      let s := if stale then s.beatNow now else s
      match t.ids.limit with
      | none => s
      | some limitId => s.writeLimit index t limitId now

def becomeReady (index now : Nat) : Guarding S × Option GuardEvent :=
  match s.actor.peers[index]? with
  | none => (s, none)
  | some t =>
    if !t.isReady || t.readyReported then (s, none)
    else
      ((s.updateAt index fun t => { t with readyReported := true }).writeLimitIfDue index now,
        some (.ready t.peer.device))

def introduce (t : Tracked) (now : Nat) : Tracked × Engine S :=
  let ask := fun (request : Engine S → FeatureAddress → Engine S × MsgCounter)
      (acc : Engine S × List (MsgCounter × FeatureAddress)) (feature : FeatureAddress) =>
    let (e, counter) := request acc.1 feature
    (e, acc.2 ++ [(counter, feature)])
  let needed := [t.peer.loadControl, t.peer.deviceConfiguration]
  let (e, bindings) := needed.foldl
    (ask fun e feature => e.requestBinding s.actor.client feature now) (s.engine, [])
  let (e, reads) := ask (fun e feature => e.read feature s.actor.client
    (.known .loadControlLimitDescriptionListData) now) (e, []) t.peer.loadControl
  let (e, reads) := ask (fun e feature => e.read feature s.actor.client
    (.known .deviceConfigurationKeyValueDescriptionListData) now) (e, reads)
      t.peer.deviceConfiguration
  let e := (needed ++ t.peer.deviceDiagnosis.toList ++ t.peer.electricalConnection.toList).foldl
    (fun e feature => (e.requestSubscription s.actor.client feature now).1) e
  let e := match t.peer.electricalConnection with
    | none => e
    | some electrical => (e.read electrical s.actor.client
        (.known .electricalConnectionCharacteristicListData) now).1
  ({ t with pendingBindings := bindings, pendingReads := reads }, e)

def attach (peer : ControllableSystemPeer) (now : Nat) : Guarding S :=
  let isIt := fun entry : AddressDevice × Option LimitWrite => entry.1 == peer.device
  let others := s.actor.peers.filter fun t => t.peer.device != peer.device
  let tracked := Tracked.new peer now
  -- What the grid asked for before this peer was reachable applies now.
  let tracked := match s.actor.deferred.find? isIt with
    | some (_, limit) => tracked.setRequired limit now
    | none => tracked
  let (tracked, e) := s.introduce tracked now
  { s with
    engine := e
    actor := { s.actor with
      peers := others ++ [tracked]
      deferred := s.actor.deferred.eraseP isIt } }.note now (some peer.device) .attached

def detach (device : AddressDevice) : Guarding S :=
  let peers := s.actor.peers.filter fun t => t.peer.device != device
  { s with actor := { s.actor with peers := peers } }.note 0 (some device) .detached

/-- Sets the limit the grid situation requires of a peer; one that is not attached has it kept. -/
def require (device : AddressDevice) (limit : Option LimitWrite) (now : Nat) : Guarding S :=
  let isIt := fun t : Tracked => t.peer.device == device
  let s := s.note now (some device) (.required limit)
  if s.actor.peers.any isIt then
    let peers := modifyFirst isIt (fun t _ => t.setRequired limit now) s.actor.peers
    { s with actor := { s.actor with peers := peers } }
  else
    let others := s.actor.deferred.filter fun entry => entry.1 != device
    { s with actor := { s.actor with deferred := others ++ [(device, limit)] } }

def requireAll (limit : Option LimitWrite) (now : Nat) : Guarding S :=
  let peers := s.actor.peers.map fun t : Tracked => t.setRequired limit now
  { s with actor := { s.actor with peers := peers } }.note now none (.required limit)

def writeFailsafe (device : AddressDevice) (key : PeerIds → Option Nat)
    (value : DeviceConfigurationKeyValueValue) (now : Nat) : Guarding S × Option MsgCounter :=
  match s.actor.tracked device with
  | none => (s, none)
  | some t =>
    if !t.boundConfiguration then (s, none)
    else
      match key t.ids with
      | none => (s, none)
      | some key =>
        let data : CmdData S :=
          ⟨.deviceConfigurationKeyValueListData, ⟨some [⟨some key, some value, none⟩]⟩⟩
        let (e, counter) := s.engine.writeFiltered t.peer.deviceConfiguration s.actor.client data
          [Filter.partialUpdate] now
        ({ s with engine := e }, some counter)

def writeFailsafeLimit (device : AddressDevice) (watts : F64) (now : Nat) :
    Guarding S × Option MsgCounter :=
  let watts := if watts.isNan || watts.lt F64.zero then F64.zero else watts
  s.writeFailsafe device PeerIds.failsafeLimit ⟨some (ScaledNumber.fromF64 watts 0), none⟩ now

def writeFailsafeDuration (device : AddressDevice) (duration now : Nat) :
    Guarding S × Option MsgCounter :=
  if failsafeDurationMin ≤ duration ∧ duration ≤ failsafeDurationMax then
    s.writeFailsafe device PeerIds.failsafeDuration
      ⟨none, some (formatIso8601Duration duration)⟩ now
  else (s, none)

def serve (now : Nat) (acc : Guarding S × List GuardEvent) (index : Nat) :
    Guarding S × List GuardEvent :=
  let (s, events) := acc
  match s.actor.peers[index]? with
  | none => (s, events)
  | some t =>
    let (monitor, lost) := t.monitor.handleTimeout now
    ((s.updateAt index fun t => { t with monitor := monitor }).writeLimitIfDue index now,
      if lost then events ++ [.peerHeartbeatLost t.peer.device] else events)

def handleTimeout (now : Nat) : Guarding S × List GuardEvent :=
  let s := if s.actor.heartbeat.next ≤ now then s.beatNow now else s
  (List.range s.actor.peers.length).foldl (serve now) (s, [])

def log (record : LimitRecord) : Guarding S :=
  { s with actor := { s.actor with audit := s.actor.audit.record record } }

def giveUp (request : MsgCounter) (now : Nat) : Guarding S × Option GuardEvent :=
  let waits := fun t : Tracked => t.outstanding.any (fun o => o.1 == request)
    || t.pendingBindings.any (fun p => p.1 == request) || t.pendingReads.any fun p => p.1 == request
  match s.actor.peers.findIdx? waits with
  | none => (s, none)
  | some index =>
    match s.actor.peers[index]? with
    | none => (s, none)
    | some t =>
      let device := t.peer.device
      match t.outstanding.filter fun o => o.1 == request with
      | some (_, limit) =>
        -- The limit is still owed, and due as soon as the rate allows.
        let s := (s.updateAt index fun t =>
          { t with outstanding := none, writeDueAt := some now }).note now (some device) .unanswered
        (s.log ⟨now, some device, request, some limit, .rejected .unstated⟩,
          some (.peerUnresponsive device .limit))
      | none =>
        if t.pendingReads.any fun p => p.1 == request then
          (s.updateAt index fun t =>
              { t with pendingReads := t.pendingReads.filter fun p => p.1 != request },
            some (.peerUnresponsive device .description))
        else
          (s.updateAt index fun t =>
              { t with pendingBindings := t.pendingBindings.filter fun p => p.1 != request },
            some (.peerUnresponsive device .binding))

def learnIds (index : Nat) (feature : FeatureAddress) (data : CmdData S) (now : Nat) :
    Guarding S × Option GuardEvent :=
  match s.actor.peers[index]? with
  | none => (s, none)
  | some t =>
    if feature ≠ t.peer.loadControl ∧ feature ≠ t.peer.deviceConfiguration then (s, none)
    else
      let (ids, learned) := t.ids.learn data s.actor.direction
      let s := s.updateAt index fun t =>
        { t with
          ids := ids
          pendingReads := if learned then t.pendingReads.filter fun p => p.2 != feature
            else t.pendingReads }
      let s := match ids.limit with
        | some limitId =>
          if t.ids.limit = some limitId then s else s.note now (some t.peer.device) (.learned limitId)
        | none => s
      if data.key = .loadControlLimitDescriptionListData ∧ ids.limit = none
          ∧ t.reportedNoLimit = false then
        (s.updateAt index fun t => { t with reportedNoLimit := true },
          some (.noLimitPublished t.peer.device))
      else if learned then s.becomeReady index now
      else (s, none)

def observeApplied (index : Nat) (data : CmdData S) (now : Nat) : Guarding S :=
  match s.actor.peers[index]? with
  | none => s
  | some t =>
    match t.ids.limit.bind (readLimitWrite data) with
    | none => s
    | some reported =>
      -- The acknowledgement of a write in flight is the authority, not a notify.
      if t.outstanding.isSome then s
      else if t.applied.any fun applied => sameLimit applied reported then s
      else
        let applied := { t with applied := some reported }
        if applied.wantsWrite then
          (s.updateAt index fun t =>
            { t with applied := some reported, writeDueAt := some now }).writeLimitIfDue index now
        else s.updateAt index fun t => { t with applied := some reported }

def resolveBinding (index : Nat) (request : MsgCounter) (error : ErrorNumber) (now : Nat) :
    Guarding S × Option GuardEvent :=
  match (s.actor.peers[index]?).bind fun t => t.pendingBindings.find? fun p => p.1 == request with
  | none => (s, none)
  | some (_, feature) =>
    let s := s.updateAt index fun t =>
      { t with pendingBindings := t.pendingBindings.eraseP fun p => p.1 == request }
    let s := match s.actor.peers[index]? with
      | none => s
      | some t =>
        if error.isSuccess then
          if feature = t.peer.loadControl then
            (s.updateAt index fun t => { t with boundLoadControl := true }).note now
              (some t.peer.device) .boundLoadControl
          else if feature = t.peer.deviceConfiguration then
            (s.updateAt index fun t => { t with boundConfiguration := true }).note now
              (some t.peer.device) .boundConfiguration
          else s
        else s
    s.becomeReady index now

def resolveLimit (index : Nat) (request : MsgCounter) (error : ErrorNumber) (now : Nat) :
    Guarding S × Option GuardEvent :=
  match s.actor.peers[index]? with
  | none => (s, none)
  | some t =>
    match t.outstanding with
    | none => (s, none)
    | some (_, limit) =>
      let device := t.peer.device
      if error.isSuccess then
        let s := (s.updateAt index fun t =>
          { t with outstanding := none, applied := some limit, refusals := 0, retryAt := none }).note
            now (some device) .accepted
        (s.log ⟨now, some device, request, some limit, .accepted⟩,
          some (.limitAccepted device limit request))
      else
        let refusals := min (t.refusals + 1) (2 ^ 32 - 1)
        let retryAt := now + retryBackoffStep * refusals
        let s := (s.updateAt index fun t =>
          { t with
            outstanding := none
            refusals := refusals
            retryAt := some retryAt
            writeDueAt := some retryAt }).note now (some device) .refused
        (s.log ⟨now, some device, request, some limit, .rejected .unstated⟩,
          some (.limitRefused device limit error retryAt))

def resolve (request : MsgCounter) (error : ErrorNumber) (now : Nat) :
    Guarding S × Option GuardEvent :=
  match s.actor.peers.findIdx? fun t => t.pendingBindings.any fun p => p.1 == request with
  | some index => s.resolveBinding index request error now
  | none =>
    match s.actor.peers.findIdx? fun t => t.outstanding.any fun o => o.1 == request with
    | some index => s.resolveLimit index request error now
    | none => (s, none)

def onData (index : Nat) (feature : FeatureAddress) (data : CmdData S) (now : Nat) :
    Guarding S × Option GuardEvent :=
  match s.actor.peers[index]? with
  | none => (s, none)
  | some t =>
    if t.peer.electricalConnection = some feature then
      match readConstraints data s.actor.direction with
      | none => (s, none)
      | some nominalMax =>
        if t.nominalMax.any nominalMax.same then (s, none)
        else
          (s.updateAt index fun t => { t with nominalMax := some nominalMax },
            some (.constraintsLearned t.peer.device nominalMax))
    else
      match s.learnIds index feature data now with
      | (s, some event) => (s, some event)
      | (s, none) =>
        let (monitor, observed) := t.monitor.observeData data now
        let s := s.updateAt index fun t => { t with monitor := monitor }
        if observed then (s, none)
        else if feature = t.peer.loadControl then (s.observeApplied index data now, none)
        else (s, none)

def onSubscription (client server : FeatureAddress) (now : Nat) : Guarding S :=
  if server ≠ s.actor.diagnosis then s
  else
    match client.device with
    | none => s
    | some device =>
      match s.actor.peers.findIdx? fun t => t.peer.device == device with
      | none => s
      | some index =>
        ((s.updateAt index fun t => { t with watchesHeartbeat := true }).note now (some device)
          .subscribed).writeLimitIfDue index now

def onAnnouncement (device : AddressDevice) (now : Nat) : Guarding S :=
  if s.actor.peers.any fun t => t.peer.device == device then s
  else
    match (s.engine.findPeer device).bind fun p => locate p.remote s.actor.direction with
    | none => s
    | some peer => s.attach peer now

def handleEvent (event : SpineEvent S) (now : Nat) : Guarding S × Option GuardEvent :=
  match event with
  | .discoveryUpdated device | .useCasesUpdated device => (s.onAnnouncement device now, none)
  | .dataNotified feature _ data | .replyReceived feature _ data =>
    match s.actor.peers.findIdx? fun t => t.peer.deviceDiagnosis == some feature
        || t.peer.loadControl == feature || t.peer.deviceConfiguration == feature
        || t.peer.electricalConnection == some feature with
    | none => (s, none)
    | some index => s.onData index feature data now
  | .subscriptionGranted client server => (s.onSubscription client server now, none)
  | .resultReceived request error => s.resolve request error now
  | .requestTimedOut request _ => s.giveUp request now
  | _ => (s, none)

end Guarding

/-- A call on the guard, or what happens to its engine in between. -/
inductive GuardCall (S : Schema)
  | attach (peer : ControllableSystemPeer) (now : Nat)
  | detach (device : AddressDevice)
  | require (device : AddressDevice) (limit : Option LimitWrite) (now : Nat)
  | requireAll (limit : Option LimitWrite) (now : Nat)
  | writeFailsafeLimit (device : AddressDevice) (watts : F64) (now : Nat)
  | writeFailsafeDuration (device : AddressDevice) (duration now : Nat)
  | handleTimeout (now : Nat)
  | handleEvent (event : SpineEvent S) (now : Nat)
  | engine (op : EngineOp S)

namespace Guarding

def start (direction : Direction) (client diagnosis : FeatureAddress) (e : Engine S) (now : Nat) :
    Guarding S := ⟨.new direction client diagnosis now, e, []⟩

def perform (s : Guarding S) : GuardCall S → Guarding S
  | .attach peer now => s.attach peer now
  | .detach device => s.detach device
  | .require device limit now => s.require device limit now
  | .requireAll limit now => s.requireAll limit now
  | .writeFailsafeLimit device watts now => (s.writeFailsafeLimit device watts now).1
  | .writeFailsafeDuration device duration now => (s.writeFailsafeDuration device duration now).1
  | .handleTimeout now => (s.handleTimeout now).1
  | .handleEvent event now => (s.handleEvent event now).1
  | .engine op => { s with engine := s.engine.perform op }

def machine : Machine (Guarding S) (GuardCall S) Unit where
  step s call := (s.perform call, ())

end Guarding

end Eebus.Limitation
