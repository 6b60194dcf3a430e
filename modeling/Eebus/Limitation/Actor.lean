import Eebus.Limitation.State
import Eebus.Model.ScaledNumber
import Eebus.Spine.Stored

/-!
The Controllable System on the wire: what it publishes, how it reads a peer's writes, and what an
engine event does to it.
-/

namespace Eebus.Limitation

open Eebus.Library Eebus.Model Eebus.Spine

inductive Direction
  | consumption
  | production
deriving DecidableEq, Repr

namespace Direction

def energyDirection : Direction → String
  | .consumption => "consume"
  | .production => "produce"

def failsafeLimitKey : Direction → String
  | .consumption => "failsafeConsumptionActivePowerLimit"
  | .production => "failsafeProductionActivePowerLimit"

def nominalMaxCharacteristic : Direction → String
  | .consumption => "powerConsumptionNominalMax"
  | .production => "powerProductionNominalMax"

def contractualMaxCharacteristic : Direction → String
  | .consumption => "contractualConsumptionNominalMax"
  | .production => "contractualProductionNominalMax"

end Direction

def failsafeDurationMinimumKey : String := "failsafeDurationMinimum"

def limitId : Nat := 1
def measurementId : Nat := 1
def failsafeLimitKeyId : Nat := 1
def failsafeDurationKeyId : Nat := 2
def electricalConnectionId : Nat := 1
def parameterId : Nat := 1
def characteristicId : Nat := 1

variable {S : Schema}

def loadControlFeature (address : Nat) : LocalFeature S :=
  (((LocalFeature.new address .loadControl .server).withDeferredWrites.withFunction
    (.known .loadControlLimitDescriptionListData) .readOnly).withFunction
    (.known .loadControlLimitListData) .readWrite)

def deviceConfigurationFeature (address : Nat) : LocalFeature S :=
  (((LocalFeature.new address .deviceConfiguration .server).withDeferredWrites.withFunction
    (.known .deviceConfigurationKeyValueDescriptionListData) .readOnly).withFunction
    (.known .deviceConfigurationKeyValueListData) .readWrite)

def deviceDiagnosisFeature (address : Nat) : LocalFeature S :=
  (LocalFeature.new address .deviceDiagnosis .server).withFunction
    (.known .deviceDiagnosisHeartbeatData) .readOnly

def deviceDiagnosisClientFeature (address : Nat) : LocalFeature S :=
  LocalFeature.new address .deviceDiagnosis .client

def EffectiveLimit.watts : EffectiveLimit → Option F64
  | .none => Option.none
  | .active watts | .failsafe watts => some watts

def limitDescription (direction : Direction) : CmdData S :=
  ⟨.loadControlLimitDescriptionListData, ⟨some [
    { limitId := some limitId
      limitType := some "signDependentAbsValueLimit"
      limitCategory := some "obligation"
      limitDirection := some direction.energyDirection
      measurementId := some measurementId
      unit := some "W"
      scopeType := some "activePowerLimit" }]⟩⟩

def limitEntry (cs : ControllableSystem) : LoadControlLimitData where
  limitId := some limitId
  isLimitChangeable := some true
  isLimitActive := some cs.isLimitActive
  timePeriod := none
  value := some (ScaledNumber.fromF64 (cs.effectiveLimit.watts.getD F64.zero) 0)

def limitData (cs : ControllableSystem) : CmdData S :=
  ⟨.loadControlLimitListData, ⟨some [limitEntry cs]⟩⟩

inductive NominalMax
  | device (watts : F64)
  | contractual (watts : F64)
deriving DecidableEq, Repr

def NominalMax.watts : NominalMax → F64
  | .device watts | .contractual watts => watts

def NominalMax.characteristic (direction : Direction) : NominalMax → String
  | .device _ => direction.nominalMaxCharacteristic
  | .contractual _ => direction.contractualMaxCharacteristic

def nominalMax (cs : ControllableSystem) : Option NominalMax :=
  if cs.config.onCem then cs.config.contractualMaxWatts.map .contractual
  else cs.config.nominalMaxWatts.map .device

def constraints (cs : ControllableSystem) (direction : Direction) : CmdData S :=
  ⟨.electricalConnectionCharacteristicListData, ⟨some ((nominalMax cs).toList.map fun max =>
    { electricalConnectionId := some electricalConnectionId
      parameterId := some parameterId
      characteristicId := some characteristicId
      characteristicContext := some "entity"
      characteristicType := some (max.characteristic direction)
      value := some (ScaledNumber.fromF64 max.watts 0)
      unit := some "W" })⟩⟩

def failsafeDescriptions (direction : Direction) : CmdData S :=
  ⟨.deviceConfigurationKeyValueDescriptionListData, ⟨some [
    { keyId := some failsafeLimitKeyId
      keyName := some direction.failsafeLimitKey
      valueType := some "scaledNumber"
      unit := some "W" },
    { keyId := some failsafeDurationKeyId
      keyName := some failsafeDurationMinimumKey
      valueType := some "duration"
      unit := none }]⟩⟩

def failsafeValues (cs : ControllableSystem) : CmdData S :=
  ⟨.deviceConfigurationKeyValueListData, ⟨some [
    { keyId := some failsafeLimitKeyId
      value := some ⟨some (ScaledNumber.fromF64 cs.config.failsafeWatts 0), none⟩
      isValueChangeable := some true },
    { keyId := some failsafeDurationKeyId
      value := some ⟨none, some (formatIso8601Duration cs.config.failsafeDuration)⟩
      isValueChangeable := some true }]⟩⟩

/-- A limit entry as a limit change. A value or an end time that is there and cannot be read makes
the whole write unusable. -/
def readLimitEntry (entry : LoadControlLimitData) : Option LimitWrite := do
  let watts ← match entry.value with
    | some value => value.toF64
    | none => some F64.zero
  let duration ← match entry.timePeriod.bind TimePeriod.endTime with
    | some endTime => (parseIso8601Duration endTime).map some
    | none => some none
  some ⟨entry.isLimitActive.getD false, watts, duration⟩

def readLimitWrite (data : CmdData S) (id : Nat) : Option LimitWrite :=
  match data with
  | ⟨.loadControlLimitListData, list⟩ => do
    let entry ← (← list.loadControlLimitData).find? fun e => e.limitId == some id
    readLimitEntry entry
  | _ => none

def readHeartbeat (data : CmdData S) : Option Nat :=
  match data with
  | ⟨.deviceDiagnosisHeartbeatData, heartbeat⟩ => heartbeat.heartbeatCounter.or (some 0)
  | _ => none

def defaultHeartbeatPeriod : Nat := fromSecs 60

structure HeartbeatProducer where
  period : Nat
  timeout : Nat
  counter : Nat
  next : Nat
deriving DecidableEq

namespace HeartbeatProducer

def new (now : Nat) : HeartbeatProducer where
  period := defaultHeartbeatPeriod
  timeout := defaultHeartbeatPeriod
  counter := 0
  next := now + defaultHeartbeatPeriod

def beat (p : HeartbeatProducer) (now : Nat) : HeartbeatProducer × DeviceDiagnosisHeartbeatData :=
  let counter := (p.counter + 1) % 2 ^ 64
  ({ p with counter := counter, next := now + p.period },
    ⟨none, some counter, some (formatIso8601Duration p.timeout)⟩)

end HeartbeatProducer

def defaultCapacity : Nat := 512

structure LimitRecord where
  time : Nat
  peer : Option AddressDevice
  request : MsgCounter
  write : Option LimitWrite
  outcome : WriteOutcome
deriving DecidableEq

structure AuditLog where
  records : List LimitRecord
  capacity : Nat
  dropped : Nat
  roomy : 1 ≤ capacity

namespace AuditLog

def withCapacity (capacity : Nat) : AuditLog :=
  ⟨[], max capacity 1, 0, Nat.le_max_right capacity 1⟩

def new : AuditLog := withCapacity defaultCapacity

def record (log : AuditLog) (record : LimitRecord) : AuditLog :=
  let excess := log.records.length + 1 - log.capacity
  { log with
    records := log.records.drop excess ++ [record]
    dropped := min (log.dropped + excess) (2 ^ 64 - 1) }

end AuditLog

inductive CsEvent
  | limitDecided (request : MsgCounter) (write : LimitWrite) (outcome : WriteOutcome)
  | limitUnreadable (request : MsgCounter) (outcome : WriteOutcome)
  | failsafeDecided (request : MsgCounter) (outcome : WriteOutcome)
  | guardIdentified (guard : FeatureAddress)
  | stateChanged (before after : LimitationState)
deriving DecidableEq

def WriteOutcome.errorNumber : WriteOutcome → ErrorNumber
  | .accepted => .none
  | .rejected _ => .commandRejected

structure CsFeatures where
  loadControl : FeatureAddress
  deviceConfiguration : FeatureAddress
  deviceDiagnosis : FeatureAddress
  deviceDiagnosisClient : FeatureAddress
deriving DecidableEq

/-- What the actor has made of the grants and releases it was told of: the holders of the two
bindings, the guard, and how far following the guard's heartbeat has come. -/
structure Belief where
  boundLoadControl : Option FeatureAddress
  boundConfiguration : Option FeatureAddress
  guard : Option FeatureAddress
  guardDiagnosis : Option FeatureAddress
  subscribed : Bool
  guardDiscoveryAsked : Bool
deriving DecidableEq

def Belief.new : Belief := ⟨none, none, none, none, false, false⟩

structure ControllableSystemActor where
  system : ControllableSystem
  direction : Direction
  features : CsFeatures
  electricalConnection : Option FeatureAddress
  heartbeat : HeartbeatProducer
  belief : Belief
  audit : AuditLog

def offer (f : LocalFeature S) (data : CmdData S) : LocalFeature S × Bool :=
  match f.setData data with
  | .ok result => result
  | .error _ => (f, false)

def offerBoth (e : Engine S) (address : FeatureAddress) (description values : CmdData S) :
    Engine S × Bool :=
  match e.device.resolve address with
  | none => (e, false)
  | some feature =>
    let described := (offer feature description).1
    let (stored, changed) := offer described values
    (e.storeFeature address stored, changed)

def offerOne (e : Engine S) (address : FeatureAddress) (data : CmdData S) : Engine S :=
  match e.device.resolve address with
  | none => e
  | some feature => e.storeFeature address (offer feature data).1

def HeartbeatProducer.tick (p : HeartbeatProducer) (e : Engine S) (feature : FeatureAddress)
    (now : Nat) : HeartbeatProducer × Engine S :=
  if now < p.next then (p, e)
  else
    let (p, beat) := p.beat now
    (p, (offerOne e feature ⟨.deviceDiagnosisHeartbeatData, beat⟩).notify feature
      (.known .deviceDiagnosisHeartbeatData))

namespace Belief

def onBinding (b : Belief) (features : CsFeatures) (client server : FeatureAddress) :
    Belief × Option CsEvent :=
  if server ≠ features.loadControl ∧ server ≠ features.deviceConfiguration then (b, none)
  else
    let b := if server = features.loadControl then { b with boundLoadControl := some client }
      else { b with boundConfiguration := some client }
    match b.boundLoadControl, b.boundConfiguration with
    | some first, some second =>
      if !sameEntity first second || b.guard.isSome then (b, none)
      else ({ b with guard := some first }, some (.guardIdentified first))
    | _, _ => (b, none)

def onRelease (b : Belief) (features : CsFeatures) (server : FeatureAddress) : Belief where
  boundLoadControl :=
    if sameEntity server features.loadControl then none else b.boundLoadControl
  boundConfiguration :=
    if !sameEntity server features.loadControl && sameEntity server features.deviceConfiguration
    then none else b.boundConfiguration
  guard := none
  guardDiagnosis := none
  subscribed := false
  guardDiscoveryAsked := false

def diagnosisOf (e : Engine S) (device : AddressDevice) (guard : FeatureAddress) :
    Option FeatureAddress := do
  let peer ← e.findPeer device
  let entity ← peer.remote.entity (entityPath guard)
  let feature ← entity.feature .deviceDiagnosis .server
  some feature.address

def follow (b : Belief) (e : Engine S) (features : CsFeatures) (now : Nat) : Belief × Engine S :=
  if b.subscribed then (b, e)
  else
    match b.guard with
    | none => (b, e)
    | some guard =>
      match guard.device with
      | none => (b, e)
      | some device =>
        match diagnosisOf e device guard with
        | some diagnosis =>
          ({ b with guardDiagnosis := some diagnosis, subscribed := true },
            (e.requestSubscription features.deviceDiagnosisClient diagnosis now).1)
        | none =>
          if b.guardDiscoveryAsked then (b, e)
          else
            ({ b with guardDiscoveryAsked := true },
              (e.read (nodeManagement device) (nodeManagement e.device.address)
                (.known .nodeManagementDetailedDiscoveryData) now).1)

end Belief

namespace ControllableSystemActor

def builder (system : ControllableSystem) (direction : Direction) (features : CsFeatures) :
    ControllableSystemActor where
  system := system
  direction := direction
  features := features
  electricalConnection := none
  heartbeat := HeartbeatProducer.new 0
  belief := Belief.new
  audit := AuditLog.new

def guard (actor : ControllableSystemActor) : Option FeatureAddress := actor.belief.guard

def publish (actor : ControllableSystemActor) (e : Engine S) : Engine S :=
  let (e, limitChanged) := offerBoth e actor.features.loadControl
    (limitDescription actor.direction) (limitData actor.system)
  let (e, failsafeChanged) := offerBoth e actor.features.deviceConfiguration
    (failsafeDescriptions actor.direction) (failsafeValues actor.system)
  let e := match actor.electricalConnection with
    | none => e
    | some address => offerOne e address (constraints actor.system actor.direction)
  let e := if limitChanged then
      e.notify actor.features.loadControl (.known .loadControlLimitListData)
    else e
  if failsafeChanged then
    e.notify actor.features.deviceConfiguration (.known .deviceConfigurationKeyValueListData)
  else e

/-- Puts the actor on the wire: its two features share a binding partner, and what it serves is
published. -/
def install (actor : ControllableSystemActor) (e : Engine S) (now : Nat) :
    ControllableSystemActor × Engine S :=
  let actor := { actor with heartbeat := HeartbeatProducer.new now }
  let e := { e with relations :=
    e.relations.bindTogether [actor.features.loadControl, actor.features.deviceConfiguration] }
  (actor, actor.publish e)

def interrupt (actor : ControllableSystemActor) (e : Engine S) (reason : RejectReason) (now : Nat) :
    ControllableSystemActor × Engine S × Bool :=
  match actor.system.interrupt reason now with
  | (_, false) => (actor, e, false)
  | (system, true) =>
    let actor := { actor with system := system }
    (actor, actor.publish e, true)

def handleTimeout (actor : ControllableSystemActor) (e : Engine S) (now : Nat) :
    ControllableSystemActor × Engine S × Option CsEvent :=
  let (heartbeat, e) := actor.heartbeat.tick e actor.features.deviceDiagnosis now
  let system := actor.system.handleTimeout now
  let moved := { actor with heartbeat := heartbeat, system := system }
  if actor.system.state = system.state then (moved, e, none)
  else (moved, moved.publish e, some (.stateChanged actor.system.state system.state))

def log (actor : ControllableSystemActor) (request : MsgCounter) (write : Option LimitWrite)
    (outcome : WriteOutcome) (peer : Option AddressDevice) (now : Nat) : ControllableSystemActor :=
  { actor with audit := actor.audit.record ⟨now, peer, request, write, outcome⟩ }

/-- A write that addresses this system's limit and cannot be read is a refused limit write; one
that does not address it is none. -/
def refuseUnreadable (actor : ControllableSystemActor) (e : Engine S) (write : WriteRequest S)
    (addressed : Bool) (now : Nat) : ControllableSystemActor × Engine S × CsEvent :=
  let (system, outcome) :=
    if addressed then actor.system.onUnreadableLimitWrite now
    else (actor.system, .rejected .unreadable)
  (({ actor with system := system }).log write.request none outcome write.origin.device now,
    (e.rejectWrite write.token outcome.errorNumber).1, .limitUnreadable write.request outcome)

def answerLimit (actor : ControllableSystemActor) (e : Engine S) (write : WriteRequest S)
    (limit : LimitWrite) (now : Nat) : ControllableSystemActor × Engine S × CsEvent :=
  let (system, outcome) := actor.system.onLimitWrite limit .apply now
  let (actor, e, outcome) :=
    if outcome.isAccepted then
      match e.acceptWrite write.token with
      | (e, .ok ()) =>
        let actor := { actor with system := system }
        (actor, actor.publish e, outcome)
      | (e, .error _) =>
        let actor := { actor with system := system.onUnstoredLimitWrite now }
        (actor, actor.publish e, .rejected .notStored)
    else
      ({ actor with system := system }, (e.rejectWrite write.token outcome.errorNumber).1, outcome)
  (actor.log write.request (some limit) outcome write.origin.device now, e,
    .limitDecided write.request limit outcome)

def decideLimit (actor : ControllableSystemActor) (e : Engine S) (write : WriteRequest S)
    (now : Nat) : ControllableSystemActor × Engine S × CsEvent :=
  let addressed := (readLimitWrite write.data limitId).isSome
  match if addressed then readLimitWrite write.resolved limitId else none with
  | none => actor.refuseUnreadable e write addressed now
  | some limit => actor.answerLimit e write limit now

/-- Decides on one key of a failsafe write. A value that is absent or cannot be read becomes one
that the check behind it refuses. -/
def decideKey (resolved : DeviceConfigurationKeyValueListData) (now : Nat)
    (acc : ControllableSystem × WriteOutcome) (key : Nat) : ControllableSystem × WriteOutcome :=
  let entry := (resolved.deviceConfigurationKeyValueData.getD []).find? fun e => e.keyId == some key
  let value := entry.bind DeviceConfigurationKeyValueData.value
  let result :=
    if key = failsafeLimitKeyId then
      some (acc.1.onFailsafeLimitWrite
        (((value.bind DeviceConfigurationKeyValueValue.scaledNumber).bind ScaledNumber.toF64).getD
          (F64.ofInt (-1))) now)
    else if key = failsafeDurationKeyId then
      some (acc.1.onFailsafeDurationWrite
        (((value.bind DeviceConfigurationKeyValueValue.duration).bind parseIso8601Duration).getD 0)
        now)
    else none
  match result with
  | none => acc
  | some (system, outcome) => (system, if outcome.isAccepted then acc.2 else outcome)

def writtenKeys (data : DeviceConfigurationKeyValueListData) : List Nat :=
  (data.deviceConfigurationKeyValueData.getD []).filterMap DeviceConfigurationKeyValueData.keyId

def decideFailsafe (actor : ControllableSystemActor) (e : Engine S) (write : WriteRequest S)
    (now : Nat) : ControllableSystemActor × Engine S × CsEvent :=
  match write.data, write.resolved with
  | ⟨.deviceConfigurationKeyValueListData, written⟩,
    ⟨.deviceConfigurationKeyValueListData, resolved⟩ =>
    let (system, outcome) :=
      (writtenKeys written).foldl (decideKey resolved now) (actor.system, .accepted)
    let actor := { actor with system := system }
    if outcome.isAccepted then
      match e.acceptWrite write.token with
      | (e, .ok ()) => (actor, actor.publish e, .failsafeDecided write.request outcome)
      | (e, .error _) =>
        (actor, actor.publish e, .failsafeDecided write.request (.rejected .notStored))
    else
      (actor, (e.rejectWrite write.token outcome.errorNumber).1,
        .failsafeDecided write.request outcome)
  | _, _ =>
    (actor, (e.rejectWrite write.token .commandRejected).1,
      .failsafeDecided write.request (.rejected .sequenceIncomplete))

def onData (actor : ControllableSystemActor) (e : Engine S) (feature : FeatureAddress)
    (resolved : CmdData S) (now : Nat) : ControllableSystemActor × Engine S × Option CsEvent :=
  let fromGuard := actor.belief.guardDiagnosis.any fun guard => sameFeature guard feature
  if fromGuard && (readHeartbeat resolved).isSome then
    let system := actor.system.onHeartbeat now
    ({ actor with system := system }, e,
      if system.state ≠ actor.system.state then
        some (.stateChanged actor.system.state system.state)
      else none)
  else (actor, e, none)

def handleEvent (actor : ControllableSystemActor) (e : Engine S) (event : SpineEvent S)
    (now : Nat) : ControllableSystemActor × Engine S × Option CsEvent :=
  match event with
  | .dataNotified feature _ resolved | .replyReceived feature _ resolved =>
    actor.onData e feature resolved now
  | .bindingGranted client server =>
    let (belief, answer) := actor.belief.onBinding actor.features client server
    let (belief, e) := belief.follow e actor.features now
    ({ actor with belief := belief }, e, answer)
  | .discoveryUpdated _ =>
    let (belief, e) := actor.belief.follow e actor.features now
    ({ actor with belief := belief }, e, none)
  | .bindingReleased _ server =>
    ({ actor with belief := actor.belief.onRelease actor.features server }, e, none)
  | .writeRequested write =>
    if write.feature = actor.features.loadControl then
      let (actor, e, answer) := actor.decideLimit e write now
      (actor, e, some answer)
    else if write.feature = actor.features.deviceConfiguration then
      let (actor, e, answer) := actor.decideFailsafe e write now
      (actor, e, some answer)
    else (actor, e, none)
  | _ => (actor, e, none)

/-- A decision rejects the write it is about, or accepts it and publishes the state it led to. -/
structure Decision (actor : ControllableSystemActor) (e : Engine S) (token : Nat)
    (result : ControllableSystemActor × Engine S × CsEvent) : Prop where
  features : result.1.features = actor.features
  belief : result.1.belief = actor.belief
  engine : (∃ error, result.2.1 = (e.rejectWrite token error).1) ∨
    ∃ speaker : ControllableSystemActor, result.2.1 = speaker.publish (e.acceptWrite token).1

theorem decideLimit_decision (actor : ControllableSystemActor) (e : Engine S) (write : WriteRequest S)
    (now : Nat) : Decision actor e write.token (actor.decideLimit e write now) := by
  unfold decideLimit refuseUnreadable answerLimit
  dsimp only
  split
  · exact ⟨rfl, rfl, .inl ⟨_, rfl⟩⟩
  · split
    · split
      case h_1 e' heq => exact ⟨rfl, rfl, .inr ⟨_, by rw [heq]⟩⟩
      case h_2 e' error heq => exact ⟨rfl, rfl, .inr ⟨_, by rw [heq]⟩⟩
    · exact ⟨rfl, rfl, .inl ⟨_, rfl⟩⟩

theorem decideFailsafe_decision (actor : ControllableSystemActor) (e : Engine S)
    (write : WriteRequest S) (now : Nat) :
    Decision actor e write.token (actor.decideFailsafe e write now) := by
  unfold decideFailsafe
  split
  · dsimp only
    split
    · split
      case h_1 e' heq => exact ⟨rfl, rfl, .inr ⟨_, by rw [heq]⟩⟩
      case h_2 e' error heq => exact ⟨rfl, rfl, .inr ⟨_, by rw [heq]⟩⟩
    · exact ⟨rfl, rfl, .inl ⟨_, rfl⟩⟩
  · exact ⟨rfl, rfl, .inl ⟨_, rfl⟩⟩

end ControllableSystemActor

/-- An actor over the engine it was installed on. -/
structure Running (S : Schema) where
  actor : ControllableSystemActor
  engine : Engine S

/-- A call on the actor, or what reaches the engine in between. -/
inductive ActorCall (S : Schema)
  | handleEvent (event : SpineEvent S) (now : Nat)
  | handleTimeout (now : Nat)
  /-- Hands the actor the next event of the engine. -/
  | relay (now : Nat)
  | datagram (datagram : Datagram S) (now : Nat)
  | engineTimeout (now : Nat)
  | removePeer (device : AddressDevice)

namespace Running

def of (result : ControllableSystemActor × Engine S × Option CsEvent) :
    Running S × Option CsEvent :=
  (⟨result.1, result.2.1⟩, result.2.2)

def install (actor : ControllableSystemActor) (e : Engine S) (now : Nat) : Running S :=
  ⟨(actor.install e now).1, (actor.install e now).2⟩

def perform (s : Running S) : ActorCall S → Running S × Option CsEvent
  | .handleEvent event now => of (s.actor.handleEvent s.engine event now)
  | .handleTimeout now => of (s.actor.handleTimeout s.engine now)
  | .relay now =>
    match s.engine.events with
    | [] => (s, none)
    | event :: rest => of (s.actor.handleEvent { s.engine with events := rest } event now)
  | .datagram datagram now => ({ s with engine := (s.engine.handleDatagram datagram now).1 }, none)
  | .engineTimeout now => ({ s with engine := s.engine.handleTimeout now }, none)
  | .removePeer device => ({ s with engine := s.engine.removePeer device }, none)

def machine : Machine (Running S) (ActorCall S) (Option CsEvent) where
  step := perform

end Running

namespace Scenario

def heatPump : AddressDevice := "d:_i:1_HeatPump"
def manager : AddressDevice := "d:_i:2_Cem"

def features : CsFeatures where
  loadControl := featureAddress heatPump [1] 1
  deviceConfiguration := featureAddress heatPump [1] 2
  deviceDiagnosis := featureAddress heatPump [1] 3
  deviceDiagnosisClient := featureAddress heatPump [1] 4

def device : LocalDevice Schema.limitsOnly :=
  let device := LocalDevice.fromAddress heatPump "HeatGenerationSystem"
  { device with
    entities := device.entities ++ [⟨[1], .other "HeatPumpAppliance",
      [loadControlFeature 1, deviceConfigurationFeature 2, deviceDiagnosisFeature 3,
        deviceDiagnosisClientFeature 4]⟩] }

def config : CsConfig := .new (F64.ofInt 4200) (fromSecs 7200)

def started : Running Schema.limitsOnly :=
  .install (.builder (.new config 0) .consumption features) (Engine.new device) 0

/-- The manager's client feature, and the feature its heartbeat comes from. -/
def managerClient : FeatureAddress := featureAddress manager [1] 1
def managerDiagnosis : FeatureAddress := featureAddress manager [1] 2

def sends (source destination : FeatureAddress) (classifier : CmdClassifier) (counter : MsgCounter)
    (data : CmdData Schema.limitsOnly) (now : Nat) : ActorCall Schema.limitsOnly :=
  .datagram (Datagram.carrying source destination classifier counter (Cmd.withData data)) now

def introduces (counter : MsgCounter) (now : Nat) : ActorCall Schema.limitsOnly :=
  sends (nodeManagement manager) (nodeManagement heatPump) .notify counter
    ⟨.nodeManagementDetailedDiscoveryData,
      { specificationVersionList := none
        deviceInformation := none
        entityInformation := some [⟨some ⟨some ⟨some [1]⟩, some (.other "CEM"), none⟩⟩]
        featureInformation := some [⟨some ⟨some ⟨some [1], some 2⟩, some .deviceDiagnosis,
          some .server, none, none, none⟩⟩] }⟩ now

def binds (client server : FeatureAddress) (counter : MsgCounter) (now : Nat) :
    ActorCall Schema.limitsOnly :=
  sends { client with feature := some 0, entity := some [0] } (nodeManagement heatPump) .call counter
    ⟨.nodeManagementBindingRequestCall, ⟨some ⟨some client, some server, none⟩⟩⟩ now

def releases (client server : FeatureAddress) (counter : MsgCounter) (now : Nat) :
    ActorCall Schema.limitsOnly :=
  sends { client with feature := some 0, entity := some [0] } (nodeManagement heatPump) .call counter
    ⟨.nodeManagementBindingDeleteCall, ⟨some ⟨some client, some server⟩⟩⟩ now

def beats (counter : MsgCounter) (now : Nat) : ActorCall Schema.limitsOnly :=
  sends managerDiagnosis features.deviceDiagnosisClient .notify counter
    ⟨.deviceDiagnosisHeartbeatData, ⟨none, some 1, none⟩⟩ now

def limitsTo (watts : Int) (counter : MsgCounter) (now : Nat) : ActorCall Schema.limitsOnly :=
  sends managerClient features.loadControl .write counter
    ⟨.loadControlLimitListData, ⟨some [⟨some limitId, none, some true, none,
      some (.new watts 0)⟩]⟩⟩ now

def configures (watts : Int) (counter : MsgCounter) (now : Nat) : ActorCall Schema.limitsOnly :=
  sends managerClient features.deviceConfiguration .write counter
    ⟨.deviceConfigurationKeyValueListData, ⟨some [⟨some failsafeLimitKeyId,
      some ⟨some (.new watts 0), none⟩, none⟩]⟩⟩ now

/-- The manager takes control and limits the heat pump. -/
def opening : List (ActorCall Schema.limitsOnly) :=
  [introduces 1 0, .relay 0, .relay 0,
    binds managerClient features.loadControl 2 0, .relay 0,
    binds managerClient features.deviceConfiguration 3 0, .relay 0,
    beats 4 (fromSecs 1), .relay (fromSecs 1),
    limitsTo 1000 5 (fromSecs 2), .relay (fromSecs 2), .relay (fromSecs 2)]

end Scenario

end Eebus.Limitation
