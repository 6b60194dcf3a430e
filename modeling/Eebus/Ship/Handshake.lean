import Eebus.Library.Machine
import Eebus.Ship.Messages

/-!
The SHIP connection state machine: mode initialisation, hello, protocol handshake, PIN
verification, data exchange and the announced close. Messages to send and events to report queue
up in order.
-/

namespace Eebus.Ship

open Eebus.Library

inductive Role
  | client
  | server
deriving DecidableEq

inductive PinRequirement
  | none
  | required (pin : String)
  | optional (pin : String)

structure ShipVersion where
  major : Nat
  minor : Nat

def ShipVersion.le (v w : ShipVersion) : Bool :=
  v.major < w.major || (v.major == w.major && v.minor ≤ w.minor)

structure HandshakeConfig where
  cmiTimeout : Nat := fromSecs 30
  helloInit : Nat := fromSecs 120
  waitTimer : Nat := fromSecs 10
  maxVersion : ShipVersion := ⟨1, 1⟩
  formats : List String := ["JSON-UTF8"]
  pin : PinRequirement := .none
  peerPin : Option String := none
  shipId : Option String := none
  keyMaterial : Option OwnKeys := none

def helloProlongThrInc : Nat := fromSecs 30
def helloProlongWaitingGap : Nat := fromSecs 15
def helloProlongMin : Nat := fromSecs 1

/-- The penalty for repeated invalid PINs: fifteen seconds from the third, ninety from the sixth. -/
def pinPenalty (attempts : Nat) : Option Nat :=
  if 6 ≤ attempts then some (fromSecs 90)
  else if 3 ≤ attempts then some (fromSecs 15)
  else none

inductive Phase
  | cmi
  | hello
  | protocolHandshake
  | pin
  | dataExchange
  | closing
  | closed
  | aborted
deriving DecidableEq

inductive AbortReason
  | timeout (phase : Phase)
  | unexpectedMessage (phase : Phase)
  | selectionMismatch
  | trustRejected
  | peerAborted
  | closed (why : String)

inductive HandshakeEvent
  | trustRequired
  | peerAwaitingTrust (waiting : Nat)
  | ready (version : ShipVersion) (format : String)
  | peerPinState (state : PinState)
  | peerPinVerified
  | pinWithheld (level : TrustLevel)
  | peerAccessMethods (methods : AccessMethods)
  | peerKeyMaterialCounter (updateCounter : Nat)
  | peerKeyMaterial (state : KeyMaterialState)
  | peerAskedForKeyMaterial (knownUpdateCounter : Nat)
  | aborted (reason : AbortReason)

def HandshakeEvent.isAborted : HandshakeEvent → Bool
  | .aborted _ => true
  | _ => false

structure Timers where
  cmi : Option Nat := none
  waitForReady : Option Nat := none
  sendProlongation : Option Nat := none
  prolongationReply : Option Nat := none
  wait : Option Nat := none
  pinPenalty : Option Nat := none
  close : Option Nat := none
  keyMaterial : Option Nat := none

def Timers.earliest (t : Timers) : Option Nat :=
  ([t.cmi, t.waitForReady, t.sendProlongation, t.prolongationReply, t.wait, t.pinPenalty, t.close,
    t.keyMaterial].filterMap id).min?

structure Handshake where
  role : Role
  config : HandshakeConfig
  phase : Phase
  trust : Trust
  cmiSent : Bool
  cmiReceived : Bool
  helloLocalReady : Bool
  helloRemoteReady : Bool
  helloAnnouncedPending : Bool
  helloPeerWaiting : Option Nat
  helloPeerDeadline : Option Nat
  proposed : Option MessageProtocolHandshake
  negotiated : Option (ShipVersion × String)
  keyMaterialSentAt : Option Nat
  keyMaterialResent : Bool
  localPinState : PinState
  peerPinState : Option PinState
  pinAttempts : Nat
  pinPenaltyUntil : Option Nat
  timers : Timers
  outbox : List ShipMessage
  events : List HandshakeEvent

namespace Handshake

def initialPinState : PinRequirement → PinState
  | .none => .none
  | .required _ => .required
  | .optional _ => .optional

def new (role : Role) (config : HandshakeConfig) (trust : Trust) (now : Nat) : Handshake where
  role := role
  config := config
  phase := .cmi
  trust := trust
  cmiSent := true
  cmiReceived := false
  helloLocalReady := false
  helloRemoteReady := false
  helloAnnouncedPending := false
  helloPeerWaiting := none
  helloPeerDeadline := none
  proposed := none
  negotiated := none
  keyMaterialSentAt := none
  keyMaterialResent := false
  localPinState := initialPinState config.pin
  peerPinState := none
  pinAttempts := 0
  pinPenaltyUntil := none
  timers := { cmi := some (now + config.cmiTimeout) }
  outbox := [.cmi]
  events := []

def isReadyForData (hs : Handshake) : Bool :=
  match hs.phase with
  | .dataExchange | .closing => true
  | _ => false

def isOver (hs : Handshake) : Bool :=
  match hs.phase with
  | .aborted | .closed => true
  | _ => false

def send (hs : Handshake) (message : ShipMessage) : Handshake :=
  { hs with outbox := hs.outbox ++ [message] }

def report (hs : Handshake) (event : HandshakeEvent) : Handshake :=
  { hs with events := hs.events ++ [event] }

def abort (hs : Handshake) (reason : AbortReason) : Handshake :=
  if hs.isOver then hs
  else { hs with phase := .aborted, timers := {} }.report (.aborted reason)

def finish (hs : Handshake) (reason : AbortReason) : Handshake :=
  if hs.isOver then hs
  else { hs with phase := .closed, timers := {} }.report (.aborted reason)

def helloPhase (hs : Handshake) : ConnectionHelloPhase :=
  if hs.helloLocalReady then .ready else .pending

def helloKeyMaterial (hs : Handshake) : Option (Option Nat) :=
  hs.config.keyMaterial.map fun keys => some keys.updateCounter

def armProlongation (hs : Handshake) (now : Nat) : Handshake :=
  let arm (slot : Option Nat) := { hs with timers := { hs.timers with sendProlongation := slot } }
  if hs.helloLocalReady then arm none
  else if hs.helloPeerWaiting.getD hs.config.helloInit < helloProlongThrInc then arm none
  else
    let deadline := hs.helloPeerDeadline.getD (now + hs.config.helloInit)
    let at' := deadline - helloProlongWaitingGap
    -- inside the gap already: ask on the next turn rather than not at all
    if at' - now < helloProlongMin then arm (some now) else arm (some at')

def refuseHello (hs : Handshake) : Handshake :=
  (hs.send (.control (.connectionHello { phase := some .aborted }))).abort .trustRejected

def announceHelloAs (hs : Handshake) (phase : ConnectionHelloPhase) (now : Nat) : Handshake :=
  let waiting := hs.config.helloInit
  let hs := hs.send (.control (.connectionHello
    { phase := some phase, waiting := some (millis waiting),
      keyMaterialState := hs.helloKeyMaterial }))
  { hs with timers := { hs.timers with waitForReady := some (now + waiting) } }.armProlongation now

def announceHello (hs : Handshake) (now : Nat) : Handshake :=
  match hs.trust with
  | .trusted level =>
    -- below the floor, "I accept this key" and "nothing vouches for it" is an abort
    if !level.permitsCommunication then hs.refuseHello
    else { hs with helloLocalReady := true }.announceHelloAs .ready now
  | .pending =>
    let hs :=
      if hs.helloAnnouncedPending then hs
      else { hs with helloAnnouncedPending := true }.report .trustRequired
    hs.announceHelloAs .pending now
  | .rejected => hs.refuseHello

def enterHello (hs : Handshake) (now : Nat) : Handshake :=
  { hs with phase := .hello }.announceHello now

def onCmi (hs : Handshake) (now : Nat) : Handshake :=
  if hs.phase ≠ .cmi then hs.abort (.unexpectedMessage hs.phase)
  else
    let hs := { hs with cmiReceived := true }
    if hs.cmiSent && hs.cmiReceived then
      { hs with timers := { hs.timers with cmi := none } }.enterHello now
    else hs

def enterProtocolHandshake (hs : Handshake) (now : Nat) : Handshake :=
  let hs := { hs with
    phase := .protocolHandshake
    timers := { hs.timers with wait := some (now + hs.config.waitTimer) } }
  match hs.role with
  | .client =>
    hs.send (.control (.messageProtocolHandshake
      { handshakeType := some .announceMax
        version := some ⟨some hs.config.maxVersion.major, some hs.config.maxVersion.minor⟩
        formats := some (some hs.config.formats) }))
  | .server => hs

def tryFinishHello (hs : Handshake) (now : Nat) : Handshake :=
  if hs.helloLocalReady && hs.helloRemoteReady then
    { hs with
      timers := { hs.timers with
        waitForReady := none, sendProlongation := none, prolongationReply := none }
      }.enterProtocolHandshake now
  else hs

def sendProlongationRequest (hs : Handshake) (now : Nat) : Handshake :=
  let window := max (hs.helloPeerWaiting.getD hs.config.helloInit) helloProlongMin
  let hs := hs.send (.control (.connectionHello
    { phase := some hs.helloPhase, waiting := some (millis hs.config.helloInit),
      prolongationRequest := some true }))
  { hs with timers := { hs.timers with prolongationReply := some (now + window) } }

def acceptProlongation (hs : Handshake) (now : Nat) : Handshake :=
  let extended := hs.config.helloInit
  { hs with timers := { hs.timers with waitForReady := some (now + extended) } }.send
    (.control (.connectionHello
      { phase := some hs.helloPhase, waiting := some (millis extended) }))

def continueHello (hs : Handshake) (hello : ConnectionHello) (now : Nat) : Handshake :=
  let hs :=
    if hs.phase = .hello ∧ hello.prolongationRequest = some true then hs.acceptProlongation now
    else hs
  if hs.phase = .hello then hs.armProlongation now else hs

def noteHello (hs : Handshake) (hello : ConnectionHello) (now : Nat) : Handshake :=
  let hs :=
    match hello.waiting with
    | some ms => { hs with
        helloPeerWaiting := some (ms * 1000000)
        helloPeerDeadline := some (now + ms * 1000000) }
    | none => hs
  match hello.keyMaterialState with
  | some (some updateCounter) => hs.report (.peerKeyMaterialCounter updateCounter)
  | _ => hs

def onHello (hs : Handshake) (hello : ConnectionHello) (now : Nat) : Handshake :=
  if hs.phase ≠ .hello then hs
  else
    let hs := hs.noteHello hello now
    match hello.phase with
    | some .ready =>
      -- a pending node has nothing to prolong when the peer names no `waiting`
      if !hs.helloLocalReady && hello.waiting.isNone then hs.abort (.unexpectedMessage .hello)
      else
        let hs := { hs with
          timers := { hs.timers with
            waitForReady := if hs.helloLocalReady then hs.timers.waitForReady else none
            prolongationReply := none }
          helloRemoteReady := true }
        (hs.tryFinishHello now).continueHello hello now
    | some .pending =>
      let hs := { hs with
        helloRemoteReady := false
        timers := { hs.timers with prolongationReply := none } }
      let hs :=
        match hello.waiting with
        | some ms => hs.report (.peerAwaitingTrust (ms * 1000000))
        | none => hs
      hs.continueHello hello now
    | some .aborted => hs.abort .peerAborted
    | none => hs.abort (.unexpectedMessage .hello)

def sendProtocolError (hs : Handshake) (error : Nat) : Handshake :=
  if hs.phase = .protocolHandshake then
    hs.send (.control (.messageProtocolHandshakeError (some error)))
  else hs

def failProtocol (hs : Handshake) (error : Nat) (reason : AbortReason) : Handshake :=
  (hs.sendProtocolError error).abort reason

def readVersion (msg : MessageProtocolHandshake) : Option ShipVersion := do
  let version ← msg.version
  let major ← version.major
  let minor ← version.minor
  return ⟨major, minor⟩

def selectVersion (hs : Handshake) (msg : MessageProtocolHandshake) : Option ShipVersion :=
  (readVersion msg).bind fun peer =>
    let chosen := if peer.le hs.config.maxVersion then peer else hs.config.maxVersion
    if 1 ≤ chosen.major then some chosen else none

def supportsVersion (hs : Handshake) (version : ShipVersion) : Bool :=
  1 ≤ version.major && version.le hs.config.maxVersion

def readFormats (msg : MessageProtocolHandshake) : Option (List String) := msg.formats.bind id

def selectFormat (hs : Handshake) (msg : MessageProtocolHandshake) : Option String :=
  (readFormats msg).bind fun peer => hs.config.formats.find? fun ours => peer.contains ours

def sendPinState (hs : Handshake) : Handshake :=
  let inputPermission :=
    match hs.localPinState with
    | .required | .optional =>
      some (if hs.pinPenaltyUntil.isSome then PinInputPermission.busy else .ok)
    | _ => none
  hs.send (.control (.connectionPinState ⟨some hs.localPinState, inputPermission⟩))

def enterPin (hs : Handshake) (now : Nat) : Handshake :=
  { hs with
    phase := .pin
    timers := { hs.timers with wait := some (now + hs.config.waitTimer) } }.sendPinState

def proposeProtocol (hs : Handshake) (msg : MessageProtocolHandshake) (now : Nat) : Handshake :=
  if msg.handshakeType ≠ some .announceMax then
    hs.failProtocol 2 (.unexpectedMessage .protocolHandshake)
  else
    match hs.selectVersion msg, hs.selectFormat msg with
    | some version, some format =>
      let selection : MessageProtocolHandshake :=
        ⟨some .select, some ⟨some version.major, some version.minor⟩, some (some [format])⟩
      let hs := { hs with
        proposed := some selection
        negotiated := some (version, format) }.send (.control (.messageProtocolHandshake selection))
      { hs with timers := { hs.timers with wait := some (now + hs.config.waitTimer) } }
    | _, _ => hs.failProtocol 3 .selectionMismatch

def confirmProtocol (hs : Handshake) (msg : MessageProtocolHandshake) (now : Nat) : Handshake :=
  if msg.handshakeType ≠ some .select then
    hs.failProtocol 2 (.unexpectedMessage .protocolHandshake)
  else
    match (readVersion msg).filter hs.supportsVersion, (readFormats msg).getD [] with
    | some version, [only] =>
      if !hs.config.formats.contains only then hs.failProtocol 3 .selectionMismatch
      else
        ({ hs with negotiated := some (version, only) }.send
          (.control (.messageProtocolHandshake msg))).enterPin now
    | _, _ => hs.failProtocol 3 .selectionMismatch

def onProtocolHandshake (hs : Handshake) (msg : MessageProtocolHandshake) (now : Nat) :
    Handshake :=
  if hs.phase ≠ .protocolHandshake then hs.abort (.unexpectedMessage hs.phase)
  else
    let hs := { hs with timers := { hs.timers with wait := none } }
    match hs.role with
    | .server =>
      if hs.proposed = none then hs.proposeProtocol msg now
      -- the client's confirmation must be what we proposed
      else if hs.proposed ≠ some msg then hs.failProtocol 3 .selectionMismatch
      else hs.enterPin now
    | .client => hs.confirmProtocol msg now

def sendPinIfPermitted (hs : Handshake) : Handshake × Bool :=
  if hs.phase ≠ .pin ∧ hs.phase ≠ .dataExchange then (hs, false)
  else if hs.peerPinState ≠ some .required ∧ hs.peerPinState ≠ some .optional then (hs, false)
  else if !hs.trust.level.permitsPinTransmission then
    (hs.report (.pinWithheld hs.trust.level), false)
  else
    match hs.config.peerPin with
    | none => (hs, false)
    | some pin =>
      ({ hs with config := { hs.config with peerPin := none } }.send
        (.control (.connectionPinInput (some pin))), true)

def sendPin (hs : Handshake) (pin : String) : Handshake × Bool :=
  { hs with config := { hs.config with peerPin := some pin } }.sendPinIfPermitted

/-- Data exchange opens as soon as this node's own PIN requirement permits it and the peer has
reported its own. -/
def tryFinishPin (hs : Handshake) : Handshake :=
  if hs.phase ≠ .pin then hs
  else if hs.localPinState ≠ .required ∧ hs.peerPinState.isSome then
    let hs := { hs with timers := { hs.timers with wait := none }, phase := .dataExchange }
    match hs.negotiated with
    | some (version, format) => hs.report (.ready version format)
    | none => hs
  else hs

def onPinState (hs : Handshake) (state : ConnectionPinState) : Handshake :=
  match state.pinState with
  | none => hs.abort (.unexpectedMessage hs.phase)
  | some pinState =>
    let hs := { hs with
      timers := { hs.timers with wait := none }
      peerPinState := some pinState }.report (.peerPinState pinState)
    let hs :=
      if (pinState = .required ∨ pinState = .optional) ∧ state.inputPermission ≠ some .busy ∧
          hs.config.peerPin.isSome then
        hs.sendPinIfPermitted.1
      else hs
    hs.tryFinishPin

def expectedPin : PinRequirement → Option String
  | .required pin | .optional pin => some pin
  | .none => none

def onPinInput (hs : Handshake) (input : Option String) (now : Nat) : Handshake :=
  -- verifying during a penalty would let an attacker keep guessing through it
  if hs.pinPenaltyUntil.isSome then hs.sendPinState
  else if input.isSome ∧ input = expectedPin hs.config.pin then
    ({ hs with localPinState := .pinOk }.report .peerPinVerified |>.send
      (.control (.connectionPinState ⟨some .pinOk, none⟩))).tryFinishPin
  else
    let hs := { hs with pinAttempts := min (hs.pinAttempts + 1) (2 ^ 32 - 1) }.send
      (.control (.connectionPinError (some 1)))
    match pinPenalty hs.pinAttempts with
    | some penalty =>
      { hs with
        pinPenaltyUntil := some (now + penalty)
        timers := { hs.timers with pinPenalty := some (now + penalty) } }.sendPinState
    | none => hs

def sendKeyMaterial (hs : Handshake) (now : Nat) : Handshake :=
  match hs.config.keyMaterial with
  | none => hs
  | some keys =>
    if !hs.isReadyForData then hs
    else
      let hs := hs.send (.control (.keyMaterialState keys.toMessage))
      { hs with
        keyMaterialSentAt := some now
        keyMaterialResent := false
        timers := { hs.timers with keyMaterial := some (now + stateResponseTimeout) } }

def requestKeyMaterial (hs : Handshake) (knownUpdateCounter : Nat) : Handshake :=
  if hs.isReadyForData then
    hs.send (.control (.keyMaterialStateRequest (some knownUpdateCounter)))
  else hs

def requestAccessMethods (hs : Handshake) : Handshake :=
  if hs.isReadyForData then hs.send (.control .accessMethodsRequest) else hs

def onKeyMaterialStateRequest (hs : Handshake) (knownUpdateCounter : Option Nat) (now : Nat) :
    Handshake :=
  let known := knownUpdateCounter.getD 0
  let hs :=
    if hs.config.keyMaterial.any (fun keys => keys.updateCounter ≠ known) then
      hs.sendKeyMaterial now
    else hs
  hs.report (.peerAskedForKeyMaterial known)

def onControl (hs : Handshake) (control : ControlMessage) (now : Nat) : Handshake :=
  match control with
  | .connectionHello hello => hs.onHello hello now
  | .messageProtocolHandshake msg => hs.onProtocolHandshake msg now
  | .messageProtocolHandshakeError _ => hs.abort .selectionMismatch
  | .connectionPinState state => hs.onPinState state
  | .connectionPinInput pin => hs.onPinInput pin now
  | .connectionPinError _ => hs
  | .accessMethodsRequest =>
    hs.send (.control (.accessMethods ⟨hs.config.shipId, some (), none⟩))
  | .accessMethods methods => hs.report (.peerAccessMethods methods)
  | .keyMaterialState state =>
    (hs.send (.control (.keyMaterialStateResponse (some true)))).report (.peerKeyMaterial state)
  | .keyMaterialStateResponse _ =>
    { hs with
      keyMaterialSentAt := none
      keyMaterialResent := false
      timers := { hs.timers with keyMaterial := none } }
  | .keyMaterialStateRequest known => hs.onKeyMaterialStateRequest known now
  | .commissioning => hs

def onClose (hs : Handshake) (close : ConnectionClose) : Handshake :=
  match close.phase with
  | some .announce =>
    (hs.send (.connectionClose { phase := some .confirm })).finish (.closed "announced by peer")
  | some .confirm => hs.finish (.closed "confirmed by peer")
  | none => hs.abort (.unexpectedMessage hs.phase)

def close (hs : Handshake) (reason : ConnectionCloseReason) (maxTime now : Nat) : Handshake :=
  if hs.phase = .closed ∨ hs.phase = .aborted ∨ hs.phase = .closing then hs
  else
    { hs with
      phase := .closing
      timers := { hs.timers with close := some (now + maxTime) } }.send
      (.connectionClose ⟨some .announce, some (millis maxTime), some reason⟩)

def setTrust (hs : Handshake) (trust : Trust) (now : Nat) : Option Handshake :=
  if hs.isOver then none
  else
    let hs := { hs with trust := trust }
    if hs.phase = .hello then some ((hs.announceHello now).tryFinishHello now) else some hs

def handleMessage (hs : Handshake) (message : ShipMessage) (now : Nat) : Option Handshake :=
  if hs.isOver then none
  else
    match message with
    | .cmi => some (hs.onCmi now)
    | .connectionClose close => some (hs.onClose close)
    -- data before the handshake completes is out of order
    | .data => some (if hs.isReadyForData then hs else hs.abort (.unexpectedMessage hs.phase))
    | .control control => some (hs.onControl control now)

def expired (slot : Option Nat) (now : Nat) : Bool := slot.any (· ≤ now)

def servePinAndReady (hs : Handshake) (now : Nat) : Handshake :=
  let hs :=
    if expired hs.timers.pinPenalty now then
      { hs with
        timers := { hs.timers with pinPenalty := none }
        pinPenaltyUntil := none }.sendPinState
    else hs
  if expired hs.timers.waitForReady now then
    { hs with timers := { hs.timers with waitForReady := none } }.abort (.timeout .hello)
  else hs

def serveKeyMaterial (hs : Handshake) (now : Nat) : Handshake :=
  if expired hs.timers.keyMaterial now then
    let hs := { hs with timers := { hs.timers with keyMaterial := none } }
    if hs.keyMaterialResent then
      { hs with keyMaterialSentAt := none, keyMaterialResent := false }.abort
        (.timeout .dataExchange)
    else
      let hs := { hs with keyMaterialResent := true }
      match hs.config.keyMaterial with
      | some keys =>
        let hs := hs.send (.control (.keyMaterialState keys.toMessage))
        { hs with
          keyMaterialSentAt := some now
          timers := { hs.timers with keyMaterial := some (now + stateResponseTimeout) }
          }.servePinAndReady now
      | none => hs.servePinAndReady now
  else hs.servePinAndReady now

def serveTimers (hs : Handshake) (now : Nat) : Handshake :=
  if expired hs.timers.cmi now then
    { hs with timers := { hs.timers with cmi := none } }.abort (.timeout .cmi)
  else if expired hs.timers.wait now then
    { hs with timers := { hs.timers with wait := none } }.failProtocol 1 (.timeout hs.phase)
  else
    let hs :=
      if expired hs.timers.sendProlongation now then
        { hs with timers := { hs.timers with sendProlongation := none } }.sendProlongationRequest now
      else hs
    if expired hs.timers.prolongationReply now then
      { hs with timers := { hs.timers with prolongationReply := none } }.abort (.timeout .hello)
    else if expired hs.timers.close now then
      { hs with timers := { hs.timers with close := none } }.finish
        (.closed "no confirmation within maxTime")
    else hs.serveKeyMaterial now

def pollTimeout (hs : Handshake) : Option Nat := hs.timers.earliest

def handleTimeout (hs : Handshake) (now : Nat) : Option Handshake :=
  if hs.isOver then none else some (hs.serveTimers now)

end Handshake

inductive HandshakeOp
  | handleMessage (message : ShipMessage) (now : Nat)
  | handleTimeout (now : Nat)
  | setTrust (trust : Trust) (now : Nat)
  | close (reason : ConnectionCloseReason) (maxTime now : Nat)
  | sendPin (pin : String)
  | sendPinIfPermitted
  | sendKeyMaterial (now : Nat)
  | requestKeyMaterial (knownUpdateCounter : Nat)
  | requestAccessMethods
  | pollTransmit
  | pollEvent

/-- The handshake as a machine over its calls. A call on one that no longer runs changes nothing. -/
def handshake : Machine Handshake HandshakeOp Unit where
  step hs op :=
    match op with
    | .handleMessage message now => ((hs.handleMessage message now).getD hs, ())
    | .handleTimeout now => ((hs.handleTimeout now).getD hs, ())
    | .setTrust trust now => ((hs.setTrust trust now).getD hs, ())
    | .close reason maxTime now => (hs.close reason maxTime now, ())
    | .sendPin pin => ((hs.sendPin pin).1, ())
    | .sendPinIfPermitted => (hs.sendPinIfPermitted.1, ())
    | .sendKeyMaterial now => (hs.sendKeyMaterial now, ())
    | .requestKeyMaterial known => (hs.requestKeyMaterial known, ())
    | .requestAccessMethods => (hs.requestAccessMethods, ())
    | .pollTransmit => ({ hs with outbox := hs.outbox.tail }, ())
    | .pollEvent => ({ hs with events := hs.events.tail }, ())

end Eebus.Ship
