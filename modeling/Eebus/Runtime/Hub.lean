import Eebus.Ship.Keys
import Eebus.Spine.Session

/-! The hub: the table of connections behind one engine. A connection is known by the key its peer
proved; the device address it speaks for is bound to it once, by the first datagram that names one.
What happens on the sockets (whether a write goes out, what is read, whether a pong came back)
enters as the inputs of the operations. -/

namespace Eebus.Runtime

open Eebus.Library Eebus.Model Eebus.Spine
open Eebus.Ship (Ski)

def defaultMaxConnections : Nat := 16
def maxConnectionsPerPeer : Nat := 2
def keepaliveInterval : Nat := fromSecs 50
def pongTimeout : Nat := fromSecs 10
def arbitrationDelay : Nat := fromSecs 3

variable {S : Schema}

inductive Arbiter
  | self
  | peer
deriving DecidableEq

def arbiter (ski peer : Ski) : Arbiter := if ski > peer then .self else .peer

inductive Resolution
  | settled
  | keepNewest
  | wait (until_ : Nat)
  | probe
  | closeAfterProbe
deriving DecidableEq

def resolve (ski peer : Ski) (opened : List Nat) (duplicatesSince : Nat) (probed : Bool)
    (now : Nat) : Resolution :=
  if opened.length < 2 then .settled
  else
    match arbiter ski peer with
    | .self => .keepNewest
    | .peer =>
      let deadline := duplicatesSince + arbitrationDelay
      if now < deadline then .wait deadline
      else if probed then .closeAfterProbe
      else .probe

inductive KeepAlive
  | idle
  | waiting
  | answered
  | dead
deriving DecidableEq

def checkKeepalive (pingedAt : Option Nat) (awaitingPong : Bool) (now timeout : Nat) : KeepAlive :=
  match pingedAt with
  | none => .idle
  | some at_ =>
    if !awaitingPong then .answered
    else if at_ + timeout ≤ now then .dead
    else .waiting

inductive Origin
  | accepted
  | dialed
deriving DecidableEq

inductive Disconnect
  | local_
  | remote
  | unresponsive
  | duplicate
  | addressConflict
  | interruptedWrite
deriving DecidableEq

inductive HubEvent
  | connected (ski : Ski)
  | disconnected (ski : Ski) (reason : Disconnect)
  | peerDiscovered (ski : Ski) (device : AddressDevice)
  | tick
deriving DecidableEq

/-- One connection, and what has been learned over it. `awaitingPong` is the connection's own
flag, which a pong clears. `probedAt` is for specifications only: when arbitration last pinged the
connection, as long as that has not been answered. -/
structure Link where
  ski : Ski
  origin : Origin
  device : Option AddressDevice
  opened : Nat
  lastSeen : Nat
  pingedAt : Option Nat
  awaitingPong : Bool
  probedAt : Option Nat
  bootstrap : List MsgCounter
  announced : Bool
deriving DecidableEq

def Link.keepalive (link : Link) (now : Nat) : Link × KeepAlive :=
  let state := checkKeepalive link.pingedAt link.awaitingPong now pongTimeout
  (if state = .answered then { link with pingedAt := none, lastSeen := now } else link, state)

def Link.pingDue (link : Link) (now : Nat) : Bool :=
  link.pingedAt.isNone && keepaliveInterval ≤ now - link.lastSeen

structure Duplicate where
  ski : Ski
  since : Nat
  probed : Bool
deriving DecidableEq

/-- The hub. `dropped` is for specifications only: every connection that was dropped, as it was then,
and why. -/
structure Hub (S : Schema) where
  ski : Ski
  engine : Engine S
  links : List Link
  wakeAt : Option Nat
  duplicates : List Duplicate
  maxConnections : Nat
  pending : List HubEvent
  writing : Option Nat
  dropped : List (Link × Disconnect)

namespace Hub

def new (ski : Ski) (engine : Engine S) : Hub S where
  ski := ski
  engine := engine
  links := []
  wakeAt := none
  duplicates := []
  maxConnections := defaultMaxConnections
  pending := []
  writing := none
  dropped := []

def emit (h : Hub S) (event : HubEvent) : Hub S := { h with pending := h.pending ++ [event] }

def wake (h : Hub S) (at_ : Nat) : Hub S :=
  { h with wakeAt := some (match h.wakeAt with
      | some existing => min existing at_
      | none => at_) }

def updateLink (h : Hub S) (index : Nat) (g : Link → Link) : Hub S :=
  { h with links := h.links.modify index g }

def forget (h : Hub S) (ski : Ski) : Hub S :=
  { h with duplicates := h.duplicates.filter fun d => d.ski != ski }

def forgetPeerState (h : Hub S) (ski : Ski) (device : Option AddressDevice) (reason : Disconnect) :
    Hub S :=
  let h := match device with
    | some device => { h with engine := h.engine.removePeer device }
    | none => h
  let h := if h.links.any fun l => l.ski == ski then h else h.forget ski
  h.emit (.disconnected ski reason)

def dropLink (h : Hub S) (index : Nat) (reason : Disconnect) : Hub S :=
  match h.links[index]? with
  | none => h
  | some link =>
    { h with
      links := h.links.eraseIdx index
      dropped := h.dropped ++ [(link, reason)] }.forgetPeerState link.ski link.device reason

def positions (h : Hub S) (test : Link → Nat → Bool) : List Nat :=
  ((h.links.zipIdx.filter fun entry => test entry.1 entry.2).map Prod.snd).reverse

def dropLinks (h : Hub S) (indices : List Nat) (reason : Disconnect) : Hub S :=
  indices.foldl (fun h index => h.dropLink index reason) h

def close (h : Hub S) (ski : Ski) : Hub S :=
  h.dropLinks (h.positions fun link _ => link.ski == ski) .local_

def disconnect (h : Hub S) (ski : Ski) : Hub S :=
  ({ h with links := h.links.filter fun link => link.ski != ski }.forget ski).emit
    (.disconnected ski .local_)

def newest (h : Hub S) (ski : Ski) : Option Nat :=
  ((h.links.zipIdx.filter fun entry => entry.1.ski == ski).foldl (fun best entry =>
    match best with
    | some (opened, index) =>
      if opened ≤ entry.1.opened then some (entry.1.opened, entry.2) else some (opened, index)
    | none => some (entry.1.opened, entry.2)) none).map Prod.snd

def doomed (ski : Ski) (keep : Nat) (entry : Link × Nat) : Bool :=
  entry.1.ski == ski && entry.2 != keep

def closeDuplicates (h : Hub S) (ski : Ski) : Hub S :=
  match h.newest ski with
  | none => h.forget ski
  | some keep =>
    { h.forget ski with
      links := (h.links.zipIdx.filter fun entry => !doomed ski keep entry).map Prod.fst
      pending := h.pending.filter fun event =>
        match event with
        | .disconnected s _ => s != ski
        | _ => true }

def shutdown (h : Hub S) : Hub S := { h with links := [], duplicates := [] }

def hasSlotFor (h : Hub S) (origin : Origin) : Bool :=
  if h.maxConnections ≤ h.links.length then false
  else if h.maxConnections ≤ 1 then true
  else (h.links.filter fun l => l.origin == origin).length < h.maxConnections - 1

/-- Takes a connection on, and reads the peer's identity and use cases as soon as it is open. -/
def adopt (h : Hub S) (ski : Ski) (origin : Origin) (now : Nat) : Hub S × Bool :=
  let toThisPeer := (h.links.filter fun l => l.ski == ski).length
  if ski == h.ski then (h, false)
  else if maxConnectionsPerPeer ≤ toThisPeer || !h.hasSlotFor origin then (h, false)
  else
    let duplicates := if 0 < toThisPeer && !h.duplicates.any (fun d => d.ski == ski) then
        h.duplicates ++ [⟨ski, now, false⟩]
      else h.duplicates
    let (engine, first, second) := h.engine.startDiscovery now
    let link : Link :=
      { ski := ski
        origin := origin
        device := none
        opened := now
        lastSeen := now
        pingedAt := none
        awaitingPong := false
        probedAt := none
        bootstrap := [first, second]
        announced := false }
    let h := { h with engine := engine, duplicates := duplicates, links := h.links ++ [link] }
    (h.emit (.connected ski), true)

def sourceDevice (datagram : Datagram S) : Option AddressDevice :=
  ((datagram.header.bind Header.addressSource).bind FeatureAddress.device).filter
    isUsableDeviceAddress

def taken (h : Hub S) (index : Nat) (device : AddressDevice) : Bool :=
  h.engine.device.address == device
    || h.links.zipIdx.any fun entry => entry.2 != index && entry.1.device == some device

/-- Binds a connection to the device its first datagram names. A datagram that contradicts the
binding is refused. -/
def bindLink (h : Hub S) (index : Nat) (datagram : Datagram S) : Option (Hub S) :=
  match sourceDevice datagram with
  | none => some h
  | some device =>
    match h.links[index]?.bind Link.device with
    | some bound => if bound != device then none else some h
    | none =>
      if h.taken index device then none
      else some (h.updateLink index fun link => { link with device := some device })

def settleBootstrap (h : Hub S) (index : Nat) (datagram : Datagram S) : Hub S :=
  match datagram.header.bind Header.msgCounterReference with
  | none => h
  | some reference =>
    h.updateLink index fun link =>
      { link with bootstrap := link.bootstrap.filter fun c => c != reference }

/-- Reports the peer once both opening reads have been answered, and subscribes to its
discovery. -/
def announce (h : Hub S) (index : Nat) (now : Nat) : Hub S :=
  match h.links[index]? with
  | none => h
  | some link =>
    match link.device with
    | none => h
    | some device =>
      if !link.announced && link.bootstrap.isEmpty then
        let h := h.updateLink index fun link => { link with announced := true }
        { h with engine := (h.engine.subscribeToDiscovery device now).1 }.emit
          (.peerDiscovered link.ski device)
      else h

/-- Takes a datagram off one connection into the engine. The result is the reason to close the
connection, when the peer contradicts what it is bound to. -/
def receive (h : Hub S) (index : Nat) (datagram : Datagram S) (now : Nat) :
    Hub S × Option Disconnect :=
  match h.bindLink index datagram with
  | none => (h, some .addressConflict)
  | some h =>
    let h := h.settleBootstrap index datagram
    let h := { h with engine := (h.engine.handleDatagram datagram now).1 }
    (h.announce index now, none)

/-- What reading a connection produced. -/
inductive Frame (S : Schema)
  | unreadable
  | refused
  | data (datagram : Datagram S)
  | unparsed
  | ended

def frame (h : Hub S) (index : Nat) (read : Frame S) (now : Nat) : Hub S :=
  if h.links.length ≤ index then h
  else
    match read with
    | .unreadable => h.dropLink index .remote
    | read =>
      let h := h.updateLink index fun link => { link with lastSeen := now, pingedAt := none }
      match read with
      | .data datagram =>
        match h.receive index datagram now with
        | (h, some reason) => h.dropLink index reason
        | (h, none) => h
      | .unparsed => h
      | _ => h.dropLink index .remote

def route (h : Hub S) (datagram : Datagram S) : Option Nat :=
  match datagram.header with
  | none => none
  | some header =>
    match header.addressDestination.bind FeatureAddress.device with
    | some device => h.links.findIdx? fun l => l.device == some device
    | none => header.msgCounter.bind fun counter =>
      h.links.findIdx? fun l => l.bootstrap.contains counter

def transmit (h : Hub S) (sent : Bool) : Hub S :=
  match h.engine.outbox with
  | [] => h
  | datagram :: rest =>
    let h := { h with engine := { h.engine with outbox := rest } }
    match h.route datagram with
    | none => h
    | some index => if sent then h else h.dropLink index .remote

def interrupt (h : Hub S) (index : Nat) : Hub S := { h with writing := some index }

def resume (h : Hub S) : Hub S :=
  match h.writing with
  | none => h
  | some index =>
    let h := { h with writing := none }
    if index < h.links.length then h.dropLink index .interruptedWrite else h

def engineTimeout (h : Hub S) (now : Nat) : Hub S :=
  { h with engine := h.engine.handleTimeout now }

/-- Drops the connections whose ping went unanswered, and wakes the application when it asked. -/
def expireLinks (h : Hub S) (now : Nat) : Hub S :=
  let dead := h.positions fun link _ => (link.keepalive now).2 == .dead
  let checked := h.links.map fun link => (link.keepalive now).1
  let h := { h with links := checked }.dropLinks dead .unresponsive
  if h.wakeAt.any (· ≤ now) then { h with wakeAt := none }.emit .tick else h

def keepalive (h : Hub S) (now : Nat) (sent : Nat → Bool) : Hub S :=
  let failed := h.positions fun link index => link.pingDue now && !sent index
  let pinged := fun (index : Nat) (link : Link) =>
    if link.pingDue now && sent index then { link with pingedAt := some now, awaitingPong := true }
    else link
  { h with links := h.links.mapIdx pinged }.dropLinks failed .remote

def pong (h : Hub S) (index : Nat) : Hub S :=
  h.updateLink index fun link => { link with awaitingPong := false, probedAt := none }

def arbitrate (h : Hub S) (now : Nat) (sent : Nat → Bool) : Hub S :=
  match h.duplicates with
  | [] => h
  | duplicate :: _ =>
    let ski := duplicate.ski
    let ofPeer := fun link : Link => link.ski == ski
    match resolve h.ski ski ((h.links.filter ofPeer).map Link.opened) duplicate.since
        duplicate.probed now with
    | .settled => h.forget ski
    | .keepNewest => h.closeDuplicates ski
    | .wait until_ => h.wake until_
    | .probe =>
      let failed := h.positions fun link index => ofPeer link && !sent index
      -- An answered keep-alive is counted before the probe re-arms the flag.
      let probed := fun (index : Nat) (link : Link) =>
        if ofPeer link then
          let link := (link.keepalive now).1
          if sent index then { link with awaitingPong := true, probedAt := some now } else link
        else link
      let h := { h with
        links := h.links.mapIdx probed
        duplicates := modifyFirst (fun d => d.ski == ski) (fun d _ => { d with probed := true })
          h.duplicates }
      (h.dropLinks failed .remote).wake (now + pongTimeout)
    | .closeAfterProbe =>
      let unanswered := h.positions fun link _ => ofPeer link && link.awaitingPong
      (h.dropLinks unanswered .unresponsive).closeDuplicates ski

end Hub

end Eebus.Runtime
