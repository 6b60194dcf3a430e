import Eebus.Library.Duration
import Mathlib.Data.List.Basic

/-!
The SHIP messages the handshake reads and writes, the key material and the trust levels they
carry. Every element of a message may be absent.
-/

namespace Eebus.Ship

open Eebus.Library

structure Ski where
  bytes : Vector UInt8 20
deriving DecidableEq

def Ski.toTxtValue (ski : Ski) : String :=
  String.ofList (ski.bytes.toList.flatMap fun b =>
    [(b.toNat / 16).digitChar.toUpper, (b.toNat % 16).digitChar.toUpper])

inductive KeyState
  | predecessor
  | current
  | successor
deriving DecidableEq

structure KeyEntry where
  state : KeyState
  curve : Nat
  ski : Ski

structure OwnKeys where
  updateCounter : Nat
  entries : List KeyEntry

structure KeyMaterialStateEntry where
  currentState : Option KeyState
  curve : Option Nat
  ski : Option String
  publicKey : Option String

structure KeyMaterialState where
  updateCounter : Option Nat
  entry : Option (List KeyMaterialStateEntry)

def OwnKeys.toMessage (keys : OwnKeys) : KeyMaterialState where
  updateCounter := some keys.updateCounter
  entry := some (keys.entries.map fun entry =>
    ⟨some entry.state, some entry.curve, some entry.ski.toTxtValue, none⟩)

def stateResponseTimeout : Nat := fromSecs 30

def minUserTrust : Nat := 8
def commissioningTrust : Nat := 32

structure TrustLevel where
  user : Nat
  pki : Nat
  secondFactor : Nat
deriving DecidableEq

def TrustLevel.untrusted : TrustLevel := ⟨0, 0, 0⟩
def TrustLevel.userVerified : TrustLevel := ⟨32, 0, 0⟩
def TrustLevel.permitsCommunication (level : TrustLevel) : Bool := minUserTrust ≤ level.user
def TrustLevel.permitsPinTransmission (level : TrustLevel) : Bool :=
  commissioningTrust ≤ level.user

def TrustLevel.merged (level other : TrustLevel) : TrustLevel :=
  ⟨max level.user other.user, max level.pki other.pki, max level.secondFactor other.secondFactor⟩

/-- What the first peer to send a valid PIN after a factory default may be awarded, and every later
one. -/
def secondFactorPinFirst : Nat := 32
def secondFactorPinLater : Nat := 16

def TrustLevel.commissioned (user : Nat) : TrustLevel := ⟨max 32 (min user 96), 0, 0⟩

inductive Trust
  | trusted (level : TrustLevel)
  | pending
  | rejected

def Trust.level : Trust → TrustLevel
  | .trusted level => level
  | .pending | .rejected => .untrusted

inductive ConnectionHelloPhase
  | pending
  | ready
  | aborted
deriving DecidableEq

structure ConnectionHello where
  phase : Option ConnectionHelloPhase := none
  /-- Milliseconds. -/
  waiting : Option Nat := none
  prolongationRequest : Option Bool := none
  /-- The `updateCounter` of the key-material state. -/
  keyMaterialState : Option (Option Nat) := none

inductive ProtocolHandshakeType
  | announceMax
  | select
deriving DecidableEq

structure MessageProtocolHandshakeVersion where
  major : Option Nat
  minor : Option Nat
deriving DecidableEq

structure MessageProtocolHandshake where
  handshakeType : Option ProtocolHandshakeType
  version : Option MessageProtocolHandshakeVersion
  /-- The `formats` element with its list of `format`. -/
  formats : Option (Option (List String))
deriving DecidableEq

inductive PinState
  | required
  | optional
  | pinOk
  | none
deriving DecidableEq

inductive PinInputPermission
  | busy
  | ok
deriving DecidableEq

structure ConnectionPinState where
  pinState : Option PinState
  inputPermission : Option PinInputPermission

structure AccessMethods where
  id : Option String
  /-- Present and empty, or absent. -/
  dnsSdMDns : Option Unit
  /-- The `dns` element with its `uri`. -/
  dns : Option (Option String)

inductive ControlMessage
  | connectionHello (hello : ConnectionHello)
  | messageProtocolHandshake (msg : MessageProtocolHandshake)
  | messageProtocolHandshakeError (error : Option Nat)
  | connectionPinState (state : ConnectionPinState)
  | connectionPinInput (pin : Option String)
  | connectionPinError (error : Option Nat)
  | accessMethodsRequest
  | accessMethods (methods : AccessMethods)
  | keyMaterialState (state : KeyMaterialState)
  | keyMaterialStateResponse (accept : Option Bool)
  | keyMaterialStateRequest (knownUpdateCounter : Option Nat)
  /-- The SHIP commissioning family, which the handshake ignores. -/
  | commissioning

inductive ConnectionClosePhase
  | announce
  | confirm
deriving DecidableEq

inductive ConnectionCloseReason
  | unspecific
  | removedConnection
deriving DecidableEq

structure ConnectionClose where
  phase : Option ConnectionClosePhase := none
  /-- Milliseconds. -/
  maxTime : Option Nat := none
  reason : Option ConnectionCloseReason := none

inductive ShipMessage
  | cmi
  | control (message : ControlMessage)
  /-- A payload, which the handshake does not look into. -/
  | data
  | connectionClose (close : ConnectionClose)

def millis (d : Nat) : Nat := min (d / 1000000) (2 ^ 32 - 1)

end Eebus.Ship
