import Eebus.Library.Binary64
import Eebus.Library.Duration
import Eebus.Library.Machine
import Eebus.Model.CmdData
import Eebus.Model.ScaledNumber
import Eebus.Model.Time

/-!
The Inverter of Control of Battery: its states, timers, and the answer each write gets.
-/

namespace Eebus.Cob

open Eebus.Library Eebus.Model

def heartbeatTimeout : Nat := fromSecs 120
def writeWindow : Nat := fromSecs 60
def settleTimeout : Nat := fromSecs 120
def failsafeDurationMin : Nat := fromSecs (2 * 3600)
def failsafeDurationMax : Nat := fromSecs (24 * 3600)

def setpointId : Nat := 1

inductive ControlMode
  | power
  | pcc
  | auto
deriving DecidableEq, Repr

inductive CobState
  | init
  | powerControl
  | pccControl
  | autoControl
  | autoUncontrolled
  | failsafe
deriving DecidableEq, Repr

namespace CobState

def isControlled : CobState → Bool
  | .powerControl | .pccControl | .autoControl => true
  | _ => false

def takesSetpoint : CobState → Bool
  | .powerControl | .pccControl => true
  | _ => false

def ofMode : ControlMode → CobState
  | .power => .powerControl
  | .pcc => .pccControl
  | .auto => .autoControl

end CobState

inductive EffectiveControl
  | setpoint (watts : F64)
  | default (watts : F64)
  | failsafe (watts : F64)
  | autonomous
deriving DecidableEq, Repr

structure SetpointWrite where
  isActive : Bool
  watts : F64
  duration : Option Nat
deriving DecidableEq, Repr

inductive NackReason
  | cannotApply
  | notFinite
  | durationOutOfRange
  | noRecentHeartbeat
  | modeNotEstablished
deriving DecidableEq, Repr

inductive WriteOutcome
  | accepted
  | rejected (reason : NackReason)
deriving DecidableEq, Repr

structure CobConfig where
  failsafeDuration : Nat
  failsafeWatts : F64
  defaultWatts : F64
deriving DecidableEq, Repr

def CobConfig.new (failsafeDuration : Nat) : CobConfig := ⟨failsafeDuration, F64.zero, F64.zero⟩

structure BatteryControl where
  config : CobConfig
  state : CobState
  setpoint : Option SetpointWrite
  setpointExpiry : Option Nat
  lastHeartbeat : Option Nat
  enteredStateAt : Nat
  /-- When a heartbeat arrived in a state that waits for a control mode to follow. -/
  awaitingModeSince : Option Nat
deriving DecidableEq, Repr

namespace BatteryControl

def new (config : CobConfig) (now : Nat) : BatteryControl where
  config := config
  state := .init
  setpoint := none
  setpointExpiry := none
  lastHeartbeat := none
  enteredStateAt := now
  awaitingModeSince := none

/-- A deactivated setpoint hands the inverter to its default, which is a number. -/
def effective (bc : BatteryControl) : EffectiveControl :=
  match bc.state with
  | .init | .failsafe => .failsafe bc.config.failsafeWatts
  | .autoControl | .autoUncontrolled => .autonomous
  | .powerControl | .pccControl =>
    match bc.setpoint with
    | some setpoint =>
      if setpoint.isActive then .setpoint setpoint.watts else .default bc.config.defaultWatts
    | none => .default bc.config.defaultWatts

def enter (bc : BatteryControl) (state : CobState) (now : Nat) : BatteryControl :=
  if bc.state = state then bc
  else { bc with state := state, enteredStateAt := now, awaitingModeSince := none }

def needsRecentHeartbeat (bc : BatteryControl) : Bool :=
  match bc.state with
  | .init | .failsafe | .autoUncontrolled => true
  | _ => false

def heartbeatIsRecent (bc : BatteryControl) (now : Nat) : Bool :=
  bc.lastHeartbeat.any fun hb => now - hb < writeWindow

def heardFrom (bc : BatteryControl) : Nat := bc.lastHeartbeat.getD bc.enteredStateAt

def expireSetpoint (bc : BatteryControl) (now : Nat) : BatteryControl :=
  if bc.setpointExpiry.any (· ≤ now) then
    { bc with setpoint := bc.setpoint.map fun setpoint => { setpoint with isActive := false } }
  else bc

def handleTimeout (bc : BatteryControl) (now : Nat) : BatteryControl :=
  if bc.state.isControlled ∧ heartbeatTimeout ≤ now - bc.heardFrom then
    { bc with setpoint := none, setpointExpiry := none }.enter .failsafe now
  else
    let bc := bc.expireSetpoint now
    match bc.state with
    | .init =>
      if settleTimeout ≤ now - bc.enteredStateAt then bc.enter .autoUncontrolled now else bc
    | .failsafe =>
      if bc.config.failsafeDuration ≤ now - bc.enteredStateAt ∨
          bc.awaitingModeSince.any (fun since => settleTimeout ≤ now - since) then
        bc.enter .autoUncontrolled now
      else bc
    | _ => bc

def onHeartbeat (bc : BatteryControl) (now : Nat) : BatteryControl :=
  { bc with
    lastHeartbeat := some now
    awaitingModeSince :=
      if (bc.state = .failsafe ∨ bc.state = .autoUncontrolled) ∧ bc.awaitingModeSince = none then
        some now
      else bc.awaitingModeSince }

/-- Applies a write on the Active Control Mode. A mode the inverter refuses moves it to
`autoControl`: the manager is there and the inverter decides for itself. -/
def onControlMode (bc : BatteryControl) (mode : ControlMode) (accepted : Bool) (now : Nat) :
    BatteryControl × WriteOutcome :=
  let bc := bc.handleTimeout now
  if bc.needsRecentHeartbeat && !bc.heartbeatIsRecent now then
    (bc, .rejected .noRecentHeartbeat)
  else
    let bc := { bc with awaitingModeSince := none }
    if !accepted then (bc.enter .autoControl now, .rejected .cannotApply)
    else (bc.enter (.ofMode mode) now, .accepted)

def goAutonomous (bc : BatteryControl) (now : Nat) : BatteryControl × Bool :=
  if bc.state.takesSetpoint then (bc.enter .autoControl now, true) else (bc, false)

/-- Applies a write on the control-mode setpoint. A refusal leaves the old setpoint and the state
alone. -/
def onSetpoint (bc : BatteryControl) (write : SetpointWrite) (accepted : Bool) (now : Nat) :
    BatteryControl × WriteOutcome :=
  let bc := bc.handleTimeout now
  if !bc.state.takesSetpoint then (bc, .rejected .modeNotEstablished)
  else if !write.watts.isFinite then (bc, .rejected .notFinite)
  else if !accepted then (bc, .rejected .cannotApply)
  else
    ({ bc with
        setpoint :=
          if write.duration = some 0 then some { write with isActive := false } else some write
        setpointExpiry := write.duration.map (now + ·) }, .accepted)

def onFailsafeDuration (bc : BatteryControl) (duration now : Nat) : BatteryControl × WriteOutcome :=
  let bc := bc.handleTimeout now
  if bc.needsRecentHeartbeat && !bc.heartbeatIsRecent now then
    (bc, .rejected .noRecentHeartbeat)
  else if ¬(failsafeDurationMin ≤ duration ∧ duration ≤ failsafeDurationMax) then
    (bc, .rejected .durationOutOfRange)
  else ({ bc with config := { bc.config with failsafeDuration := duration } }, .accepted)

def onFailsafeSetpoint (bc : BatteryControl) (watts : F64) (now : Nat) :
    BatteryControl × WriteOutcome :=
  let bc := bc.handleTimeout now
  if bc.needsRecentHeartbeat && !bc.heartbeatIsRecent now then
    (bc, .rejected .noRecentHeartbeat)
  else if !watts.isFinite then (bc, .rejected .notFinite)
  else ({ bc with config := { bc.config with failsafeWatts := watts } }, .accepted)

def deadlines (bc : BatteryControl) : List Nat :=
  match bc.state with
  | .powerControl | .pccControl | .autoControl => (bc.heardFrom + heartbeatTimeout) ::
      if bc.setpoint.any SetpointWrite.isActive then bc.setpointExpiry.toList else []
  | .init => [bc.enteredStateAt + settleTimeout]
  | .failsafe => (bc.enteredStateAt + bc.config.failsafeDuration) ::
      (bc.awaitingModeSince.map (· + settleTimeout)).toList
  | .autoUncontrolled => []

def pollTimeout (bc : BatteryControl) : Option Nat := bc.deadlines.min?

/-- The same with every addition made as a `Duration` makes it. -/
def tryPollTimeout (bc : BatteryControl) : Except Overflow (Option Nat) :=
  match bc.state with
  | .powerControl | .pccControl | .autoControl => do
    let silence ← addDurations bc.heardFrom heartbeatTimeout
    .ok (silence :: if bc.setpoint.any SetpointWrite.isActive then bc.setpointExpiry.toList else []).min?
  | .init => do
    let settled ← addDurations bc.enteredStateAt settleTimeout
    .ok (some settled)
  | .failsafe => do
    let minimum ← addDurations bc.enteredStateAt bc.config.failsafeDuration
    match bc.awaitingModeSince with
    | none => .ok (some minimum)
    | some since => do
      let settled ← addDurations since settleTimeout
      .ok (some (min minimum settled))
  | .autoUncontrolled => .ok none

end BatteryControl

/-- One call on the inverter. -/
inductive Op
  | heartbeat
  | controlMode (mode : ControlMode) (accepted : Bool)
  | goAutonomous
  | setpoint (write : SetpointWrite) (accepted : Bool)
  | failsafeDuration (duration : Nat)
  | failsafeSetpoint (watts : F64)
  | timeout
deriving DecidableEq, Repr

/-- A call with the time it is made at. -/
structure Call where
  op : Op
  now : Nat
deriving DecidableEq, Repr

/-- The inverter as a machine over its calls; writes are answered. -/
def system : Machine BatteryControl Call (Option WriteOutcome) where
  step bc c :=
    match c.op with
    | .heartbeat => (bc.onHeartbeat c.now, none)
    | .controlMode mode accepted =>
      let r := bc.onControlMode mode accepted c.now
      (r.1, some r.2)
    | .goAutonomous => ((bc.goAutonomous c.now).1, none)
    | .setpoint write accepted =>
      let r := bc.onSetpoint write accepted c.now
      (r.1, some r.2)
    | .failsafeDuration duration =>
      let r := bc.onFailsafeDuration duration c.now
      (r.1, some r.2)
    | .failsafeSetpoint watts =>
      let r := bc.onFailsafeSetpoint watts c.now
      (r.1, some r.2)
    | .timeout => (bc.handleTimeout c.now, none)

variable {S : Schema}

/-- A setpoint entry as a setpoint change. A value or an end time that is there and cannot be read
makes the whole write unusable. -/
def readSetpointEntry (entry : SetpointData) : Option SetpointWrite := do
  let watts ← match entry.value with
    | some value => value.toF64
    | none => some F64.zero
  let duration ← match entry.timePeriod.bind TimePeriod.endTime with
    | some endTime => (parseIso8601Duration endTime).map some
    | none => some none
  some ⟨entry.isSetpointActive.getD false, watts, duration⟩

def readSetpointWrite (data : CmdData S) : Option SetpointWrite :=
  match data with
  | ⟨.setpointListData, list⟩ => do
    let entry ← (← list.setpointData).find? fun e => e.setpointId == some setpointId
    readSetpointEntry entry
  | _ => none

end Eebus.Cob
