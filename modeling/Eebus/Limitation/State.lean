import Eebus.Library.Binary64
import Eebus.Library.Duration
import Eebus.Library.Machine

/-!
The Controllable System state machine of Limitation of Power Consumption and Production: its
states, timers, and the answer each write gets.
-/

namespace Eebus.Limitation

open Eebus.Library

def heartbeatTimeout : Nat := fromSecs 120
def writeWindow : Nat := fromSecs 60
def settleTimeout : Nat := fromSecs 120
def failsafeDurationMin : Nat := fromSecs (2 * 3600)
def failsafeDurationMax : Nat := fromSecs (24 * 3600)

inductive LimitationState
  | init
  | limited
  | unlimitedControlled
  | failsafeState
  | unlimitedAutonomous
deriving DecidableEq, Repr

inductive EffectiveLimit
  | none
  | active (watts : F64)
  | failsafe (watts : F64)
deriving DecidableEq, Repr

structure LimitWrite where
  isActive : Bool
  watts : F64
  duration : Option Nat
deriving DecidableEq, Repr

def LimitWrite.active (watts : F64) : LimitWrite := ⟨true, watts, none⟩
def LimitWrite.deactivated : LimitWrite := ⟨false, F64.zero, none⟩

def LimitWrite.target (write : LimitWrite) : LimitationState :=
  if write.isActive ∧ write.duration ≠ some 0 then .limited else .unlimitedControlled

inductive RejectReason
  | selfProtection
  | safetyRelated
  | regulatory
  | uncontrolledLoads
deriving DecidableEq, Repr

inductive LocalDecision
  | apply
  | reject (reason : RejectReason)
deriving DecidableEq, Repr

inductive NackReason
  | cannotApply (reason : RejectReason)
  | negativeValue
  | notFinite
  | durationOutOfRange
  | noRecentHeartbeat
  | sequenceIncomplete
  | unreadable
  | notStored
  | unstated
deriving DecidableEq, Repr

def limitRefusal (write : LimitWrite) (decision : LocalDecision) : Option NackReason :=
  if !write.watts.isFinite then some .notFinite
  else if write.watts.isNegative then some .negativeValue
  else
    match decision with
    | .reject reason => some (.cannotApply reason)
    | .apply => none

inductive WriteOutcome
  | accepted
  | rejected (reason : NackReason)
deriving DecidableEq, Repr

def WriteOutcome.isAccepted : WriteOutcome → Bool
  | .accepted => true
  | .rejected _ => false

structure CsConfig where
  failsafeWatts : F64
  failsafeDuration : Nat
  /-- The largest Failsafe Duration Minimum this device accepts. -/
  failsafeDurationMax : Nat
  nominalMaxWatts : Option F64
  contractualMaxWatts : Option F64
  onCem : Bool
deriving DecidableEq, Repr

def CsConfig.new (failsafeWatts : F64) (failsafeDuration : Nat) : CsConfig where
  failsafeWatts := failsafeWatts
  failsafeDuration := failsafeDuration
  failsafeDurationMax := Limitation.failsafeDurationMax
  nominalMaxWatts := none
  contractualMaxWatts := none
  onCem := false

structure ControllableSystem where
  config : CsConfig
  state : LimitationState
  /-- The active limit, once one has been accepted. -/
  limit : Option LimitWrite
  limitExpiry : Option Nat
  lastHeartbeat : Option Nat
  enteredStateAt : Nat
  /-- When a heartbeat arrived in a state that waits for a limit write to follow. -/
  awaitingWriteSince : Option Nat
  /-- A heartbeat has been followed by an evaluated limit write. -/
  sequenceComplete : Bool
deriving DecidableEq, Repr

def LimitationState.isControlled : LimitationState → Bool
  | .limited | .unlimitedControlled => true
  | _ => false

def LimitationState.isFallback : LimitationState → Bool
  | .failsafeState | .unlimitedAutonomous => true
  | _ => false

namespace ControllableSystem

def new (config : CsConfig) (now : Nat) : ControllableSystem where
  config := config
  state := .init
  limit := none
  limitExpiry := none
  lastHeartbeat := none
  enteredStateAt := now
  awaitingWriteSince := none
  sequenceComplete := false

def effectiveLimit (cs : ControllableSystem) : EffectiveLimit :=
  match cs.state with
  | .init | .failsafeState => .failsafe cs.config.failsafeWatts
  | .limited =>
    match cs.limit with
    | some limit => if limit.isActive then .active limit.watts else .none
    | none => .none
  | .unlimitedControlled | .unlimitedAutonomous => .none

def isLimitActive (cs : ControllableSystem) : Bool :=
  cs.state == .limited && cs.limit.any (·.isActive)

def enter (cs : ControllableSystem) (state : LimitationState) (now : Nat) :
    ControllableSystem :=
  if cs.state = state then cs
  else
    { cs with
      state := state
      enteredStateAt := now
      awaitingWriteSince := none
      sequenceComplete := if state.isFallback then false else cs.sequenceComplete }

section Enter

variable (cs : ControllableSystem) (state : LimitationState) (now : Nat)

@[simp] theorem enter_state : (cs.enter state now).state = state := by
  unfold enter
  split <;> simp_all
@[simp] theorem enter_config : (cs.enter state now).config = cs.config := by
  unfold enter
  split <;> rfl
@[simp] theorem enter_limit : (cs.enter state now).limit = cs.limit := by
  unfold enter
  split <;> rfl
@[simp] theorem enter_limitExpiry : (cs.enter state now).limitExpiry = cs.limitExpiry := by
  unfold enter
  split <;> rfl
@[simp] theorem enter_lastHeartbeat :
    (cs.enter state now).lastHeartbeat = cs.lastHeartbeat := by
  unfold enter
  split <;> rfl

theorem enter_enteredStateAt :
    (cs.enter state now).enteredStateAt = if cs.state = state then cs.enteredStateAt else now := by
  unfold enter
  split <;> rfl

theorem enter_awaitingWriteSince (h : cs.state ≠ state) :
    (cs.enter state now).awaitingWriteSince = none := by
  simp [enter, h]

theorem enter_sequenceComplete (h : state.isFallback = false) :
    (cs.enter state now).sequenceComplete = cs.sequenceComplete := by
  unfold enter
  split <;> simp [h]

theorem enter_fallback (h : state.isFallback = true) (hs : cs.state ≠ state) :
    (cs.enter state now).sequenceComplete = false := by
  simp [enter, h, hs]

end Enter

/-- The instant the heartbeat timeout runs from. -/
def heardFrom (cs : ControllableSystem) : Nat :=
  cs.lastHeartbeat.getD cs.enteredStateAt

def handleTimeout (cs : ControllableSystem) (now : Nat) : ControllableSystem :=
  if cs.state.isControlled ∧ heartbeatTimeout ≤ now - cs.heardFrom then
    cs.enter .failsafeState now
  else if cs.state = .limited ∧ cs.limitExpiry.any (· ≤ now) then
    cs.enter .unlimitedControlled now
  else
    match cs.state with
    | .init =>
      if settleTimeout ≤ now - cs.enteredStateAt then cs.enter .unlimitedAutonomous now else cs
    | .failsafeState =>
      if cs.config.failsafeDuration ≤ now - cs.enteredStateAt ∨
          cs.awaitingWriteSince.any (fun since => settleTimeout ≤ now - since) then
        cs.enter .unlimitedAutonomous now
      else cs
    | _ => cs

section Timers

variable {cs : ControllableSystem} {now : Nat}

theorem handleTimeout_init (h : cs.state = .init) : cs.handleTimeout now =
      if settleTimeout ≤ now - cs.enteredStateAt then cs.enter .unlimitedAutonomous now
      else cs := by
  simp [handleTimeout, h, LimitationState.isControlled]

theorem handleTimeout_limited (h : cs.state = .limited) : cs.handleTimeout now =
      if heartbeatTimeout ≤ now - cs.heardFrom then cs.enter .failsafeState now
      else if cs.limitExpiry.any (· ≤ now) then cs.enter .unlimitedControlled now else cs := by
  simp [handleTimeout, h, LimitationState.isControlled]

theorem handleTimeout_unlimitedControlled (h : cs.state = .unlimitedControlled) :
    cs.handleTimeout now =
      if heartbeatTimeout ≤ now - cs.heardFrom then cs.enter .failsafeState now else cs := by
  simp [handleTimeout, h, LimitationState.isControlled]

theorem handleTimeout_failsafeState (h : cs.state = .failsafeState) :
    cs.handleTimeout now =
      if cs.config.failsafeDuration ≤ now - cs.enteredStateAt ∨
          cs.awaitingWriteSince.any (fun since => settleTimeout ≤ now - since) then
        cs.enter .unlimitedAutonomous now
      else cs := by
  simp [handleTimeout, h, LimitationState.isControlled]

theorem handleTimeout_unlimitedAutonomous (h : cs.state = .unlimitedAutonomous) :
    cs.handleTimeout now = cs := by
  simp [handleTimeout, h, LimitationState.isControlled]

def Settled (cs : ControllableSystem) (now : Nat) : Prop :=
  (cs.state.isControlled = true → now - cs.heardFrom < heartbeatTimeout) ∧
  (cs.state = .limited → ∀ expiry, cs.limitExpiry = some expiry → now < expiry) ∧
  (cs.state = .init → now - cs.enteredStateAt < settleTimeout) ∧
  (cs.state = .failsafeState → now - cs.enteredStateAt < cs.config.failsafeDuration ∧
    ∀ since, cs.awaitingWriteSince = some since → now - since < settleTimeout)

theorem handleTimeout_cases (cs : ControllableSystem) (now : Nat) :
    (cs.handleTimeout now = cs ∧ cs.Settled now) ∨
    (cs.state.isControlled = true ∧ heartbeatTimeout ≤ now - cs.heardFrom ∧
      cs.handleTimeout now = cs.enter .failsafeState now) ∨
    (cs.state = .limited ∧ now - cs.heardFrom < heartbeatTimeout ∧
      cs.handleTimeout now = cs.enter .unlimitedControlled now) ∨
    (cs.state = .init ∧ cs.handleTimeout now = cs.enter .unlimitedAutonomous now) ∨
    (cs.state = .failsafeState ∧
      (cs.config.failsafeDuration ≤ now - cs.enteredStateAt ∨
        ∃ since, cs.awaitingWriteSince = some since ∧ settleTimeout ≤ now - since) ∧
      cs.handleTimeout now = cs.enter .unlimitedAutonomous now) := by
  cases hs : cs.state with
  | init =>
    rw [handleTimeout_init hs]
    split
    case isTrue h => exact Or.inr (Or.inr (Or.inr (Or.inl ⟨rfl, rfl⟩)))
    case isFalse h => exact Or.inl ⟨rfl, by simp_all [Settled, LimitationState.isControlled]⟩
  | limited =>
    rw [handleTimeout_limited hs]
    split
    case isTrue h => exact Or.inr (Or.inl ⟨rfl, h, rfl⟩)
    case isFalse h =>
      split
      case isTrue he => exact Or.inr (Or.inr (Or.inl ⟨rfl, by omega, rfl⟩))
      case isFalse he =>
        refine Or.inl ⟨rfl, fun _ => by omega, fun _ expiry hx => ?_, by simp [hs], by simp [hs]⟩
        simpa [hx] using he
  | unlimitedControlled =>
    rw [handleTimeout_unlimitedControlled hs]
    split
    case isTrue h => exact Or.inr (Or.inl ⟨rfl, h, rfl⟩)
    case isFalse h => exact Or.inl ⟨rfl, by simp_all [Settled]⟩
  | failsafeState =>
    rw [handleTimeout_failsafeState hs]
    split
    case isTrue h =>
      refine Or.inr (Or.inr (Or.inr (Or.inr ⟨rfl, ?_, rfl⟩)))
      simpa [Option.any_eq_true] using h
    case isFalse h =>
      simp only [not_or, not_le, Option.any_eq_true, decide_eq_true_eq, not_exists, not_and] at h
      exact Or.inl ⟨rfl, by simp [hs, LimitationState.isControlled], by simp [hs], by simp [hs],
        fun _ => h⟩
  | unlimitedAutonomous =>
    rw [handleTimeout_unlimitedAutonomous hs]
    exact Or.inl ⟨rfl, by simp [Settled, hs, LimitationState.isControlled]⟩

@[simp] theorem handleTimeout_config (cs : ControllableSystem) (now : Nat) :
    (cs.handleTimeout now).config = cs.config := by
  rcases cs.handleTimeout_cases now with ⟨h, -⟩ | ⟨-, -, h⟩ | ⟨-, -, h⟩ | ⟨-, h⟩ | ⟨-, -, h⟩ <;>
    simp [h]

@[simp] theorem handleTimeout_lastHeartbeat (cs : ControllableSystem) (now : Nat) :
    (cs.handleTimeout now).lastHeartbeat = cs.lastHeartbeat := by
  rcases cs.handleTimeout_cases now with ⟨h, -⟩ | ⟨-, -, h⟩ | ⟨-, -, h⟩ | ⟨-, h⟩ | ⟨-, -, h⟩ <;>
    simp [h]

theorem handleTimeout_isControlled (h : cs.state.isControlled = false) :
    (cs.handleTimeout now).state.isControlled = false := by
  rcases cs.handleTimeout_cases now with
    ⟨he, -⟩ | ⟨hs, -, -⟩ | ⟨hs, -, -⟩ | ⟨-, he⟩ | ⟨-, -, he⟩
  · rwa [he]
  · simp [h] at hs
  · simp [hs, LimitationState.isControlled] at h
  · rw [he]
    simp [LimitationState.isControlled]
  · rw [he]
    simp [LimitationState.isControlled]

end Timers

def needsRecentHeartbeat (cs : ControllableSystem) : Bool :=
  match cs.state with
  | .init | .failsafeState | .unlimitedAutonomous => true
  | _ => false

def heartbeatWithin (cs : ControllableSystem) (now window : Nat) : Bool :=
  cs.lastHeartbeat.any (fun hb => now - hb < window)

def heartbeatIsRecent (cs : ControllableSystem) (now : Nat) : Bool :=
  cs.heartbeatWithin now writeWindow

def onHeartbeat (cs : ControllableSystem) (now : Nat) : ControllableSystem :=
  { cs with
    lastHeartbeat := some now
    awaitingWriteSince :=
      if cs.state = .failsafeState ∧ cs.awaitingWriteSince = none then some now
      else cs.awaitingWriteSince }

def refuse (cs : ControllableSystem) (reason : NackReason) (now : Nat) :
    ControllableSystem × WriteOutcome :=
  let cs' := if cs.state.isControlled then cs else cs.enter .unlimitedControlled now
  ({ cs' with sequenceComplete := true, awaitingWriteSince := none }, .rejected reason)

def accept (cs : ControllableSystem) (write : LimitWrite) (now : Nat) : ControllableSystem :=
  { cs with
    sequenceComplete := true
    awaitingWriteSince := none
    limit := some write
    limitExpiry := write.duration.map (now + ·) }.enter write.target now

/-- Applies a write on the active power limit. The gate on a recent heartbeat comes before the
value checks: a write without one is not evaluated and changes nothing. -/
def onLimitWrite (cs : ControllableSystem) (write : LimitWrite) (decision : LocalDecision)
    (now : Nat) : ControllableSystem × WriteOutcome :=
  let cs := cs.handleTimeout now
  if cs.needsRecentHeartbeat && !cs.heartbeatIsRecent now then
    (cs, .rejected .noRecentHeartbeat)
  else
    match limitRefusal write decision with
    | some reason => cs.refuse reason now
    | none => (cs.accept write now, .accepted)

def onUnreadableLimitWrite (cs : ControllableSystem) (now : Nat) :
    ControllableSystem × WriteOutcome :=
  let cs := cs.handleTimeout now
  if cs.needsRecentHeartbeat && !cs.heartbeatIsRecent now then
    (cs, .rejected .noRecentHeartbeat)
  else cs.refuse .unreadable now

def onUnstoredLimitWrite (cs : ControllableSystem) (now : Nat) : ControllableSystem :=
  { cs with limit := none, limitExpiry := none }.enter .unlimitedControlled now

/-- The gates a write on anything other than the limit has to pass first. -/
def checkSecondaryWrite (cs : ControllableSystem) (now : Nat) : Option WriteOutcome :=
  if !cs.sequenceComplete then some (.rejected .sequenceIncomplete)
  else if cs.needsRecentHeartbeat && !cs.heartbeatIsRecent now then
    some (.rejected .noRecentHeartbeat)
  else none

def onFailsafeLimitWrite (cs : ControllableSystem) (watts : F64) (now : Nat) :
    ControllableSystem × WriteOutcome :=
  let cs := cs.handleTimeout now
  match cs.checkSecondaryWrite now with
  | some rejection => (cs, rejection)
  | none =>
    if !watts.isFinite then (cs, .rejected .notFinite)
    else if watts.isNegative then (cs, .rejected .negativeValue)
    else ({ cs with config := { cs.config with failsafeWatts := watts } }, .accepted)

def onFailsafeDurationWrite (cs : ControllableSystem) (duration now : Nat) :
    ControllableSystem × WriteOutcome :=
  let cs := cs.handleTimeout now
  match cs.checkSecondaryWrite now with
  | some rejection => (cs, rejection)
  | none =>
    if ¬(failsafeDurationMin ≤ duration ∧ duration ≤ failsafeDurationMax) ∨
        cs.config.failsafeDurationMax < duration then
      (cs, .rejected .durationOutOfRange)
    else ({ cs with config := { cs.config with failsafeDuration := duration } }, .accepted)

/-- Interrupts an active limitation; on a device that is no energy manager, uncontrolled loads
are no reason for it. -/
def interrupt (cs : ControllableSystem) (reason : RejectReason) (now : Nat) :
    ControllableSystem × Bool :=
  if cs.state ≠ .limited then (cs, false)
  else if reason = .uncontrolledLoads ∧ cs.config.onCem = false then (cs, false)
  else ({ cs with limit := none, limitExpiry := none }.enter .unlimitedControlled now, true)

def deadlines (cs : ControllableSystem) : List Nat :=
  match cs.state with
  | .limited => (cs.heardFrom + heartbeatTimeout) :: cs.limitExpiry.toList
  | .unlimitedControlled => [cs.heardFrom + heartbeatTimeout]
  | .init => [cs.enteredStateAt + settleTimeout]
  | .failsafeState => (cs.enteredStateAt + cs.config.failsafeDuration) ::
      (cs.awaitingWriteSince.map (· + settleTimeout)).toList
  | .unlimitedAutonomous => []

def pollTimeout (cs : ControllableSystem) : Option Nat := cs.deadlines.min?

/-- The same with every addition made as a `Duration` makes it. -/
def tryPollTimeout (cs : ControllableSystem) : Except Overflow (Option Nat) :=
  match cs.state with
  | .limited => do
    let silence ← addDurations cs.heardFrom heartbeatTimeout
    .ok (silence :: cs.limitExpiry.toList).min?
  | .unlimitedControlled => do
    let silence ← addDurations cs.heardFrom heartbeatTimeout
    .ok (some silence)
  | .init => do
    let settled ← addDurations cs.enteredStateAt settleTimeout
    .ok (some settled)
  | .failsafeState => do
    let minimum ← addDurations cs.enteredStateAt cs.config.failsafeDuration
    match cs.awaitingWriteSince with
    | none => .ok (some minimum)
    | some since => do
      let settled ← addDurations since settleTimeout
      .ok (some (min minimum settled))
  | .unlimitedAutonomous => .ok none

end ControllableSystem

/-- One call on the system. -/
inductive Op
  | heartbeat
  | limitWrite (write : LimitWrite) (decision : LocalDecision)
  | unreadableLimitWrite
  | unstoredLimitWrite
  | failsafeLimitWrite (watts : F64)
  | failsafeDurationWrite (duration : Nat)
  | interrupt (reason : RejectReason)
  | timeout
deriving DecidableEq, Repr

/-- A call with the time it is made at. -/
structure Call where
  op : Op
  now : Nat
deriving DecidableEq, Repr

def Op.isLimitWrite : Op → Bool
  | .limitWrite _ _ | .unreadableLimitWrite => true
  | _ => false

def Op.ticksFirst : Op → Bool
  | .limitWrite _ _ | .unreadableLimitWrite | .failsafeLimitWrite _ | .failsafeDurationWrite _
  | .timeout => true
  | .heartbeat | .unstoredLimitWrite | .interrupt _ => false

def Call.ticked (c : Call) (cs : ControllableSystem) : ControllableSystem :=
  if c.op.ticksFirst then cs.handleTimeout c.now else cs

theorem Call.ticked_isControlled {cs : ControllableSystem} {c : Call}
    (h : cs.state.isControlled = false) : (c.ticked cs).state.isControlled = false := by
  unfold Call.ticked
  split
  · exact ControllableSystem.handleTimeout_isControlled h
  · exact h

@[simp] theorem Call.ticked_lastHeartbeat (cs : ControllableSystem) (c : Call) :
    (c.ticked cs).lastHeartbeat = cs.lastHeartbeat := by
  unfold Call.ticked
  split <;> simp

@[simp] theorem Call.ticked_config (cs : ControllableSystem) (c : Call) :
    (c.ticked cs).config = cs.config := by
  unfold Call.ticked
  split <;> simp

/-- The Controllable System as a machine over its calls; writes are answered. -/
def system : Machine ControllableSystem Call (Option WriteOutcome) where
  step cs c :=
    match c.op with
    | .heartbeat => (cs.onHeartbeat c.now, none)
    | .limitWrite write decision =>
      let r := cs.onLimitWrite write decision c.now
      (r.1, some r.2)
    | .unreadableLimitWrite =>
      let r := cs.onUnreadableLimitWrite c.now
      (r.1, some r.2)
    | .unstoredLimitWrite => (cs.onUnstoredLimitWrite c.now, none)
    | .failsafeLimitWrite watts =>
      let r := cs.onFailsafeLimitWrite watts c.now
      (r.1, some r.2)
    | .failsafeDurationWrite duration =>
      let r := cs.onFailsafeDurationWrite duration c.now
      (r.1, some r.2)
    | .interrupt reason => ((cs.interrupt reason c.now).1, none)
    | .timeout => (cs.handleTimeout c.now, none)

end Eebus.Limitation
