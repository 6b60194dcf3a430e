import Eebus.Limitation.History

/-!
The canonical form of a Controllable System at an instant: every deadline that has passed is
served at its own time, and what the present state does not read is cleared. A timely tick leaves
the canonical form as it is.
-/

namespace Eebus.Limitation

open Eebus.Library

namespace ControllableSystem

def awaitingGuard (cs : ControllableSystem) : ControllableSystem :=
  { cs with limit := none, limitExpiry := none, awaitingWriteSince := none }
def underLimit (cs : ControllableSystem) : ControllableSystem :=
  { cs with enteredStateAt := 0, awaitingWriteSince := none }
def withoutLimit (cs : ControllableSystem) : ControllableSystem :=
  { cs with
    state := .unlimitedControlled
    limit := none
    limitExpiry := none
    enteredStateAt := 0
    awaitingWriteSince := none }
def failed (cs : ControllableSystem) (since : Nat) (heard : Option Nat) (sequence : Bool) :
    ControllableSystem :=
  { cs with
    state := .failsafeState
    limit := none
    limitExpiry := none
    enteredStateAt := since
    awaitingWriteSince := heard
    sequenceComplete := sequence }
def autonomous (cs : ControllableSystem) (sequence : Bool) : ControllableSystem :=
  { cs with
    state := .unlimitedAutonomous
    limit := none
    limitExpiry := none
    enteredStateAt := 0
    awaitingWriteSince := none
    sequenceComplete := sequence }

def failedUntil (cs : ControllableSystem) (since : Nat) (heard : Option Nat) (sequence : Bool)
    (now : Nat) : ControllableSystem :=
  if cs.config.failsafeDuration ≤ now - since ∨ heard.any (fun h => settleTimeout ≤ now - h) then
    cs.autonomous false
  else cs.failed since heard sequence

/-- The canonical form: every deadline that has passed by `now` is served at its own instant. -/
def canon (cs : ControllableSystem) (now : Nat) : ControllableSystem :=
  match cs.state with
  | .init =>
    if settleTimeout ≤ now - cs.enteredStateAt then cs.autonomous false else cs.awaitingGuard
  | .limited =>
    match cs.lastHeartbeat with
    | none => cs.underLimit
    | some hb =>
      if heartbeatTimeout ≤ now - hb then cs.failedUntil (hb + heartbeatTimeout) none false now
      else if cs.limitExpiry.any (· ≤ now) then cs.withoutLimit
      else cs.underLimit
  | .unlimitedControlled =>
    match cs.lastHeartbeat with
    | none => cs.withoutLimit
    | some hb =>
      if heartbeatTimeout ≤ now - hb then cs.failedUntil (hb + heartbeatTimeout) none false now
      else cs.withoutLimit
  | .failsafeState =>
    cs.failedUntil cs.enteredStateAt cs.awaitingWriteSince cs.sequenceComplete now
  | .unlimitedAutonomous => cs.autonomous cs.sequenceComplete

theorem failedUntil_canon {cs : ControllableSystem} {since : Nat} {heard : Option Nat}
    {sequence : Bool} {now now' : Nat} (h : now ≤ now') :
    (cs.failedUntil since heard sequence now).canon now' =
      cs.failedUntil since heard sequence now' := by
  cases heard with
  | none =>
    by_cases h1 : cs.config.failsafeDuration ≤ now - since
    · have h2 : cs.config.failsafeDuration ≤ now' - since := by omega
      simp [failedUntil, h1, h2, canon, autonomous]
    · simp [failedUntil, h1, canon, failed, autonomous]
  | some hb =>
    by_cases h1 : cs.config.failsafeDuration ≤ now - since ∨ settleTimeout ≤ now - hb
    · have h2 : cs.config.failsafeDuration ≤ now' - since ∨ settleTimeout ≤ now' - hb := by omega
      simp [failedUntil, h1, h2, canon, autonomous]
    · simp [failedUntil, h1, canon, failed, autonomous]

theorem canon_canon {cs : ControllableSystem} {now now' : Nat} (h : now ≤ now') :
    (cs.canon now).canon now' = cs.canon now' := by
  cases hs : cs.state with
  | init =>
    by_cases h1 : settleTimeout ≤ now - cs.enteredStateAt
    · have h2 : settleTimeout ≤ now' - cs.enteredStateAt := by omega
      simp [canon, hs, h1, h2, autonomous]
    · simp [canon, hs, h1, awaitingGuard, autonomous]
  | limited =>
    cases hh : cs.lastHeartbeat with
    | none => simp [canon, hs, hh, underLimit]
    | some hb =>
      by_cases h1 : heartbeatTimeout ≤ now - hb
      · have h2 : heartbeatTimeout ≤ now' - hb := by omega
        simpa [canon, hs, hh, h1, h2] using failedUntil_canon h
      · by_cases h3 : cs.limitExpiry.any (· ≤ now)
        · have h4 : cs.limitExpiry.any (· ≤ now') := by
            cases he : cs.limitExpiry <;> simp_all
            omega
          simp [canon, hs, hh, h1, h3, h4, withoutLimit, failedUntil, failed, autonomous]
        · simp [canon, hs, hh, h1, h3, underLimit, withoutLimit, failedUntil, failed, autonomous]
  | unlimitedControlled =>
    cases hh : cs.lastHeartbeat with
    | none => simp [canon, hs, hh, withoutLimit]
    | some hb =>
      by_cases h1 : heartbeatTimeout ≤ now - hb
      · have h2 : heartbeatTimeout ≤ now' - hb := by omega
        simpa [canon, hs, hh, h1, h2] using failedUntil_canon h
      · simp [canon, hs, hh, h1, withoutLimit, failedUntil, failed, autonomous]
  | failsafeState => simpa [canon, hs] using failedUntil_canon h
  | unlimitedAutonomous => simp [canon, hs, autonomous]

/-- A system whose control was established by a heartbeat, and whose failsafe state lasts. -/
structure Ready (cs : ControllableSystem) : Prop where
  heard : cs.state.isControlled = true → cs.lastHeartbeat.isSome = true
  lasts : 0 < cs.config.failsafeDuration

/-- The system meets `now` no later than the heartbeat timeout of a controlled state. -/
def InTime (cs : ControllableSystem) (now : Nat) : Prop :=
  cs.state.isControlled = true → ∀ hb, cs.lastHeartbeat = some hb → now ≤ hb + heartbeatTimeout

section

variable {cs : ControllableSystem} {now : Nat}

theorem Ready.heartbeat (hready : cs.Ready) (h : cs.state.isControlled = true) :
    ∃ hb, cs.lastHeartbeat = some hb :=
  Option.isSome_iff_exists.mp (hready.heard h)

theorem InTime.eq_deadline (htime : cs.InTime now) (hc : cs.state.isControlled = true) {hb : Nat}
    (hh : cs.lastHeartbeat = some hb) (h : heartbeatTimeout ≤ now - hb) :
    now = hb + heartbeatTimeout := by
  have hle := htime hc hb hh
  have hpos : 0 < heartbeatTimeout := by decide
  omega

theorem enter_failsafe_canon (hc : cs.state.isControlled = true) :
    (cs.enter .failsafeState now).canon now = cs.failedUntil now none false now := by
  have hne : cs.state ≠ .failsafeState := by
    intro he
    simp [he, LimitationState.isControlled] at hc
  simp [canon, enter, hne, LimitationState.isFallback, failedUntil, failed, autonomous]

theorem handleTimeout_canon (hready : cs.Ready) (htime : cs.InTime now) :
    (cs.handleTimeout now).canon now = cs.canon now := by
  cases hs : cs.state with
  | init =>
    rw [handleTimeout_init hs]
    split
    case isTrue h => simp [canon, hs, h, enter, autonomous, LimitationState.isFallback]
    case isFalse h => rfl
  | limited =>
    have hc : cs.state.isControlled = true := by rw [hs]; rfl
    obtain ⟨hb, hh⟩ := hready.heartbeat hc
    rw [handleTimeout_limited hs]
    simp only [heardFrom, hh, Option.getD_some]
    split
    case isTrue h =>
      rw [enter_failsafe_canon hc]
      simp [canon, hs, hh, h, ← htime.eq_deadline hc hh h]
    case isFalse h =>
      split
      case isTrue he => simp [canon, hs, hh, h, he, enter, withoutLimit, LimitationState.isFallback]
      case isFalse he => rfl
  | unlimitedControlled =>
    have hc : cs.state.isControlled = true := by rw [hs]; rfl
    obtain ⟨hb, hh⟩ := hready.heartbeat hc
    rw [handleTimeout_unlimitedControlled hs]
    simp only [heardFrom, hh, Option.getD_some]
    split
    case isTrue h =>
      rw [enter_failsafe_canon hc]
      simp [canon, hs, hh, h, ← htime.eq_deadline hc hh h]
    case isFalse h => rfl
  | failsafeState =>
    rw [handleTimeout_failsafeState hs]
    split
    case isTrue h => simp [canon, hs, h, enter, autonomous, failedUntil, LimitationState.isFallback]
    case isFalse h => rfl
  | unlimitedAutonomous => rw [handleTimeout_unlimitedAutonomous hs]

theorem handleTimeout_settled (hready : cs.Ready) : (cs.handleTimeout now).Settled now := by
  rcases cs.handleTimeout_cases now with
    ⟨he, hsettled⟩ | ⟨hc, -, he⟩ | ⟨hs, hheard, he⟩ | ⟨-, he⟩ | ⟨-, -, he⟩
  · rwa [he]
  · have hne : cs.state ≠ .failsafeState := by
      intro hs
      simp [hs, LimitationState.isControlled] at hc
    have hlasts := hready.lasts
    rw [he]
    simp [Settled, LimitationState.isControlled, enter_enteredStateAt,
      enter_awaitingWriteSince _ _ _ hne, hne, hlasts]
  · obtain ⟨hb, hh⟩ := hready.heartbeat (by rw [hs]; rfl)
    rw [he]
    simpa [Settled, LimitationState.isControlled, heardFrom, hh] using hheard
  · rw [he]
    simp [Settled, LimitationState.isControlled]
  · rw [he]
    simp [Settled, LimitationState.isControlled]

end

/-- Two systems that agree on everything their common state reads. -/
structure Alike (u v : ControllableSystem) : Prop where
  config : u.config = v.config
  state : u.state = v.state
  heartbeat : u.lastHeartbeat = v.lastHeartbeat
  sequence : u.sequenceComplete = v.sequenceComplete
  limit : u.state = .limited → u.limit = v.limit ∧ u.limitExpiry = v.limitExpiry
  entered : u.state = .init ∨ u.state = .failsafeState → u.enteredStateAt = v.enteredStateAt
  awaiting : u.state = .failsafeState → u.awaitingWriteSince = v.awaitingWriteSince

section Alike

variable {u v w : ControllableSystem} {now : Nat}

theorem Alike.symm (h : Alike u v) : Alike v u :=
  ⟨h.config.symm, h.state.symm, h.heartbeat.symm, h.sequence.symm,
    fun hs => ⟨(h.limit (h.state.trans hs)).1.symm, (h.limit (h.state.trans hs)).2.symm⟩,
    fun hs => (h.entered (by rwa [h.state])).symm, fun hs => (h.awaiting (h.state.trans hs)).symm⟩

theorem Alike.trans (h : Alike u v) (h' : Alike v w) : Alike u w :=
  ⟨h.config.trans h'.config, h.state.trans h'.state, h.heartbeat.trans h'.heartbeat,
    h.sequence.trans h'.sequence,
    fun hs => ⟨(h.limit hs).1.trans (h'.limit (h.state ▸ hs)).1,
      (h.limit hs).2.trans (h'.limit (h.state ▸ hs)).2⟩,
    fun hs => (h.entered hs).trans (h'.entered (by rwa [← h.state])),
    fun hs => (h.awaiting hs).trans (h'.awaiting (h.state ▸ hs))⟩

theorem Alike.effectiveLimit (h : Alike u v) : u.effectiveLimit = v.effectiveLimit := by
  have hstate := h.state
  cases hs : u.state <;> rw [hs] at hstate <;>
    simp [ControllableSystem.effectiveLimit, hs, ← hstate, h.config]
  rw [(h.limit hs).1]

theorem Alike.canon (h : Alike u v) (now : Nat) : u.canon now = v.canon now := by
  obtain ⟨config, state, limit, expiry, hb, entered, awaiting, sequence⟩ := u
  obtain ⟨config', state', limit', expiry', hb', entered', awaiting', sequence'⟩ := v
  obtain ⟨rfl, rfl, rfl, rfl, hlimit, hentered, hawaiting⟩ := h
  cases state with
  | init =>
    have he : entered = entered' := hentered (Or.inl rfl)
    simp [ControllableSystem.canon, he, autonomous, awaitingGuard]
  | limited =>
    obtain ⟨rfl, rfl⟩ := hlimit rfl
    cases hb <;> simp [ControllableSystem.canon, underLimit, withoutLimit, failedUntil, failed, autonomous]
  | unlimitedControlled =>
    cases hb <;> simp [ControllableSystem.canon, withoutLimit, failedUntil, failed, autonomous]
  | failsafeState =>
    have he : entered = entered' := hentered (Or.inr rfl)
    have ha : awaiting = awaiting' := hawaiting rfl
    simp [ControllableSystem.canon, he, ha, failedUntil, failed, autonomous]
  | unlimitedAutonomous => simp [ControllableSystem.canon, autonomous]

theorem Settled.alike_canon (h : u.Settled now) (hready : u.Ready) : Alike u (u.canon now) := by
  obtain ⟨hheard, hexpiry, hinit, hfailsafe⟩ := h
  cases hs : u.state with
  | init =>
    have h1 := hinit hs
    have h2 : ¬settleTimeout ≤ now - u.enteredStateAt := by omega
    have he : u.canon now = u.awaitingGuard := by simp [ControllableSystem.canon, hs, h2]
    rw [he]
    exact ⟨rfl, rfl, rfl, rfl, by simp [hs], fun _ => rfl, by simp [hs]⟩
  | limited =>
    obtain ⟨hb, hh⟩ := hready.heartbeat (by rw [hs]; rfl)
    have h1 := hheard (by rw [hs]; rfl)
    have h2 : ¬heartbeatTimeout ≤ now - hb := by
      simp only [heardFrom, hh, Option.getD_some] at h1
      omega
    have h3 : u.limitExpiry.any (· ≤ now) = false := by
      cases he : u.limitExpiry with
      | none => rfl
      | some expiry => simpa using hexpiry hs expiry he
    have he : u.canon now = u.underLimit := by simp [ControllableSystem.canon, hs, hh, h2, h3]
    rw [he]
    exact ⟨rfl, rfl, rfl, rfl, fun _ => ⟨rfl, rfl⟩, by simp [hs], by simp [hs]⟩
  | unlimitedControlled =>
    obtain ⟨hb, hh⟩ := hready.heartbeat (by rw [hs]; rfl)
    have h1 := hheard (by rw [hs]; rfl)
    have h2 : ¬heartbeatTimeout ≤ now - hb := by
      simp only [heardFrom, hh, Option.getD_some] at h1
      omega
    have he : u.canon now = u.withoutLimit := by simp [ControllableSystem.canon, hs, hh, h2]
    rw [he]
    exact ⟨rfl, hs, rfl, rfl, by simp [hs], by simp [hs], by simp [hs]⟩
  | failsafeState =>
    have h1 := hfailsafe hs
    have h2 : u.awaitingWriteSince.any (fun since => settleTimeout ≤ now - since) = false := by
      cases ha : u.awaitingWriteSince with
      | none => rfl
      | some since => simpa using h1.2 since ha
    have h3 : ¬u.config.failsafeDuration ≤ now - u.enteredStateAt := by omega
    have he : u.canon now = u.failed u.enteredStateAt u.awaitingWriteSince u.sequenceComplete := by
      simp [ControllableSystem.canon, hs, failedUntil, h2, h3]
    rw [he]
    exact ⟨rfl, hs, rfl, rfl, by simp [hs], fun _ => rfl, fun _ => rfl⟩
  | unlimitedAutonomous =>
    have he : u.canon now = u.autonomous u.sequenceComplete := by
      simp [ControllableSystem.canon, hs]
    rw [he]
    exact ⟨rfl, hs, rfl, rfl, by simp [hs], by simp [hs], by simp [hs]⟩

end Alike

end ControllableSystem

end Eebus.Limitation
