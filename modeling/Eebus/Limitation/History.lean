import Eebus.Limitation.State

/-!
What one call on the Controllable System can do, and the history a run of calls leaves: what was
accepted last, when the present state was entered, what was heard in it. The fields of the system
are shown to track what the record of the run says.
-/

namespace Eebus.Limitation

open Eebus.Library

namespace ControllableSystem

/-- The gate of a limit write is open: control is established, or a heartbeat is recent. -/
def Evaluates (cs : ControllableSystem) (now : Nat) : Prop :=
  cs.state.isControlled = true ∨ ∃ hb, cs.lastHeartbeat = some hb ∧ now - hb < writeWindow

theorem gate_open {cs : ControllableSystem} {now : Nat}
    (h : ¬(cs.needsRecentHeartbeat && !cs.heartbeatIsRecent now) = true) : cs.Evaluates now := by
  by_cases hr : cs.heartbeatIsRecent now
  · right
    simpa [heartbeatIsRecent, heartbeatWithin, Option.any_eq_true] using hr
  · left
    cases hs : cs.state <;> simp_all [needsRecentHeartbeat, LimitationState.isControlled]

theorem secondary_gate_open {cs : ControllableSystem} {now : Nat}
    (h : cs.checkSecondaryWrite now = none) : cs.sequenceComplete = true := by
  unfold checkSecondaryWrite at h
  split at h <;> simp_all

end ControllableSystem

/-- What a call can do, in terms of the system it meets once its timers are up to date. -/
inductive Effect (cs : ControllableSystem) (c : Call) :
    ControllableSystem → Option WriteOutcome → Prop
  | heard (hop : c.op = .heartbeat) : Effect cs c (cs.onHeartbeat c.now) none
  | accepted {write : LimitWrite} {decision : LocalDecision}
      (hop : c.op = .limitWrite write decision) (hgate : (c.ticked cs).Evaluates c.now)
      (hvalid : limitRefusal write decision = none) :
      Effect cs c ((c.ticked cs).accept write c.now) (some .accepted)
  | refused {reason : NackReason} (hop : c.op.isLimitWrite = true)
      (hgate : (c.ticked cs).Evaluates c.now) (hreason : reason ≠ .noRecentHeartbeat) :
      Effect cs c ((c.ticked cs).refuse reason c.now).1 (some (.rejected reason))
  | ticked {outcome : Option WriteOutcome}
      (hout : c.op.isLimitWrite = true → outcome = some (.rejected .noRecentHeartbeat))
      (hop : c.op ≠ .heartbeat) :
      Effect cs c (c.ticked cs) outcome
  | configured {config : CsConfig} (hop : c.op.isLimitWrite = false) (hbeat : c.op ≠ .heartbeat)
      (hsequence : (c.ticked cs).sequenceComplete = true)
      (hduration : config.failsafeDuration = (c.ticked cs).config.failsafeDuration ∨
        failsafeDurationMin ≤ config.failsafeDuration) :
      Effect cs c { c.ticked cs with config := config } (some .accepted)
  | unstored (hop : c.op = .unstoredLimitWrite) : Effect cs c (cs.onUnstoredLimitWrite c.now) none
  | interrupted {reason : RejectReason} (hop : c.op = .interrupt reason)
      (hstate : cs.state = .limited) :
      Effect cs c
        ({ cs with limit := none, limitExpiry := none }.enter .unlimitedControlled c.now) none

theorem limitRefusal_ne {write : LimitWrite} {decision : LocalDecision} {reason : NackReason}
    (h : limitRefusal write decision = some reason) : reason ≠ .noRecentHeartbeat := by
  unfold limitRefusal at h
  rintro rfl
  repeat' split at h
  all_goals simp at h

theorem step_effect (cs : ControllableSystem) (c : Call) :
    Effect cs c (system.step cs c).1 (system.step cs c).2 := by
  obtain ⟨op, now⟩ := c
  cases op with
  | heartbeat => exact .heard rfl
  | limitWrite write decision =>
    simp only [system, ControllableSystem.onLimitWrite]
    split
    case isTrue h => exact .ticked (by simp) (by simp)
    case isFalse h =>
      cases hr : limitRefusal write decision with
      | none => exact .accepted rfl (ControllableSystem.gate_open h) hr
      | some reason => exact .refused rfl (ControllableSystem.gate_open h) (limitRefusal_ne hr)
  | unreadableLimitWrite =>
    simp only [system, ControllableSystem.onUnreadableLimitWrite]
    split
    case isTrue h => exact .ticked (by simp) (by simp)
    case isFalse h => exact .refused rfl (ControllableSystem.gate_open h) (by simp)
  | unstoredLimitWrite => exact .unstored rfl
  | failsafeLimitWrite watts =>
    simp only [system, ControllableSystem.onFailsafeLimitWrite]
    split
    · exact .ticked (by simp [Op.isLimitWrite]) (by simp)
    · rename_i hgate
      split
      · exact .ticked (by simp [Op.isLimitWrite]) (by simp)
      · split
        · exact .ticked (by simp [Op.isLimitWrite]) (by simp)
        · exact .configured rfl (by simp) (ControllableSystem.secondary_gate_open hgate)
            (Or.inl rfl)
  | failsafeDurationWrite duration =>
    simp only [system, ControllableSystem.onFailsafeDurationWrite]
    split
    · exact .ticked (by simp [Op.isLimitWrite]) (by simp)
    · rename_i hgate
      split
      · exact .ticked (by simp [Op.isLimitWrite]) (by simp)
      · rename_i hrange
        rw [not_or, not_not] at hrange
        exact .configured rfl (by simp) (ControllableSystem.secondary_gate_open hgate)
          (Or.inr hrange.1.1)
  | interrupt reason =>
    simp only [system, ControllableSystem.interrupt]
    split
    · exact .ticked (by simp [Op.isLimitWrite]) (by simp)
    · split
      · exact .ticked (by simp [Op.isLimitWrite]) (by simp)
      · exact .interrupted rfl (by simp_all)
  | timeout => exact .ticked (by simp [Op.isLimitWrite]) (by simp)

abbrev Step := Event ControllableSystem Call (Option WriteOutcome)

namespace Step

def ticked (e : Step) : ControllableSystem := e.input.ticked e.before

def moves (e : Step) : List (LimitationState × LimitationState) :=
  [(e.before.state, e.ticked.state), (e.ticked.state, e.after.state)]

def evaluates (e : Step) : Bool :=
  e.input.op.isLimitWrite && e.output != some (.rejected .noRecentHeartbeat)

def acceptedWrite (e : Step) : Option (LimitWrite × Nat) :=
  match e.input.op, e.output with
  | .limitWrite write _, some .accepted => some (write, e.input.now)
  | _, _ => none

theorem acceptedWrite_none {e : Step}
    (h : e.input.op.isLimitWrite = false ∨ e.output ≠ some .accepted) :
    acceptedWrite e = none := by
  unfold acceptedWrite
  split
  case h_1 hop hout => simp [hop, hout, Op.isLimitWrite] at h
  case h_2 => rfl

end Step

def lastAccepted (past : List Step) : Option (LimitWrite × Nat) :=
  past.findSome? Step.acceptedWrite

def lastHeartbeat (past : List Step) : Option Nat :=
  past.findSome? fun e => if e.input.op = .heartbeat then some e.input.now else none

def enteredAt (start : Nat) : List Step → Nat
  | [] => start
  | e :: past =>
    bif e.ticked.state == e.after.state then
      (bif e.before.state == e.ticked.state then enteredAt start past else e.input.now)
    else e.input.now

def firstHeartbeat : List Step → Option Nat
  | [] => none
  | e :: past =>
    bif e.ticked.state == e.after.state && e.before.state == e.ticked.state then
      (firstHeartbeat past).or (if e.input.op = .heartbeat then some e.input.now else none)
    else none

def fallsBack (source target : LimitationState) : Bool :=
  source != target && target.isFallback

def evaluatedSince : List Step → Bool
  | [] => false
  | e :: past =>
    !fallsBack e.ticked.state e.after.state &&
      (e.evaluates || (!fallsBack e.before.state e.ticked.state && evaluatedSince past))

/-- What the fields of the system say about the history of the run. -/
structure Tracks (cs : ControllableSystem) (accepted : Option (LimitWrite × Nat))
    (heard : Option Nat) (entered : Nat) (first : Option Nat) (evaluated : Bool) : Prop where
  heard : cs.lastHeartbeat = heard
  entered : cs.enteredStateAt = entered
  held : cs.state = .limited → ∃ write since, accepted = some (write, since) ∧
    cs.limit = some write ∧ write.isActive = true ∧ write.watts.isFinite = true ∧
    write.watts.isNegative = false ∧ cs.limitExpiry = write.duration.map (since + ·)
  first : cs.state = .failsafeState → cs.awaitingWriteSince = first
  evaluated : cs.sequenceComplete = true → evaluated = true

section Tracking

variable {cs : ControllableSystem} {accepted : Option (LimitWrite × Nat)} {heard : Option Nat}
  {entered now : Nat} {first : Option Nat} {evaluated : Bool}

theorem Tracks.enter (h : Tracks cs accepted heard entered first evaluated)
    {state : LimitationState} (hne : cs.state ≠ state) (hlimited : state ≠ .limited) :
    Tracks (cs.enter state now) accepted heard now none
      (!fallsBack cs.state state && evaluated) := by
  refine ⟨by simpa using h.heard, by simp [ControllableSystem.enter_enteredStateAt, hne],
    by simp [hlimited], fun _ => cs.enter_awaitingWriteSince state now hne, fun hs => ?_⟩
  by_cases hf : state.isFallback
  · simp [cs.enter_fallback state now hf hne] at hs
  · simp only [Bool.not_eq_true] at hf
    rw [cs.enter_sequenceComplete state now hf] at hs
    simp [fallsBack, hf, h.evaluated hs]

theorem Tracks.handleTimeout (h : Tracks cs accepted heard entered first evaluated) :
    Tracks (cs.handleTimeout now) accepted heard
      (bif cs.state == (cs.handleTimeout now).state then entered else now)
      (bif cs.state == (cs.handleTimeout now).state then first else none)
      (!fallsBack cs.state (cs.handleTimeout now).state && evaluated) := by
  rcases cs.handleTimeout_cases now with
    ⟨he, -⟩ | ⟨hs, -, he⟩ | ⟨hs, -, he⟩ | ⟨hs, he⟩ | ⟨hs, -, he⟩
  · simpa [he, fallsBack] using h
  · have hne : cs.state ≠ .failsafeState := by
      intro hc
      simp [hc, LimitationState.isControlled] at hs
    simpa [he, beq_false_of_ne hne] using h.enter hne (by simp)
  · have hne : cs.state ≠ .unlimitedControlled := by simp [hs]
    simpa [he, beq_false_of_ne hne] using h.enter hne (by simp)
  · have hne : cs.state ≠ .unlimitedAutonomous := by simp [hs]
    simpa [he, beq_false_of_ne hne] using h.enter hne (by simp)
  · have hne : cs.state ≠ .unlimitedAutonomous := by simp [hs]
    simpa [he, beq_false_of_ne hne] using h.enter hne (by simp)

theorem limitRefusal_none {write : LimitWrite} {decision : LocalDecision}
    (h : limitRefusal write decision = none) :
    write.watts.isFinite = true ∧ write.watts.isNegative = false := by
  unfold limitRefusal at h
  repeat' split at h
  all_goals simp_all

theorem target_isControlled (write : LimitWrite) : write.target.isControlled = true := by
  unfold LimitWrite.target
  split <;> rfl

theorem Tracks.accept (h : Tracks cs accepted heard entered first evaluated) {write : LimitWrite}
    {decision : LocalDecision} (hvalid : limitRefusal write decision = none)
    (now : Nat) (first' : Option Nat) : Tracks (cs.accept write now) (some (write, now)) heard
      (bif cs.state == write.target then entered else now) first' true := by
  obtain ⟨hfinite, hpositive⟩ := limitRefusal_none hvalid
  refine ⟨by simpa [ControllableSystem.accept] using h.heard, ?_, ?_, ?_, fun _ => rfl⟩
  · simp [ControllableSystem.accept, ControllableSystem.enter_enteredStateAt, h.entered]
  · intro hs
    have hactive : write.isActive = true := by
      by_contra hc
      simp [ControllableSystem.accept, LimitWrite.target, hc] at hs
    exact ⟨write, now, rfl, by simp [ControllableSystem.accept], hactive, hfinite, hpositive,
      by simp [ControllableSystem.accept]⟩
  · intro hs
    have hc := target_isControlled write
    have : write.target = .failsafeState := by simpa [ControllableSystem.accept] using hs
    simp [this, LimitationState.isControlled] at hc

theorem refuse_isControlled (cs : ControllableSystem) (reason : NackReason) (now : Nat) :
    (cs.refuse reason now).1.state.isControlled = true := by
  by_cases hc : cs.state.isControlled <;> simp [ControllableSystem.refuse, hc]
  rfl

theorem Tracks.refuse (h : Tracks cs accepted heard entered first evaluated)
    (reason : NackReason) (now : Nat) (first' : Option Nat) :
    Tracks (cs.refuse reason now).1 accepted heard
      (bif cs.state == (cs.refuse reason now).1.state then entered else now) first' true := by
  have hcontrolled := refuse_isControlled cs reason now
  have hfirst : (cs.refuse reason now).1.state ≠ .failsafeState := by
    intro he
    simp [he, LimitationState.isControlled] at hcontrolled
  by_cases hc : cs.state.isControlled
  · refine ⟨?_, ?_, ?_, fun hs => absurd hs hfirst, fun _ => rfl⟩
    · simpa [ControllableSystem.refuse, hc] using h.heard
    · simpa [ControllableSystem.refuse, hc] using h.entered
    · simpa [ControllableSystem.refuse, hc] using h.held
  · have hne : cs.state ≠ .unlimitedControlled := by
      intro he
      simp [he, LimitationState.isControlled] at hc
    refine ⟨?_, ?_, ?_, fun hs => absurd hs hfirst, fun _ => rfl⟩
    · simpa [ControllableSystem.refuse, hc] using h.heard
    · simp [ControllableSystem.refuse, hc, ControllableSystem.enter_enteredStateAt, hne,
        beq_false_of_ne hne]
    · simp [ControllableSystem.refuse, hc]

theorem Tracks.release (h : Tracks cs accepted heard entered first evaluated)
    (now : Nat) (first' : Option Nat) :
    Tracks ({ cs with limit := none, limitExpiry := none }.enter .unlimitedControlled now)
      accepted heard (bif cs.state == .unlimitedControlled then entered else now) first'
      evaluated := by
  refine ⟨by simpa using h.heard, ?_, by simp, by simp, fun hs => ?_⟩
  · simp [ControllableSystem.enter_enteredStateAt, h.entered]
  · rw [ControllableSystem.enter_sequenceComplete _ _ _ rfl] at hs
    exact h.evaluated hs

theorem Tracks.ticked (h : Tracks cs accepted heard entered first evaluated) (c : Call) :
    Tracks (c.ticked cs) accepted heard
      (bif cs.state == (c.ticked cs).state then entered else c.now)
      (bif cs.state == (c.ticked cs).state then first else none)
      (!fallsBack cs.state (c.ticked cs).state && evaluated) := by
  unfold Call.ticked
  split
  · exact h.handleTimeout
  · simpa [fallsBack] using h

end Tracking

def TracksRecord (start : Nat) (p : ControllableSystem × List Step) : Prop :=
  Tracks p.1 (lastAccepted p.2) (lastHeartbeat p.2) (enteredAt start p.2) (firstHeartbeat p.2)
    (evaluatedSince p.2)

theorem not_fallsBack_of_isControlled (source : LimitationState) {target : LimitationState}
    (h : target.isControlled = true) : fallsBack source target = false := by
  cases target <;> simp_all [fallsBack, LimitationState.isControlled, LimitationState.isFallback]

theorem tracksRecord_release {start : Nat} {cs : ControllableSystem} {past : List Step}
    {c : Call} (h : TracksRecord start (cs, past)) (hticks : c.op.ticksFirst = false)
    (hbeat : c.op ≠ .heartbeat) {after : ControllableSystem}
    (hafter : after =
      { cs with limit := none, limitExpiry := none }.enter .unlimitedControlled c.now) :
    TracksRecord start (after, ⟨cs, c, none, after⟩ :: past) := by
  have htick : c.ticked cs = cs := by simp [Call.ticked, hticks]
  subst hafter
  simp only [TracksRecord] at h ⊢
  convert h.release c.now _ using 1
  · simp [lastAccepted, Step.acceptedWrite]
  · simp [lastHeartbeat, hbeat]
  · simp [enteredAt, Step.ticked, htick]
  · cases hop : c.op <;>
      simp_all [evaluatedSince, Step.ticked, Step.evaluates, fallsBack,
        LimitationState.isFallback, Op.ticksFirst, Op.isLimitWrite]

theorem tracksRecord_of_effect {start : Nat} {cs after : ControllableSystem} {past : List Step}
    {c : Call} {out : Option WriteOutcome} (h : TracksRecord start (cs, past))
    (heffect : Effect cs c after out) :
    TracksRecord start (after, ⟨cs, c, out, after⟩ :: past) := by
  have ht := Tracks.ticked h c
  simp only [TracksRecord] at h ht ⊢
  cases heffect with
  | heard hop =>
    have htick : c.ticked cs = cs := by simp [Call.ticked, hop, Op.ticksFirst]
    refine ⟨?_, ?_, ?_, ?_, ?_⟩
    · simp [lastHeartbeat, hop, ControllableSystem.onHeartbeat]
    · simpa [enteredAt, Step.ticked, htick, ControllableSystem.onHeartbeat] using h.entered
    · simpa [lastAccepted, Step.acceptedWrite, hop, ControllableSystem.onHeartbeat] using h.held
    · intro hs
      have hf := h.first hs
      simp only [ControllableSystem.onHeartbeat] at hs ⊢
      cases hw : cs.awaitingWriteSince with
      | none => simp [firstHeartbeat, Step.ticked, htick, hs, hop, ← hf, hw]
      | some since => simp [firstHeartbeat, Step.ticked, htick, ← hf, hw]
    · intro hs
      simpa [evaluatedSince, Step.ticked, htick, fallsBack, ControllableSystem.onHeartbeat]
        using Or.inr (h.evaluated hs)
  | @accepted write decision hop hgate hvalid =>
    have hstate : ((c.ticked cs).accept write c.now).state = write.target := by
      simp [ControllableSystem.accept]
    have hstays := not_fallsBack_of_isControlled (c.ticked cs).state
      (target_isControlled write)
    convert ht.accept hvalid c.now _ using 1
    · simp [lastAccepted, Step.acceptedWrite, hop]
    · simp [lastHeartbeat, hop]
    · simp only [enteredAt, Step.ticked, hstate]
    · simp [evaluatedSince, Step.ticked, hstate, hstays, Step.evaluates, hop, Op.isLimitWrite]
  | @refused reason hop hgate hreason =>
    have hbeat : c.op ≠ .heartbeat := by
      intro he
      simp [he, Op.isLimitWrite] at hop
    have hstays := not_fallsBack_of_isControlled (c.ticked cs).state
      (refuse_isControlled (c.ticked cs) reason c.now)
    convert ht.refuse reason c.now _ using 1
    · rw [lastAccepted, List.findSome?_cons, Step.acceptedWrite_none (by simp)]
      rfl
    · simp [lastHeartbeat, hbeat]
    · rfl
    · simp [evaluatedSince, Step.ticked, hstays, Step.evaluates, hop, hreason]
  | @ticked out hout hbeat =>
    convert ht using 1
    · rw [lastAccepted, List.findSome?_cons, Step.acceptedWrite_none]
      · rfl
      · cases hl : c.op.isLimitWrite <;> simp_all
    · simp [lastHeartbeat, hbeat]
    · simp [enteredAt, Step.ticked]
    · simp [firstHeartbeat, Step.ticked, hbeat]
    · cases hl : c.op.isLimitWrite <;>
        simp_all [evaluatedSince, Step.ticked, Step.evaluates, fallsBack]
  | @configured config hop hbeat hsequence hduration =>
    have hc : Tracks { c.ticked cs with config := config } _ _ _ _ _ :=
      ⟨ht.heard, ht.entered, ht.held, ht.first, ht.evaluated⟩
    convert hc using 1
    · rw [lastAccepted, List.findSome?_cons, Step.acceptedWrite_none (Or.inl hop)]
      rfl
    · simp [lastHeartbeat, hbeat]
    · simp [enteredAt, Step.ticked]
    · simp [firstHeartbeat, Step.ticked, hbeat]
    · simp [evaluatedSince, Step.ticked, Step.evaluates, hop, fallsBack]
  | unstored hop => exact tracksRecord_release h (by simp [hop, Op.ticksFirst]) (by simp [hop]) rfl
  | interrupted hop hlimited =>
    exact tracksRecord_release h (by simp [hop, Op.ticksFirst]) (by simp [hop]) rfl

theorem tracksRecord_step {start : Nat} (p : ControllableSystem × List Step) (c : Call)
    (h : TracksRecord start p) : TracksRecord start (system.recorded.next p c) :=
  tracksRecord_of_effect h (step_effect p.1 c)

theorem tracksRecord_new (config : CsConfig) (start : Nat) :
    TracksRecord start (ControllableSystem.new config start, []) :=
  ⟨rfl, rfl, by simp [ControllableSystem.new], by simp [ControllableSystem.new],
    by simp [ControllableSystem.new]⟩

end Eebus.Limitation
