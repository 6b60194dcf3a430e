import Eebus.Limitation.Canonical

/-!
How far the answers of the limitation state machine depend on when its owner ticks. Runs that
never meet a controlled state past its heartbeat timeout answer like the machine that steps
between canonical forms, whatever ticks lie between their calls.
-/

namespace Eebus.Limitation

open Eebus.Library

namespace ControllableSystem

section

variable {cs u v : ControllableSystem} {now : Nat}

@[simp] theorem canon_config (cs : ControllableSystem) (now : Nat) :
    (cs.canon now).config = cs.config := by
  unfold canon failedUntil
  repeat' split
  all_goals rfl

@[simp] theorem canon_lastHeartbeat (cs : ControllableSystem) (now : Nat) :
    (cs.canon now).lastHeartbeat = cs.lastHeartbeat := by
  unfold canon failedUntil
  repeat' split
  all_goals rfl

theorem failedUntil_isControlled (cs : ControllableSystem) (since : Nat) (heard : Option Nat)
    (sequence : Bool) (now : Nat) :
    (cs.failedUntil since heard sequence now).state.isControlled = false := by
  unfold failedUntil
  split <;> rfl

theorem canon_isControlled (h : (cs.canon now).state.isControlled = true) :
    cs.state.isControlled = true ∧
      ∀ hb, cs.lastHeartbeat = some hb → now < hb + heartbeatTimeout := by
  cases hs : cs.state with
  | init =>
    by_cases h1 : settleTimeout ≤ now - cs.enteredStateAt <;>
      simp [canon, hs, h1, autonomous, awaitingGuard, LimitationState.isControlled] at h
  | limited =>
    refine ⟨rfl, fun hb hh => ?_⟩
    by_contra hle
    have h1 : heartbeatTimeout ≤ now - hb := by omega
    simp [canon, hs, hh, h1, failedUntil_isControlled] at h
  | unlimitedControlled =>
    refine ⟨rfl, fun hb hh => ?_⟩
    by_contra hle
    have h1 : heartbeatTimeout ≤ now - hb := by omega
    simp [canon, hs, hh, h1, failedUntil_isControlled] at h
  | failsafeState => simp [canon, hs, failedUntil_isControlled] at h
  | unlimitedAutonomous => simp [canon, hs, autonomous, LimitationState.isControlled] at h

theorem Ready.canon (hready : cs.Ready) : (cs.canon now).Ready :=
  ⟨fun hc => by simpa using hready.heard (canon_isControlled hc).1, by simpa using hready.lasts⟩

theorem canon_inTime : (cs.canon now).InTime now := by
  intro hc hb hh
  have := (canon_isControlled hc).2 hb (by simpa using hh)
  omega

theorem Ready.handleTimeout (hready : cs.Ready) : (cs.handleTimeout now).Ready := by
  refine ⟨fun hc => ?_, by simpa using hready.lasts⟩
  rw [handleTimeout_lastHeartbeat]
  apply hready.heard
  by_contra hne
  simp [handleTimeout_isControlled (Bool.eq_false_iff.mpr hne)] at hc

theorem handleTimeout_alike (hready : cs.Ready) (htime : cs.InTime now) :
    Alike (cs.handleTimeout now) ((cs.canon now).handleTimeout now) := by
  have h1 : Alike (cs.handleTimeout now) ((cs.handleTimeout now).canon now) :=
    (handleTimeout_settled hready).alike_canon hready.handleTimeout
  have h2 : Alike ((cs.canon now).handleTimeout now) (((cs.canon now).handleTimeout now).canon now) :=
    (handleTimeout_settled hready.canon).alike_canon hready.canon.handleTimeout
  rw [handleTimeout_canon hready htime] at h1
  rw [handleTimeout_canon hready.canon canon_inTime, canon_canon le_rfl] at h2
  exact h1.trans h2.symm

theorem Alike.gate (h : Alike u v) (now : Nat) :
    (u.needsRecentHeartbeat && !u.heartbeatIsRecent now) =
      (v.needsRecentHeartbeat && !v.heartbeatIsRecent now) := by
  simp [needsRecentHeartbeat, heartbeatIsRecent, heartbeatWithin, h.state, h.heartbeat]

theorem Alike.checkSecondaryWrite (h : Alike u v) (now : Nat) :
    u.checkSecondaryWrite now = v.checkSecondaryWrite now := by
  simp only [ControllableSystem.checkSecondaryWrite, h.gate now, h.sequence]

theorem Alike.accept (h : Alike u v) (write : LimitWrite) (now : Nat) :
    Alike (u.accept write now) (v.accept write now) := by
  have hc := target_isControlled write
  have hfall : write.target.isFallback = false := by
    cases ht : write.target <;> simp_all [LimitationState.isControlled, LimitationState.isFallback]
  refine ⟨?_, ?_, ?_, ?_, ?_, ?_, ?_⟩
  · simpa [ControllableSystem.accept] using h.config
  · simp [ControllableSystem.accept]
  · simpa [ControllableSystem.accept] using h.heartbeat
  · simp [ControllableSystem.accept, enter_sequenceComplete, hfall]
  · simp [ControllableSystem.accept]
  · intro hs
    simp only [ControllableSystem.accept, enter_state] at hs
    rcases hs with hs | hs <;> simp [hs, LimitationState.isControlled] at hc
  · intro hs
    simp only [ControllableSystem.accept, enter_state] at hs
    simp [hs, LimitationState.isControlled] at hc

theorem Alike.refuse (h : Alike u v) (reason : NackReason) (now : Nat) :
    Alike (u.refuse reason now).1 (v.refuse reason now).1 := by
  by_cases hc : u.state.isControlled
  · have hc' : v.state.isControlled = true := by rwa [← h.state]
    simp only [ControllableSystem.refuse, hc, hc', if_true]
    exact ⟨h.config, h.state, h.heartbeat, rfl, h.limit, h.entered, fun _ => rfl⟩
  · have hc' : ¬v.state.isControlled = true := by rwa [← h.state]
    simp only [ControllableSystem.refuse, hc, hc']
    exact ⟨by simpa using h.config, by simp, by simpa using h.heartbeat, rfl, by simp, by simp,
      fun _ => rfl⟩

theorem Alike.configure (h : Alike u v) (configure : CsConfig → CsConfig) :
    Alike { u with config := configure u.config } { v with config := configure v.config } :=
  ⟨by simp [h.config], h.state, h.heartbeat, h.sequence, h.limit, h.entered, h.awaiting⟩

theorem write_alike (hready : cs.Ready) (htime : cs.InTime now) {op : Op}
    (hticks : op.ticksFirst = true) :
    (system.step cs ⟨op, now⟩).2 = (system.step (cs.canon now) ⟨op, now⟩).2 ∧
      Alike (system.step cs ⟨op, now⟩).1 (system.step (cs.canon now) ⟨op, now⟩).1 := by
  have h := handleTimeout_alike hready htime
  cases op with
  | limitWrite write decision =>
    simp only [system, onLimitWrite, h.gate now]
    split
    case isTrue => exact ⟨rfl, h⟩
    case isFalse =>
      cases limitRefusal write decision with
      | none => exact ⟨rfl, h.accept write now⟩
      | some reason => exact ⟨rfl, h.refuse reason now⟩
  | unreadableLimitWrite =>
    simp only [system, onUnreadableLimitWrite, h.gate now]
    split
    case isTrue => exact ⟨rfl, h⟩
    case isFalse => exact ⟨rfl, h.refuse .unreadable now⟩
  | failsafeLimitWrite watts =>
    simp only [system, onFailsafeLimitWrite, h.checkSecondaryWrite now]
    split
    · exact ⟨rfl, h⟩
    · split
      · exact ⟨rfl, h⟩
      · split
        · exact ⟨rfl, h⟩
        · exact ⟨rfl, h.configure fun config => { config with failsafeWatts := watts }⟩
  | failsafeDurationWrite duration =>
    simp only [system, onFailsafeDurationWrite, h.checkSecondaryWrite now, h.config]
    split
    · exact ⟨rfl, h⟩
    · split
      · exact ⟨rfl, h⟩
      · have hc := h.configure fun config => { config with failsafeDuration := duration }
        rw [h.config] at hc
        exact ⟨rfl, hc⟩
  | timeout => exact ⟨rfl, h⟩
  | heartbeat => cases hticks
  | unstoredLimitWrite => cases hticks
  | interrupt reason => cases hticks

theorem onHeartbeat_canon (hready : cs.Ready)
    (htime : cs.state.isControlled = true → ∀ hb, cs.lastHeartbeat = some hb →
      now < hb + heartbeatTimeout) :
    (cs.onHeartbeat now).canon now = ((cs.canon now).onHeartbeat now).canon now := by
  have hpos : ¬heartbeatTimeout ≤ 0 := by decide
  cases hs : cs.state with
  | init =>
    by_cases h1 : settleTimeout ≤ now - cs.enteredStateAt <;>
      simp [canon, onHeartbeat, hs, h1, autonomous, awaitingGuard]
  | limited =>
    obtain ⟨hb, hh⟩ := hready.heartbeat (by rw [hs]; rfl)
    have hlt := htime (by rw [hs]; rfl) hb hh
    have h1 : ¬heartbeatTimeout ≤ now - hb := by omega
    by_cases h2 : cs.limitExpiry.any (· ≤ now) <;>
      simp [canon, onHeartbeat, hs, hh, h1, h2, underLimit, withoutLimit, hpos]
  | unlimitedControlled =>
    obtain ⟨hb, hh⟩ := hready.heartbeat (by rw [hs]; rfl)
    have hlt := htime (by rw [hs]; rfl) hb hh
    have h1 : ¬heartbeatTimeout ≤ now - hb := by omega
    simp [canon, onHeartbeat, hs, hh, h1, withoutLimit, hpos]
  | failsafeState =>
    by_cases h1 : cs.config.failsafeDuration ≤ now - cs.enteredStateAt
    · simp [canon, onHeartbeat, hs, h1, failedUntil, autonomous]
    · cases ha : cs.awaitingWriteSince with
      | none => simp [canon, onHeartbeat, hs, h1, ha, failedUntil, failed, autonomous]
      | some since =>
        by_cases h2 : settleTimeout ≤ now - since <;>
          simp [canon, onHeartbeat, hs, h1, h2, ha, failedUntil, failed, autonomous]
  | unlimitedAutonomous => simp [canon, onHeartbeat, hs, autonomous]

theorem canon_limited (h : (cs.canon now).state = .limited) : cs.state = .limited := by
  have hc := (canon_isControlled (by rw [h]; rfl)).1
  cases hs : cs.state with
  | limited => rfl
  | unlimitedControlled =>
    unfold canon failedUntil at h
    rw [hs] at h
    repeat' split at h
    all_goals simp_all [withoutLimit, failed, autonomous]
  | _ => simp [hs, LimitationState.isControlled] at hc

theorem interrupt_canon (hready : cs.Ready) (reason : RejectReason) :
    (cs.interrupt reason now).1.canon now = ((cs.canon now).interrupt reason now).1.canon now := by
  by_cases hs : cs.state = .limited
  · obtain ⟨hb, hh⟩ := hready.heartbeat (by rw [hs]; rfl)
    by_cases h1 : heartbeatTimeout ≤ now - hb
    · have hcanon : cs.canon now = cs.failedUntil (hb + heartbeatTimeout) none false now := by
        simp [canon, hs, hh, h1]
      have hne : (cs.canon now).state ≠ .limited := by
        intro he
        have := failedUntil_isControlled cs (hb + heartbeatTimeout) none false now
        simp [← hcanon, he, LimitationState.isControlled] at this
      rw [interrupt, interrupt, if_pos hne, if_neg (by simpa using hs), canon_canon le_rfl]
      split
      · rfl
      · rw [hcanon]
        simp [canon, enter, hs, hh, h1, failedUntil, failed, autonomous, LimitationState.isFallback]
    · by_cases h2 : cs.limitExpiry.any (· ≤ now) <;>
        by_cases h3 : reason = .uncontrolledLoads ∧ cs.config.onCem = false <;>
          simp [canon, interrupt, enter, hs, hh, h1, h2, h3, underLimit, withoutLimit,
            LimitationState.isFallback]
  · have hcanon : (cs.canon now).state ≠ .limited := fun he => hs (canon_limited he)
    simp [interrupt, hs, hcanon, canon_canon le_rfl]

end

end ControllableSystem

/-- The inputs of a system: every call but ticks and the taking back of acceptances. -/
def Op.isInput : Op → Bool
  | .timeout | .unstoredLimitWrite => false
  | _ => true

/-- The call meets a controlled state before its heartbeat timeout: a heartbeat strictly, any
call that ticks first at the deadline at the latest. -/
def Punctual (cs : ControllableSystem) (c : Call) : Prop :=
  cs.state.isControlled = true → ∀ hb ∈ cs.lastHeartbeat,
    (c.op = .heartbeat → c.now < hb + heartbeatTimeout) ∧
    (c.op.ticksFirst = true → c.now ≤ hb + heartbeatTimeout)

instance (cs : ControllableSystem) (c : Call) : Decidable (Punctual cs c) :=
  inferInstanceAs (Decidable (cs.state.isControlled = true → ∀ hb ∈ cs.lastHeartbeat, _ ∧ _))

theorem ready_of_effect {cs after : ControllableSystem} (hready : cs.Ready) {c : Call}
    {out : Option WriteOutcome} (hop : c.op ≠ .unstoredLimitWrite)
    (heffect : Effect cs c after out) : after.Ready := by
  have hticked : (c.ticked cs).Ready := by
    unfold Call.ticked
    split
    · exact hready.handleTimeout
    · exact hready
  have hevaluates : (c.ticked cs).Evaluates c.now → (c.ticked cs).lastHeartbeat.isSome = true := by
    rintro (hc | ⟨hb, hh, -⟩)
    · exact hticked.heard hc
    · exact Option.isSome_of_mem hh
  cases heffect with
  | heard hop => exact ⟨fun _ => rfl, hready.lasts⟩
  | accepted hop hgate hvalid =>
    exact ⟨fun _ => by simpa [ControllableSystem.accept] using hevaluates hgate,
      by simpa [ControllableSystem.accept] using hticked.lasts⟩
  | refused hop hgate hreason =>
    by_cases hc : (c.ticked cs).state.isControlled
    · exact ⟨fun _ => by simpa [ControllableSystem.refuse, hc] using hevaluates hgate,
        by simpa [ControllableSystem.refuse, hc] using hticked.lasts⟩
    · exact ⟨fun _ => by simpa [ControllableSystem.refuse, hc] using hevaluates hgate,
        by simpa [ControllableSystem.refuse, hc] using hticked.lasts⟩
  | ticked hout hbeat => exact hticked
  | configured hop hbeat hsequence hduration =>
    refine ⟨hticked.heard, ?_⟩
    have hmin : 0 < failsafeDurationMin := by decide
    have hlasts := hticked.lasts
    simp only
    omega
  | unstored hstored => exact absurd hstored hop
  | interrupted hop hlimited =>
    exact ⟨fun _ => by simpa using hready.heard (by rw [hlimited]; rfl),
      by simpa using hready.lasts⟩

theorem ready_step {cs : ControllableSystem} (hready : cs.Ready) {c : Call}
    (hop : c.op ≠ .unstoredLimitWrite) : (system.next cs c).Ready :=
  ready_of_effect hready hop (step_effect cs c)

/-- The answer to a write, with the state and the effective limit right after it. -/
abbrev Answer := WriteOutcome × LimitationState × EffectiveLimit

def answer (r : ControllableSystem × Option WriteOutcome) : Option Answer :=
  r.2.map fun outcome => (outcome, r.1.state, r.1.effectiveLimit)

def answers : ControllableSystem → List Call → List Answer
  | _, [] => []
  | cs, c :: calls => (answer (system.step cs c)).toList ++ answers (system.next cs c) calls

def canonicalAnswers : ControllableSystem → List Call → List Answer
  | _, [] => []
  | cs, c :: calls =>
    (answer (system.step (cs.canon c.now) c)).toList ++
      canonicalAnswers (system.next (cs.canon c.now) c) calls

theorem input_canon {cs : ControllableSystem} (hready : cs.Ready) {c : Call}
    (hinput : c.op.isInput = true) (htime : Punctual cs c) :
    answer (system.step cs c) = answer (system.step (cs.canon c.now) c) ∧
      (system.next cs c).canon c.now = (system.next (cs.canon c.now) c).canon c.now := by
  obtain ⟨op, now⟩ := c
  by_cases hticks : op.ticksFirst
  · obtain ⟨hout, halike⟩ :=
      ControllableSystem.write_alike hready (fun hc hb hh => (htime hc hb hh).2 hticks) hticks
    refine ⟨?_, halike.canon now⟩
    simp only [answer, hout, halike.state, halike.effectiveLimit]
  · cases op with
    | heartbeat =>
      exact ⟨rfl, ControllableSystem.onHeartbeat_canon hready
        fun hc hb hh => (htime hc hb hh).1 rfl⟩
    | interrupt reason => exact ⟨rfl, ControllableSystem.interrupt_canon hready reason⟩
    | unstoredLimitWrite => cases hinput
    | _ => simp [Op.ticksFirst] at hticks

theorem answers_eq_canonicalAnswers {calls : List Call} :
    ∀ {cs a : ControllableSystem} {last : Nat}, cs.Ready → cs.canon last = a.canon last →
      (∀ c ∈ calls, c.op.isInput = true ∨ c.op = .timeout) →
      (last :: calls.map Call.now).Pairwise (· ≤ ·) → system.Admits Punctual cs calls →
      answers cs calls = canonicalAnswers a (calls.filter (·.op.isInput)) := by
  induction calls with
  | nil => intros; rfl
  | cons c calls ih =>
    intro cs a last hready hcanon hops htimes hadmits
    obtain ⟨hle, htimes⟩ := List.pairwise_cons.mp htimes
    have hle : last ≤ c.now := hle _ (by simp)
    have hcanon : cs.canon c.now = a.canon c.now := by
      rw [← ControllableSystem.canon_canon hle, hcanon, ControllableSystem.canon_canon hle]
    have hrest : ∀ c' ∈ calls, c'.op.isInput = true ∨ c'.op = .timeout :=
      fun c' hc' => hops c' (by simp [hc'])
    rcases hops c (by simp) with hinput | htick
    · obtain ⟨hanswer, hnext⟩ := input_canon hready hinput hadmits.1
      have hstored : c.op ≠ .unstoredLimitWrite := by
        intro he
        simp [he, Op.isInput] at hinput
      rw [hcanon] at hanswer hnext
      simp only [answers, List.filter_cons, hinput, if_true,
        canonicalAnswers, hanswer]
      rw [ih (ready_step hready hstored) hnext hrest htimes hadmits.2]
    · have htimely : cs.InTime c.now := fun hc hb hh =>
        (hadmits.1 hc hb hh).2 (by simp [htick, Op.ticksFirst])
      have hnext : (system.next cs c).canon c.now = a.canon c.now := by
        obtain ⟨op, now⟩ := c
        subst htick
        exact (ControllableSystem.handleTimeout_canon hready htimely).trans hcanon
      have hsilent : answer (system.step cs c) = none := by
        obtain ⟨op, now⟩ := c
        subst htick
        rfl
      have hfilter : (c :: calls).filter (·.op.isInput) = calls.filter (·.op.isInput) := by
        simp [htick, Op.isInput]
      rw [hfilter, ← ih (ready_step hready (by simp [htick])) hnext hrest htimes hadmits.2]
      simp [answers, hsilent]

/-- Two ways of ticking between the same inputs give every write the same answer, and the same
state and effective limit after it, when no heartbeat timeout is met late. -/
theorem answers_independent_of_ticks (config : CsConfig) (start : Nat) (calls calls' : List Call)
    (hlasts : 0 < config.failsafeDuration)
    (hops : ∀ c ∈ calls ++ calls', c.op.isInput = true ∨ c.op = .timeout)
    (hinputs : calls.filter (·.op.isInput) = calls'.filter (·.op.isInput))
    (htimes : (start :: calls.map Call.now).Pairwise (· ≤ ·))
    (htimes' : (start :: calls'.map Call.now).Pairwise (· ≤ ·))
    (htimely : system.Admits Punctual (ControllableSystem.new config start) calls)
    (htimely' : system.Admits Punctual (ControllableSystem.new config start) calls') :
    answers (ControllableSystem.new config start) calls =
      answers (ControllableSystem.new config start) calls' := by
  have hready : (ControllableSystem.new config start).Ready :=
    ⟨by simp [ControllableSystem.new, LimitationState.isControlled], hlasts⟩
  calc answers (ControllableSystem.new config start) calls
      = canonicalAnswers (ControllableSystem.new config start) (calls.filter (·.op.isInput)) :=
        answers_eq_canonicalAnswers hready rfl (fun c hc => hops c (by simp [hc])) htimes htimely
    _ = canonicalAnswers (ControllableSystem.new config start) (calls'.filter (·.op.isInput)) := by
        rw [hinputs]
    _ = answers (ControllableSystem.new config start) calls' :=
        (answers_eq_canonicalAnswers hready rfl (fun c hc => hops c (by simp [hc])) htimes'
          htimely').symm

/-- Ticks between a heartbeat, a limit and a failsafe write, none of them past a timeout. -/
theorem answers_independent_of_ticks_prompt :
    let cs := ControllableSystem.new (CsConfig.new ⟨0x40b0680000000000⟩ (fromSecs 7200)) 0
    let write : Op := .limitWrite (.active ⟨0x40a7700000000000⟩) .apply
    let failsafe : Op := .failsafeLimitWrite ⟨0x40a7700000000000⟩
    answers cs [⟨.heartbeat, 0⟩, ⟨write, fromSecs 1⟩, ⟨failsafe, fromSecs 120⟩] =
      answers cs [⟨.heartbeat, 0⟩, ⟨.timeout, 1⟩, ⟨write, fromSecs 1⟩, ⟨.timeout, fromSecs 120⟩,
        ⟨failsafe, fromSecs 120⟩] :=
  answers_independent_of_ticks _ _ _ _ (by decide) (by decide) (by decide) (by decide) (by decide)
    (by decide +kernel) (by decide +kernel)

/-- A limited system, a heartbeat one second after its timeout, and a failsafe write. -/
def lateHeartbeat : List Call :=
  [⟨.heartbeat, 0⟩, ⟨.limitWrite (.active ⟨0x40a7700000000000⟩) .apply, fromSecs 1⟩,
    ⟨.heartbeat, fromSecs 121⟩, ⟨.failsafeLimitWrite ⟨0x40a7700000000000⟩, fromSecs 122⟩]

/-- The same calls with a tick at the timeout itself. -/
def lateHeartbeatTicked : List Call :=
  [⟨.heartbeat, 0⟩, ⟨.limitWrite (.active ⟨0x40a7700000000000⟩) .apply, fromSecs 1⟩,
    ⟨.timeout, fromSecs 120⟩,
    ⟨.heartbeat, fromSecs 121⟩, ⟨.failsafeLimitWrite ⟨0x40a7700000000000⟩, fromSecs 122⟩]

/-- One tick decides whether the failsafe write is accepted or the sequence is incomplete. -/
theorem late_heartbeat_answers_differ :
    let cs := ControllableSystem.new (CsConfig.new ⟨0x40b0680000000000⟩ (fromSecs 7200)) 0
    lateHeartbeat.filter (·.op.isInput) = lateHeartbeatTicked.filter (·.op.isInput) ∧
      (0 :: lateHeartbeat.map Call.now).Pairwise (· ≤ ·) ∧
      (0 :: lateHeartbeatTicked.map Call.now).Pairwise (· ≤ ·) ∧
      answers cs lateHeartbeat ≠ answers cs lateHeartbeatTicked := by
  decide +kernel

end Eebus.Limitation
