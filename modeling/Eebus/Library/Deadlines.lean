import Eebus.Library.Machine

/-!
Things that say when they want to be woken next. A caller with nothing else to do waits for the deadline,
wakes them at it, and asks again.
-/

namespace Eebus.Library

/-- When a state wants to be woken next, and what waking it at a time does. -/
structure Alarm (σ : Type*) where
  due : σ → Option Nat
  wake : σ → Nat → σ

theorem min?_cons_toList {a t : Nat} {o : Option Nat} (h : (a :: o.toList).min? = some t) :
    t = a ∧ (∀ b ∈ o, t ≤ b) ∨ t < a ∧ o = some t := by
  cases o with
  | none => exact .inl ⟨(Option.some.inj h).symm, nofun⟩
  | some b =>
    have hmin : min a b = t := Option.some.inj h
    by_cases hsooner : b < a
    · exact .inr ⟨by omega, congrArg some (by omega)⟩
    · refine .inl ⟨by omega, fun c hc => ?_⟩
      obtain rfl := Option.some.inj hc
      omega

namespace Alarm

variable {σ φ : Type*} (A : Alarm σ)

/-- Waits for the deadline and wakes at it; without one there is nothing to wait for. -/
def wait (s : σ) : σ :=
  match A.due s with
  | some t => A.wake s t
  | none => s

theorem wait_of_due {A : Alarm σ} {s : σ} {t : Nat} (h : A.due s = some t) : A.wait s = A.wake s t := by
  rw [wait, h]

theorem due_iterate_of_unmoved {A : Alarm σ} (h : ∀ s t, A.due (A.wake s t) = A.due s) (s : σ) (n : Nat) :
    A.due (A.wait^[n] s) = A.due s := by
  induction n with
  | zero => rfl
  | succ n ih =>
    rw [Function.iterate_succ_apply', ← ih]
    cases hdue : A.due (A.wait^[n] s) with
    | none => rw [wait, hdue, hdue]
    | some t => rw [wait_of_due hdue, h, hdue]

/-- Waking at the deadline leaves none, or a later one. -/
def Advances (s : σ) : Prop := ∀ t, A.due s = some t → ∀ t', A.due (A.wake s t) = some t' → t < t'

/-- What a watchdog owes a caller that waits on its deadline: the next deadline is later, the waiting
ends, and at the deadline the loss is in force. -/
structure Stops (lost : σ → Nat → Prop) (s : σ) : Prop where
  advances : A.Advances s
  ends : ∃ n, A.due (A.wait^[n] s) = none
  lost : ∀ t, A.due s = some t → lost (A.wake s t) t

theorem stops_iff_of_unmoved {A : Alarm σ} {lost : σ → Nat → Prop}
    (hunmoved : ∀ s t, A.due (A.wake s t) = A.due s) {s : σ} : A.Stops lost s ↔ A.due s = none := by
  constructor
  · intro hstops
    by_contra hdue
    obtain ⟨t, ht⟩ := Option.ne_none_iff_exists'.mp hdue
    exact Nat.lt_irrefl t (hstops.advances t ht t (hunmoved s t ▸ ht))
  · intro hdue
    exact ⟨fun t ht => by simp [hdue] at ht, ⟨0, hdue⟩, fun t ht => by simp [hdue] at ht⟩

end Alarm

structure FallibleAlarm (σ ε : Type*) where
  due : σ → Except ε (Option Nat)
  wake : σ → Nat → σ

namespace FallibleAlarm

variable {σ ε φ : Type*} (A : FallibleAlarm σ ε)

/-- Asks for the deadline, waits for it and wakes at it. -/
def wait (s : σ) : Except ε σ :=
  match A.due s with
  | .ok (some t) => .ok (A.wake s t)
  | .ok none => .ok s
  | .error e => .error e

def waits : Nat → σ → Except ε σ
  | 0, s => .ok s
  | n + 1, s => do
    let s ← A.wait s
    waits n s

/-- Waiting on the deadlines is enough: only at rest there is none, each is followed by another phase or
a later one, and finitely many lead to rest. -/
structure Sufficient (phase : σ → φ) (rest : φ) (s : σ) : Prop where
  none_iff : A.due s = .ok none ↔ phase s = rest
  moves : phase s ≠ rest → ∃ t, A.due s = .ok (some t) ∧
    (phase (A.wake s t) ≠ phase s ∨ ∃ t', A.due (A.wake s t) = .ok (some t') ∧ t < t')
  ends : ∃ n s', A.waits n s = .ok s' ∧ phase s' = rest

theorem not_sufficient_of_error {A : FallibleAlarm σ ε} {phase : σ → φ} {rest : φ} {s : σ} {e : ε}
    (hdue : A.due s = .error e) : ¬A.Sufficient phase rest s := by
  intro h
  by_cases hrest : phase s = rest
  · cases hdue.symm.trans (h.none_iff.mpr hrest)
  · obtain ⟨t, ht, -⟩ := h.moves hrest
    cases hdue.symm.trans ht

/-- What makes waiting enough: `Fits` says that the deadline can be told, now and wherever waiting leads, and
every time the alarm goes off a rank becomes lower. -/
structure Descends (phase : σ → φ) (rest : φ) (rank : σ → Nat) (Fits : σ → Prop) : Prop where
  none_iff (s : σ) : A.due s = .ok none ↔ phase s = rest
  resting (s : σ) : phase s = rest → Fits s
  fits (s : σ) : phase s ≠ rest → (Fits s ↔ ∃ t, A.due s = .ok (some t) ∧ Fits (A.wake s t))
  lowers (s : σ) (t : Nat) : A.due s = .ok (some t) → rank (A.wake s t) < rank s
  moves (s : σ) (t : Nat) : A.due s = .ok (some t) →
    phase (A.wake s t) ≠ phase s ∨ ∃ t', A.due (A.wake s t) = .ok (some t') ∧ t < t'

namespace Descends

variable {A : FallibleAlarm σ ε} {phase : σ → φ} {rest : φ} {rank : σ → Nat} {Fits : σ → Prop}

theorem fits_of_wait (h : A.Descends phase rest rank Fits) {s s' : σ} (hwait : A.wait s = .ok s')
    (hfits : Fits s') : Fits s := by
  by_cases hrest : phase s = rest
  · exact h.resting s hrest
  rw [wait] at hwait
  split at hwait
  case h_1 t hdue =>
    obtain rfl := Except.ok.inj hwait
    exact (h.fits s hrest).mpr ⟨t, hdue, hfits⟩
  case h_2 hnone => exact absurd ((h.none_iff s).mp hnone) hrest
  case h_3 => cases hwait

theorem fits_of_waits (h : A.Descends phase rest rank Fits) {n : Nat} {s s' : σ}
    (hwaits : A.waits n s = .ok s') (hrest : phase s' = rest) : Fits s := by
  induction n generalizing s with
  | zero =>
    obtain rfl := Except.ok.inj hwaits
    exact h.resting s hrest
  | succ n ih =>
    rw [waits] at hwaits
    cases hwait : A.wait s with
    | error e =>
      rw [hwait] at hwaits
      cases hwaits
    | ok next =>
      rw [hwait] at hwaits
      exact h.fits_of_wait hwait (ih hwaits)

theorem ends (h : A.Descends phase rest rank Fits) (s : σ) (hfits : Fits s) :
    ∃ n s', A.waits n s = .ok s' ∧ phase s' = rest := by
  induction hrank : rank s using Nat.strong_induction_on generalizing s with
  | _ r ih =>
    by_cases hrest : phase s = rest
    · exact ⟨0, s, rfl, hrest⟩
    obtain ⟨t, hdue, hnext⟩ := (h.fits s hrest).mp hfits
    obtain ⟨n, s', hwaits, hrest'⟩ := ih _ (hrank ▸ h.lowers s t hdue) (A.wake s t) hnext rfl
    refine ⟨n + 1, s', ?_, hrest'⟩
    rw [waits, wait, hdue]
    exact hwaits

theorem sufficient_iff (h : A.Descends phase rest rank Fits) (s : σ) : A.Sufficient phase rest s ↔ Fits s := by
  constructor
  · rintro ⟨-, -, n, s', hwaits, hrest⟩
    exact h.fits_of_waits hwaits hrest
  · intro hfits
    refine ⟨h.none_iff s, fun hrest => ?_, h.ends s hfits⟩
    obtain ⟨t, hdue, -⟩ := (h.fits s hrest).mp hfits
    exact ⟨t, hdue, h.moves s t hdue⟩

end Descends

end FallibleAlarm

end Eebus.Library
