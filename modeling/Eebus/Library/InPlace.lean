import Mathlib.Data.List.Basic

/-! Fallible steps run in place. A single step that fails leaves its state alone; a sequence
that fails keeps what the steps before the failing one did. -/

namespace Eebus.Library

universe u v w
variable {σ : Type u} {ε : Type v} {ι : Type w}

/-- Runs the steps in order, stopping at the first error with the state reached so far. -/
def runSteps (step : ι → σ → Except ε σ) : List ι → σ → σ × Except ε Unit
  | [], s => (s, .ok ())
  | i :: is, s =>
    match step i s with
    | .ok s' => runSteps step is s'
    | .error e => (s, .error e)

/-- Steps whose refusal does not depend on the state (among the states of `Inv`), and each of
which either leaves the state as it is or makes it smaller. -/
structure Shrinking (step : ι → σ → Except ε σ) (Inv : σ → Prop) (servable : ι → Bool)
    (size : σ → Nat) : Prop where
  serves : ∀ i s, Inv s → servable i = true →
    ∃ s', step i s = .ok s' ∧ Inv s' ∧ (s' = s ∨ size s' < size s)
  refuses : ∀ i s, Inv s → servable i = false → ∃ e, step i s = .error e

variable {step : ι → σ → Except ε σ} {Inv : σ → Prop} {servable : ι → Bool} {size : σ → Nat}

theorem runSteps_append (is js : List ι) (s : σ) :
    runSteps step (is ++ js) s =
      match runSteps step is s with
      | (s', .ok ()) => runSteps step js s'
      | (s', .error e) => (s', .error e) := by
  induction is generalizing s with
  | nil => simp [runSteps]
  | cons i is ih =>
    cases hi : step i s with
    | ok s' => simp [runSteps, hi, ih s']
    | error e => simp [runSteps, hi]

theorem runSteps_preserves {R : σ → σ → Prop} (hrefl : ∀ s, R s s)
    (htrans : ∀ s t u, R s t → R t u → R s u) (hstep : ∀ i s s', step i s = .ok s' → R s s')
    (is : List ι) (s : σ) : R s (runSteps step is s).1 := by
  induction is generalizing s with
  | nil => exact hrefl s
  | cons i is ih =>
    cases hi : step i s with
    | ok s' =>
      simp only [runSteps, hi]
      exact htrans s s' _ (hstep i s s' hi) (ih s')
    | error e =>
      simp only [runSteps, hi]
      exact hrefl s

theorem Shrinking.run_size_le (h : Shrinking step Inv servable size) (is : List ι) (s : σ)
    (hs : Inv s) : Inv (runSteps step is s).1 ∧ size (runSteps step is s).1 ≤ size s := by
  induction is generalizing s with
  | nil => exact ⟨hs, Nat.le_refl _⟩
  | cons i is ih =>
    cases hi : servable i with
    | false =>
      obtain ⟨e, he⟩ := h.refuses i s hs hi
      simp only [runSteps, he]
      exact ⟨hs, Nat.le_refl _⟩
    | true =>
      obtain ⟨s', he, hs', hsize⟩ := h.serves i s hs hi
      simp only [runSteps, he]
      obtain ⟨hinv, hle⟩ := ih s' hs'
      refine ⟨hinv, ?_⟩
      cases hsize with
      | inl heq => rw [heq] at hle ⊢; exact hle
      | inr hlt => omega

theorem Shrinking.run_ok_iff (h : Shrinking step Inv servable size) (is : List ι) (s : σ)
    (hs : Inv s) : (runSteps step is s).2 = .ok () ↔ ∀ i ∈ is, servable i = true := by
  induction is generalizing s with
  | nil => simp [runSteps]
  | cons i is ih =>
    cases hi : servable i with
    | false =>
      obtain ⟨e, he⟩ := h.refuses i s hs hi
      simp [runSteps, he, hi]
    | true =>
      obtain ⟨s', he, hs', -⟩ := h.serves i s hs hi
      simp [runSteps, he, hi, ih s' hs']

/-- A run leaves the state as it found it exactly when none of the steps before the first
refused one moves that state: what a step has made smaller no later step restores. -/
theorem Shrinking.run_unchanged_iff (h : Shrinking step Inv servable size) (is : List ι) (s : σ)
    (hs : Inv s) :
    (runSteps step is s).1 = s ↔ ∀ i ∈ is.takeWhile servable, step i s = .ok s := by
  induction is with
  | nil => simp [runSteps]
  | cons i is ih =>
    cases hi : servable i with
    | false =>
      obtain ⟨e, he⟩ := h.refuses i s hs hi
      simp [runSteps, he, hi]
    | true =>
      obtain ⟨s', he, hs', hsize⟩ := h.serves i s hs hi
      by_cases heq : s' = s
      · rw [heq] at he
        simp [runSteps, he, hi, ih]
      · have hlt : size s' < size s := hsize.resolve_left heq
        have hle := (h.run_size_le is s' hs').2
        simp only [runSteps, he, List.takeWhile_cons, hi, if_true, List.mem_cons, forall_eq_or_imp,
          Except.ok.injEq, heq, false_and, iff_false]
        intro hback
        rw [hback] at hle
        omega

end Eebus.Library
