import Mathlib.Data.List.Basic

/-! Computations that may fail: when a sequence of them succeeds, and what a loop of them comes to. -/

namespace Eebus.Library

variable {ε α β σ : Type}

theorem bind_eq_ok_iff {x : Except ε α} {f : α → Except ε β} {b : β} :
    x >>= f = .ok b ↔ ∃ a, x = .ok a ∧ f a = .ok b := by
  cases x with
  | error e =>
    constructor
    · intro h
      cases h
    · rintro ⟨a, h, -⟩
      cases h
  | ok a =>
    refine ⟨fun h => ⟨a, rfl, h⟩, ?_⟩
    rintro ⟨a', ⟨⟩, h⟩
    exact h

/-- A loop whose turns treat the components of the state each on its own comes to what the components come to,
each with the turns that concern it. -/
theorem foldlM_components {ι : Type} {S : ι → Type} {f : (∀ i, S i) → α → Except ε (∀ i, S i)} {p : ι → α → Bool}
    {g : ∀ i, S i → α → Except ε (S i)}
    (hf : ∀ s a s', f s a = .ok s' ↔ ∀ i, (if p i a then g i (s i) a else .ok (s i)) = .ok (s' i))
    (l : List α) (s s' : ∀ i, S i) :
    l.foldlM f s = .ok s' ↔ ∀ i, (l.filter (p i)).foldlM (g i) (s i) = .ok (s' i) := by
  induction l generalizing s with
  | nil => exact ⟨fun h i => congrArg Except.ok (congrFun (Except.ok.inj h) i),
      fun h => congrArg Except.ok (funext fun i => Except.ok.inj (h i))⟩
  | cons a l ih =>
    have hturn : ∀ i, ((a :: l).filter (p i)).foldlM (g i) (s i) = .ok (s' i) ↔
        ∃ x, (if p i a then g i (s i) a else .ok (s i)) = .ok x ∧ (l.filter (p i)).foldlM (g i) x = .ok (s' i) := by
      intro i
      rw [← bind_eq_ok_iff]
      by_cases ha : p i a = true
      · rw [List.filter_cons_of_pos ha, List.foldlM_cons, if_pos ha]
      · rw [List.filter_cons_of_neg ha, if_neg ha]
        rfl
    rw [List.foldlM_cons, bind_eq_ok_iff, forall_congr' hturn, Classical.skolem]
    refine exists_congr fun t => ?_
    rw [hf, ih, forall_and]

theorem mapM_eq_self_iff (f : α → Except ε α) (l : List α) : l.mapM f = .ok l ↔ ∀ a ∈ l, f a = .ok a := by
  induction l with
  | nil => exact ⟨fun _ a ha => absurd ha List.not_mem_nil, fun _ => rfl⟩
  | cons a l ih =>
    rw [List.mapM_cons, List.forall_mem_cons, ← ih]
    simp only [bind_eq_ok_iff]
    constructor
    · rintro ⟨b, hb, bs, hbs, hsame⟩
      obtain ⟨rfl, rfl⟩ := List.cons.inj (Except.ok.inj hsame)
      exact ⟨hb, hbs⟩
    · exact fun h => ⟨a, h.1, l, h.2, rfl⟩

end Eebus.Library
