import Mathlib.Data.BitVec

/-! A window of numbers remembered below a moving top, one bit each: bit `i` stands for the number
`top - 1 - i`. -/

namespace Eebus.Library

variable {w : Nat}

def remembers (seen : BitVec w) (top n : Nat) : Bool :=
  decide (n < top) && seen.getLsbD (top - n - 1)

theorem remembers_bounds {seen : BitVec w} {top n : Nat} (h : remembers seen top n = true) :
    n < top ∧ top ≤ n + w := by
  simp only [remembers, Bool.and_eq_true, decide_eq_true_eq] at h
  have hbit : top - n - 1 < w := by
    by_contra hge
    rw [BitVec.getLsbD_of_ge _ _ (by omega)] at h
    simp at h
  omega

@[simp]
theorem remembers_zero (top n : Nat) : remembers (0#w) top n = false := by
  simp [remembers]

theorem remembers_mark (seen : BitVec w) {top n : Nat} (hn : n < top) (hw : top ≤ n + w)
    (m : Nat) :
    remembers (seen ||| 1#w <<< (top - n - 1)) top m = (remembers seen top m || m == n) := by
  by_cases hm : m < top
  · have hbit : (1#w <<< (top - n - 1)).getLsbD (top - m - 1) = (m == n) := by
      rw [BitVec.getLsbD_shiftLeft, BitVec.getLsbD_one]
      by_cases heq : m = n
      · subst heq
        simp
        omega
      · have hne : (m == n) = false := by simpa using heq
        rw [hne]
        simp
        omega
    simp [remembers, hm, hbit]
  · have hne : (m == n) = false := by
      simp
      omega
    simp [remembers, hm, hne]

theorem and_mark_ne_zero_iff (seen : BitVec w) {top n : Nat} (hn : n < top) (hw : top ≤ n + w) :
    seen &&& 1#w <<< (top - n - 1) ≠ 0#w ↔ remembers seen top n = true := by
  constructor
  · intro hne
    by_contra hnot
    have hbit : seen.getLsbD (top - n - 1) = false := by simpa [remembers, hn] using hnot
    apply hne
    apply BitVec.eq_of_getLsbD_eq
    intro i hi
    rw [BitVec.getLsbD_and, BitVec.getLsbD_shiftLeft, BitVec.getLsbD_one, BitVec.getLsbD_zero]
    by_cases hat : i = top - n - 1
    · simp [hat, hbit]
    · simp
      omega
  · intro hmem hzero
    have hbit : seen.getLsbD (top - n - 1) = true := by simpa [remembers, hn] using hmem
    have hget : (seen &&& 1#w <<< (top - n - 1)).getLsbD (top - n - 1) = true := by
      rw [BitVec.getLsbD_and, BitVec.getLsbD_shiftLeft, BitVec.getLsbD_one, hbit]
      simp
      omega
    rw [hzero] at hget
    simp at hget

/-- Moving the top forward by less than the window's width keeps what is still inside, and the old
top becomes a member. -/
theorem remembers_advance (seen : BitVec w) (top : Nat) {ahead : Nat} (ha : 0 < ahead)
    (hw : ahead < w) (m : Nat) :
    remembers (seen <<< ahead ||| 1#w <<< (ahead - 1)) (top + ahead) m =
      (decide (top + ahead ≤ m + w) && (remembers seen top m || m == top)) := by
  by_cases hin : m < top + ahead ∧ top + ahead ≤ m + w
  · obtain ⟨hlt, hge⟩ := hin
    simp only [remembers, hlt, hge, BitVec.getLsbD_or, BitVec.getLsbD_shiftLeft,
      BitVec.getLsbD_one, decide_true, Bool.true_and]
    rcases Nat.lt_trichotomy m top with hm | rfl | hm
    · have hidx : top + ahead - m - 1 - ahead = top - m - 1 := by omega
      have hne : (m == top) = false := by simpa using Nat.ne_of_lt hm
      have hone : ¬ (top + ahead - m - 1 - (ahead - 1) = 0) := by omega
      simp [hidx, hm, hne, hone, show top + ahead - m - 1 < w by omega,
        show ¬ (top + ahead - m - 1 < ahead) by omega]
    · simp [show ahead - 1 < w by omega,
        show 0 < w by omega]
    · have hne : (m == top) = false := by simpa using (Nat.ne_of_lt hm).symm
      simp [hne, show ¬ m < top by omega, show top + ahead - m - 1 < ahead by omega,
        show top + ahead - m - 1 < ahead - 1 by omega]
  · rw [not_and_or] at hin
    have hleft : ∀ s : BitVec w, remembers s (top + ahead) m = false := by
      intro s
      by_contra h
      have := remembers_bounds (Bool.eq_true_of_not_eq_false h)
      omega
    rw [hleft]
    symm
    by_contra h
    have h := Bool.eq_true_of_not_eq_false h
    simp only [Bool.and_eq_true, decide_eq_true_eq, Bool.or_eq_true, beq_iff_eq] at h
    obtain ⟨hge, hmem | rfl⟩ := h
    · have := remembers_bounds hmem
      omega
    · omega

end Eebus.Library
