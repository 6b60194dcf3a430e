import Mathlib.Algebra.GroupWithZero.Nat
import Mathlib.Data.Nat.Basic

/-!
Lengths of time and monotonic instants are natural numbers of nanoseconds: subtraction on the
naturals is the saturating subtraction of the clock arithmetic. An addition is not checked there:
it has to stay within what a `Duration` holds.
-/

namespace Eebus.Library

def fromSecs (seconds : Nat) : Nat := seconds * 1000000000

/-- The largest `Duration`: `u64::MAX` seconds and 999 999 999 nanoseconds. -/
def durationMax : Nat := fromSecs (2 ^ 64) - 1

/-- A span that may be added to every instant up to the horizon. -/
def Addable (horizon span : Nat) : Prop := horizon + span ≤ durationMax

instance (horizon span : Nat) : Decidable (Addable horizon span) :=
  inferInstanceAs (Decidable (horizon + span ≤ durationMax))

theorem Addable.sum_le {horizon span now : Nat} (h : Addable horizon span) (hnow : now ≤ horizon) :
    now + span ≤ durationMax := by
  unfold Addable at h
  omega

theorem Addable.of_le {horizon span span' : Nat} (h : Addable horizon span) (hle : span' ≤ span) :
    Addable horizon span' := by
  unfold Addable at h ⊢
  omega

/-- A sum that is longer than the longest `Duration`. -/
inductive Overflow
  | overflow
deriving DecidableEq

/-- The sum of two `Duration`s. One that is too long is a panic. -/
def addDurations (a b : Nat) : Except Overflow Nat :=
  if Addable a b then .ok (a + b) else .error .overflow

theorem addDurations_eq_ok_iff {a b sum : Nat} : addDurations a b = .ok sum ↔ Addable a b ∧ a + b = sum := by
  unfold addDurations
  split
  case isTrue h => simp [h]
  case isFalse h => simp [h]

end Eebus.Library
