import Mathlib.Algebra.Order.Ring.Int
import Mathlib.Algebra.Order.SuccPred
import Mathlib.Data.Int.ConditionallyCompleteOrder
import Mathlib.Data.Int.SuccPred
import Mathlib.Order.SuccPred.Archimedean
import Mathlib.Tactic.IntervalCases

/-!
The proleptic Gregorian calendar over all years. A date is a day that exists, and its number counts the
days from 1970-01-01.
-/

namespace Eebus.Library.Gregorian

def IsLeap (year : Int) : Prop := year % 4 = 0 ∧ (year % 100 ≠ 0 ∨ year % 400 = 0)

instance (year : Int) : Decidable (IsLeap year) :=
  inferInstanceAs (Decidable (_ ∧ _))

def monthLength (year : Int) : Nat → Nat
  | 1 | 3 | 5 | 7 | 8 | 10 | 12 => 31
  | 4 | 6 | 9 | 11 => 30
  | 2 => if IsLeap year then 29 else 28
  | _ => 0

theorem one_le_monthLength (year : Int) {month : Nat} (hpos : 1 ≤ month) (hle : month ≤ 12) :
    1 ≤ monthLength year month := by
  interval_cases month <;> simp only [monthLength] <;> first | omega | (split <;> omega)

@[ext]
structure Date where
  year : Int
  month : Nat
  day : Nat
  one_le_month : 1 ≤ month
  month_le : month ≤ 12
  one_le_day : 1 ≤ day
  day_le : day ≤ monthLength year month
deriving DecidableEq

/-- The days of all years from the first one on that are over when a year begins. -/
def daysBeforeYear (year : Int) : Int :=
  365 * (year - 1) + (year - 1) / 4 - (year - 1) / 100 + (year - 1) / 400

/-- The days of a year that are over when a month begins. -/
def daysBeforeMonth (year : Int) : Nat → Nat
  | 0 => 0
  | month + 1 => daysBeforeMonth year month + monthLength year month

theorem daysBeforeMonth_succ (year : Int) (month : Nat) :
    daysBeforeMonth year (month + 1) = daysBeforeMonth year month + monthLength year month := rfl

def yearLength (year : Int) : Nat := if IsLeap year then 366 else 365

theorem daysBeforeYear_succ (year : Int) :
    daysBeforeYear (year + 1) = daysBeforeYear year + yearLength year := by
  unfold daysBeforeYear yearLength
  split
  case isTrue h =>
    unfold IsLeap at h
    omega
  case isFalse h =>
    unfold IsLeap at h
    omega

theorem daysBeforeMonth_thirteen (year : Int) : daysBeforeMonth year 13 = yearLength year := by
  simp only [daysBeforeMonth, monthLength, yearLength]
  split <;> rfl

theorem daysBeforeYear_strictMono : StrictMono daysBeforeYear := by
  refine strictMono_int_of_lt_succ fun year => ?_
  rw [daysBeforeYear_succ]
  unfold yearLength
  split <;> omega

theorem daysBeforeMonth_mono (year : Int) : Monotone (daysBeforeMonth year) :=
  monotone_nat_of_le_succ fun _ => Nat.le_add_right _ _

theorem step_unique {ι α : Type*} [LinearOrder ι] [Add ι] [One ι] [SuccAddOrder ι] [Preorder α] {f : ι → α}
    (hf : Monotone f) {i j : ι} {x : α} (hi : f i ≤ x) (hi' : x < f (i + 1)) (hj : f j ≤ x)
    (hj' : x < f (j + 1)) : i = j := by
  by_contra hne
  cases lt_or_gt_of_ne hne with
  | inl hlt => exact absurd (hi'.trans_le (hf (Order.add_one_le_of_lt hlt))) hj.not_gt
  | inr hgt => exact absurd (hj'.trans_le (hf (Order.add_one_le_of_lt hgt))) hi.not_gt

namespace Date

def number (date : Date) : Int :=
  daysBeforeYear date.year + daysBeforeMonth date.year date.month + (date.day - 1) - 719162

example : number ⟨1970, 1, 1, by decide, by decide, by decide, by decide⟩ = 0 := by decide

def next (date : Date) : Date :=
  if hday : date.day < monthLength date.year date.month then
    ⟨date.year, date.month, date.day + 1, date.one_le_month, date.month_le, by omega, hday⟩
  else if hmonth : date.month < 12 then
    ⟨date.year, date.month + 1, 1, by omega, hmonth, le_refl 1, one_le_monthLength _ (by omega) hmonth⟩
  else ⟨date.year + 1, 1, 1, le_refl 1, by omega, le_refl 1, one_le_monthLength _ (by omega) (by omega)⟩

theorem number_next (date : Date) : date.next.number = date.number + 1 := by
  obtain ⟨year, month, day, hmonth, hmonth', hday, hday'⟩ := date
  unfold next
  dsimp only at *
  split
  case isTrue => simp only [number]; omega
  case isFalse hlast =>
    split
    case isTrue => simp only [number, daysBeforeMonth_succ]; omega
    case isFalse hdecember =>
      obtain rfl : month = 12 := by omega
      have hyear : daysBeforeMonth year 12 + monthLength year 12 = yearLength year :=
        daysBeforeMonth_thirteen year
      have hjanuary : daysBeforeMonth (year + 1) 1 = 0 := rfl
      simp only [number, daysBeforeYear_succ, hjanuary]
      omega

theorem number_mem_year (date : Date) : daysBeforeYear date.year ≤ date.number + 719162 ∧
      date.number + 719162 < daysBeforeYear (date.year + 1) := by
  have hmonth : daysBeforeMonth date.year (date.month + 1) ≤ daysBeforeMonth date.year 13 :=
    daysBeforeMonth_mono date.year (by have := date.month_le; omega)
  rw [daysBeforeMonth_thirteen, daysBeforeMonth_succ] at hmonth
  have hday := date.one_le_day
  have hday' := date.day_le
  rw [daysBeforeYear_succ, number]
  omega

theorem number_injective : Function.Injective number := by
  intro date date' h
  have hyear : date.year = date'.year := by
    have hmem := number_mem_year date
    have hmem' := number_mem_year date'
    rw [← h] at hmem'
    exact step_unique daysBeforeYear_strictMono.monotone hmem.1 hmem.2 hmem'.1 hmem'.2
  obtain ⟨year, month, day, hmonth, hmonth', hday, hday'⟩ := date
  obtain ⟨year', month', day', hpos, hle, hone, hlength⟩ := date'
  obtain rfl : year = year' := hyear
  simp only [number] at h
  have hmonths : month = month' := by
    refine step_unique (daysBeforeMonth_mono year) (x := daysBeforeMonth year month + (day - 1)) ?_ ?_ ?_ ?_
    · omega
    · rw [daysBeforeMonth_succ]
      omega
    · omega
    · rw [daysBeforeMonth_succ]
      omega
  obtain rfl := hmonths
  obtain rfl : day = day' := by omega
  rfl

end Date

end Eebus.Library.Gregorian
