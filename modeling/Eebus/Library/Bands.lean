import Mathlib.Order.MinMax

/-! Holding values inside bands, and the band several bands have in common. -/

namespace Eebus.Library

variable {α : Type*}

section Definitions

variable [LE α] [DecidableLE α] [LT α] [DecidableLT α] [Min α] [Max α]

/-- Holds a value between two bounds. Bounds the wrong way round have no answer. -/
def clamp (value lo hi : α) : Option α :=
  if lo ≤ hi then
    let value := if value < lo then lo else value
    some (if hi < value then hi else value)
  else none

abbrev Band (α : Type*) := α × α

def Band.ordered (lo hi : α) : Band α := (min lo hi, max hi lo)

/-- The highest lower bound with the lowest upper bound. -/
def narrow : List (Band α) → Option (Band α)
  | [] => none
  | first :: rest =>
    some (rest.foldl (fun band next => (max band.1 next.1, min band.2 next.2)) first)

end Definitions

def Band.Holds [LE α] (band : Band α) (value : α) : Prop := band.1 ≤ value ∧ value ≤ band.2

instance [LE α] [DecidableLE α] (band : Band α) (value : α) : Decidable (band.Holds value) :=
  inferInstanceAs (Decidable (_ ∧ _))

section Order

variable [LinearOrder α] {value lo hi : α}

theorem clamp_isSome : (clamp value lo hi).isSome = true ↔ lo ≤ hi := by
  unfold clamp
  split <;> simp_all

theorem clamp_holds {held : α} (h : clamp value lo hi = some held) :
    Band.Holds (lo, hi) held := by
  unfold clamp at h
  split at h
  case isFalse => cases h
  case isTrue hle =>
    cases Option.some.inj h
    by_cases hlow : value < lo
    · simpa [Band.Holds, hlow, hle.not_gt] using hle
    by_cases hhigh : hi < value
    · simpa [Band.Holds, hlow, hhigh] using hle
    · simpa [Band.Holds, hlow, hhigh] using ⟨not_lt.mp hlow, not_lt.mp hhigh⟩

theorem Band.ordered_le (lo hi : α) : (Band.ordered lo hi).1 ≤ (Band.ordered lo hi).2 :=
  le_trans (min_le_left lo hi) (le_max_right hi lo)

theorem narrow_holds {bands : List (Band α)} {band : Band α} (h : narrow bands = some band) :
    band.Holds value ↔ ∀ b ∈ bands, Band.Holds b value := by
  cases bands with
  | nil => cases h
  | cons first rest =>
    cases Option.some.inj h
    induction rest generalizing first with
    | nil => simp
    | cons next rest ih =>
      rw [List.foldl_cons, ih _ rfl]
      simp only [List.mem_cons, forall_eq_or_imp, Band.Holds, max_le_iff, le_min_iff]
      constructor
      · rintro ⟨⟨⟨hfl, hnl⟩, hfh, hnh⟩, hrest⟩
        exact ⟨⟨hfl, hfh⟩, ⟨hnl, hnh⟩, hrest⟩
      · rintro ⟨⟨hfl, hfh⟩, ⟨hnl, hnh⟩, hrest⟩
        exact ⟨⟨⟨hfl, hnl⟩, hfh, hnh⟩, hrest⟩

theorem narrow_le {bands : List (Band α)} {band : Band α} (h : narrow bands = some band) :
    band.1 ≤ band.2 ↔ ∃ v, ∀ b ∈ bands, Band.Holds b v := by
  constructor
  · intro hle
    exact ⟨band.1, (narrow_holds h).mp ⟨le_refl _, hle⟩⟩
  · rintro ⟨v, hv⟩
    have hheld := (narrow_holds h).mpr hv
    exact le_trans hheld.1 hheld.2

end Order

end Eebus.Library
