import Eebus.Library.Gregorian
import Mathlib.Tactic.NormNum

/-! Calendar arithmetic, as the timestamps need it: `days_from_civil`, its inverse, and Unix seconds. -/

namespace Eebus.Model

open Eebus.Library.Gregorian

def asI32 (x : Int) : Int := (x + 2 ^ 31) % 2 ^ 32 - 2 ^ 31

def asU8 (x : Int) : Nat := (x % 2 ^ 8).toNat

def InI32 (x : Int) : Prop := -2 ^ 31 ≤ x ∧ x < 2 ^ 31

instance (x : Int) : Decidable (InI32 x) := inferInstanceAs (Decidable (_ ∧ _))

theorem asU8_of_lt {n : Nat} (h : n < 256) : asU8 n = n := by
  unfold asU8
  omega

theorem asI32_of_inI32 {x : Int} (h : InI32 x) : asI32 x = x := by
  unfold InI32 at h
  unfold asI32
  omega

def isLeapYear (year : Int) : Bool :=
  year.tmod 4 == 0 && (year.tmod 100 != 0 || year.tmod 400 == 0)

def daysInMonth (year : Int) : Nat → Nat
  | 1 | 3 | 5 | 7 | 8 | 10 | 12 => 31
  | 4 | 6 | 9 | 11 => 30
  | 2 => if isLeapYear year then 29 else 28
  | _ => 0

def daysFromCivil (year : Int) (month day : Nat) : Int :=
  let y := if month ≤ 2 then asI32 (year - 1) else year
  let era := (if y ≥ 0 then y else y - 399).tdiv 400
  let yoe := y - era * 400
  let m : Int := month
  let doy := (153 * (if m > 2 then m - 3 else m + 9) + 2).tdiv 5 + day - 1
  let doe := yoe * 365 + yoe.tdiv 4 - yoe.tdiv 100 + doy
  era * 146097 + doe - 719468

def civilFromDays (days : Int) : Int × Nat × Nat :=
  let z := days + 719468
  let era := (if z ≥ 0 then z else z - 146096).tdiv 146097
  let doe := z - era * 146097
  let yoe := (doe - doe.tdiv 1460 + doe.tdiv 36524 - doe.tdiv 146096).tdiv 365
  let y := yoe + era * 400
  let doy := doe - (365 * yoe + yoe.tdiv 4 - yoe.tdiv 100)
  let mp := (5 * doy + 2).tdiv 153
  let d := doy - (153 * mp + 2).tdiv 5 + 1
  let m := if mp < 10 then mp + 3 else mp - 9
  (asI32 (y + if m ≤ 2 then 1 else 0), asU8 m, asU8 d)

theorem tdiv_shifted (x : Int) {n : Int} (hn : 0 < n) :
    (if x ≥ 0 then x else x - (n - 1)).tdiv n = x / n := by
  split
  case isTrue h => exact Int.tdiv_eq_ediv_of_nonneg h
  case isFalse h =>
    have hneg : x - (n - 1) = -(n - 1 - x) := by omega
    rw [hneg, Int.neg_tdiv, Int.tdiv_eq_ediv_of_nonneg (by omega)]
    have hsplit := Int.emod_add_mul_ediv (n - 1 - x) n
    have hnonneg := Int.emod_nonneg (n - 1 - x) hn.ne'
    have hlt := Int.emod_lt_of_pos (n - 1 - x) hn
    refine (((Int.ediv_emod_unique (r := n - 1 - (n - 1 - x) % n) hn).mpr ⟨?_, ?_, ?_⟩).1).symm
    · rw [Int.mul_neg]
      omega
    · omega
    · omega

theorem isLeapYear_iff (year : Int) : isLeapYear year = true ↔ IsLeap year := by
  have hzero : ∀ n : Int, year.tmod n = 0 ↔ year % n = 0 := by
    intro n
    rw [← Int.dvd_iff_tmod_eq_zero, Int.dvd_iff_emod_eq_zero]
  simp [isLeapYear, IsLeap, hzero]

theorem daysInMonth_eq (year : Int) (month : Nat) : daysInMonth year month = monthLength year month := by
  unfold daysInMonth monthLength
  split <;> simp only [isLeapYear_iff]

theorem tdiv_of_nonneg {x n : Int} (h : 0 ≤ x) : x.tdiv n = x / n := Int.tdiv_eq_ediv_of_nonneg h

def marchDays (month : Nat) : Int := (153 * (if (month : Int) > 2 then (month : Int) - 3 else month + 9) + 2) / 5

theorem daysBefore_march (year : Int) {month : Nat} (hmonth : 1 ≤ month) (hmonth' : month ≤ 12) :
    daysBeforeYear ((if month ≤ 2 then year - 1 else year) + 1) + marchDays month - 306 =
      daysBeforeYear year + daysBeforeMonth year month := by
  by_cases hleap : IsLeap year
  all_goals
    have hyear := daysBeforeYear_succ year
    rw [yearLength] at hyear
    simp only [hleap, if_true, if_false] at hyear
    interval_cases month <;>
      simp [marchDays, daysBeforeMonth, monthLength, hleap, hyear] <;> omega

theorem daysBeforeYear_era (y : Int) :
    y / 400 * 146097 + ((y - y / 400 * 400) * 365 + (y - y / 400 * 400) / 4 - (y - y / 400 * 400) / 100) =
      daysBeforeYear (y + 1) := by
  unfold daysBeforeYear
  omega

theorem daysFromCivil_eq (date : Date) (hyear : InI32 date.year)
    (hshift : date.month ≤ 2 → date.year ≠ -2 ^ 31) :
    daysFromCivil date.year date.month date.day = date.number := by
  obtain ⟨year, month, day, hmonth, hmonth', hday, hday'⟩ := date
  dsimp only at *
  have hy : (if month ≤ 2 then asI32 (year - 1) else year) = if month ≤ 2 then year - 1 else year := by
    split
    case isTrue hfirst =>
      have hne := hshift hfirst
      unfold InI32 at hyear
      exact asI32_of_inI32 ⟨by omega, by omega⟩
    case isFalse => rfl
  have hmarch : (153 * (if (month : Int) > 2 then (month : Int) - 3 else month + 9) + 2).tdiv 5 =
      marchDays month := by
    refine tdiv_of_nonneg ?_
    split <;> omega
  have hmarchYear := daysBefore_march year hmonth hmonth'
  unfold daysFromCivil Date.number
  dsimp only
  rw [hy, hmarch]
  generalize (if month ≤ 2 then year - 1 else year) = y at *
  have hdiv : (if y ≥ 0 then y else y - 399).tdiv 400 = y / 400 := tdiv_shifted y (n := 400) (by decide)
  have hera := daysBeforeYear_era y
  rw [hdiv, tdiv_of_nonneg (by omega), tdiv_of_nonneg (by omega)]
  omega

theorem exists_yearOfEra {doe : Int} (h : 0 ≤ doe) (h' : doe < 146097) :
    ∃ c q k u : Int, (0 ≤ c ∧ c ≤ 3) ∧ (0 ≤ q ∧ q ≤ 24) ∧ (0 ≤ k ∧ k ≤ 3) ∧ (0 ≤ u ∧ u ≤ 365) ∧
      (u = 365 → k = 3 ∧ (q = 24 → c = 3)) ∧ doe = 36524 * c + 1461 * q + 365 * k + u := by
  refine ⟨min (doe / 36524) 3, (doe - 36524 * min (doe / 36524) 3) / 1461,
    min ((doe - 36524 * min (doe / 36524) 3) % 1461 / 365) 3,
    (doe - 36524 * min (doe / 36524) 3) % 1461 -
      365 * min ((doe - 36524 * min (doe / 36524) 3) % 1461 / 365) 3, ?_⟩
  omega

theorem yearOfEra_eq {doe c q k u : Int} (hc : 0 ≤ c ∧ c ≤ 3) (hq : 0 ≤ q ∧ q ≤ 24)
    (hk : 0 ≤ k ∧ k ≤ 3) (hu : 0 ≤ u ∧ u ≤ 365) (hleap : u = 365 → k = 3 ∧ (q = 24 → c = 3))
    (h : doe = 36524 * c + 1461 * q + 365 * k + u) :
    (doe - doe / 1460 + doe / 36524 - doe / 146096) / 365 = 100 * c + 4 * q + k := by
  have hcenturies : doe / 36524 - doe / 146096 = c := by
    by_cases hend : u = 365 ∧ q = 24
    · omega
    · have hcentury : 1461 * q + 365 * k + u ≤ 36523 := by omega
      have hdiv : doe / 36524 = c := by omega
      omega
  -- The leap days before this one, and the one of this year when it is close.
  have hleaps : doe / 1460 = 25 * c + q ∨ doe / 1460 = 25 * c + q + 1 := by omega
  have hlast : u = 365 → doe / 1460 = 25 * c + q + 1 := by omega
  have hfirst : doe / 1460 = 25 * c + q + 1 → 1 ≤ u := by omega
  cases hleaps with
  | inl hleaps =>
    have hsum : doe - doe / 1460 + doe / 36524 - doe / 146096 = 365 * (100 * c + 4 * q + k) + u := by omega
    omega
  | inr hleaps =>
    have hsum : doe - doe / 1460 + doe / 36524 - doe / 146096 =
        365 * (100 * c + 4 * q + k) + (u - 1) := by omega
    omega

theorem exists_marchDate {doy : Int} (h : 0 ≤ doy) (h' : doy ≤ 365) :
    ∃ month day : Nat, (1 ≤ month ∧ month ≤ 12) ∧ 1 ≤ day ∧
      (∀ year, (month = 2 → doy = 365 → IsLeap year) → day ≤ monthLength year month) ∧
      marchDays month + day = doy + 1 ∧
      (if (5 * doy + 2) / 153 < 10 then (5 * doy + 2) / 153 + 3 else (5 * doy + 2) / 153 - 9) = month ∧
      doy - (153 * ((5 * doy + 2) / 153) + 2) / 5 + 1 = day := by
  generalize hmp : (5 * doy + 2) / 153 = mp
  obtain ⟨month, hmonth, hpos, hle⟩ : ∃ month : Nat, (if mp < 10 then mp + 3 else mp - 9) = month ∧
      1 ≤ month ∧ month ≤ 12 :=
    ⟨(if mp < 10 then mp + 3 else mp - 9).toNat, by omega, by omega, by omega⟩
  refine ⟨month, (doy - (153 * mp + 2) / 5 + 1).toNat, ⟨hpos, hle⟩, ?_⟩
  interval_cases month
  case «2» =>
    have hfebruary : mp = 11 := by omega
    have hdays : marchDays 2 = 337 := rfl
    subst hfebruary
    refine ⟨by omega, fun year hleap => ?_, by omega, hmonth, by omega⟩
    by_cases hyear : IsLeap year
    · simp only [monthLength, hyear, if_true]
      omega
    · have hends : doy ≠ 365 := fun hend => hyear (hleap rfl hend)
      simp only [monthLength, hyear, if_false]
      omega
  all_goals
    refine ⟨by omega, fun year _ => ?_, ?_, hmonth, by omega⟩
    · simp only [monthLength]
      omega
    · simp only [marchDays]
      omega

theorem monthLength_le (year : Int) (month : Nat) : monthLength year month ≤ 31 := by
  unfold monthLength
  split <;> first | omega | (split <;> omega)

theorem exists_civilDate (n : Int) :
    ∃ date : Date, date.number = n ∧ civilFromDays n = (asI32 date.year, date.month, date.day) := by
  have hera : (if n + 719468 ≥ 0 then n + 719468 else n + 719468 - 146096).tdiv 146097 =
      (n + 719468) / 146097 := tdiv_shifted (n + 719468) (n := 146097) (by decide)
  obtain ⟨era, hdiv⟩ : ∃ era, (n + 719468) / 146097 = era := ⟨_, rfl⟩
  obtain ⟨doe, hdoe⟩ : ∃ doe, n + 719468 - era * 146097 = doe := ⟨_, rfl⟩
  obtain ⟨c, q, k, u, hc, hq, hk, hu, hleap, hday⟩ := @exists_yearOfEra doe (by omega) (by omega)
  obtain ⟨yoe, hyoe⟩ : ∃ yoe, 100 * c + 4 * q + k = yoe := ⟨_, rfl⟩
  have hfour : yoe / 4 = 25 * c + q := by omega
  have hhundred : yoe / 100 = c := by omega
  obtain ⟨month, day, hmonth, hone, hlength, hmarch, hm, hd⟩ := exists_marchDate hu.1 hu.2
  obtain ⟨year, hy⟩ : ∃ year, yoe + era * 400 + (if month ≤ 2 then 1 else 0) = year := ⟨_, rfl⟩
  have hmarchYear : (if month ≤ 2 then year - 1 else year) = yoe + era * 400 := by
    split at hy
    case isTrue h => rw [if_pos h]; omega
    case isFalse h => rw [if_neg h]; omega
  have hvalid : day ≤ monthLength year month := by
    refine hlength year fun hfebruary hlast => ?_
    obtain ⟨hlastYear, hcentury⟩ := hleap hlast
    rw [if_pos (by omega)] at hy
    have hsum : year = 400 * era + (100 * c + 4 * q + 4) := by omega
    refine ⟨by omega, ?_⟩
    by_cases hend : q = 24
    · have hlastCentury := hcentury hend
      omega
    · omega
  refine ⟨⟨year, month, day, hmonth.1, hmonth.2, hone, hvalid⟩, ?_, ?_⟩
  · have hdays := daysBefore_march year hmonth.1 hmonth.2
    have hstart := daysBeforeYear_era (yoe + era * 400)
    have hfull : (yoe + era * 400) / 400 = era := by omega
    have hpart : yoe + era * 400 - era * 400 = yoe := by omega
    rw [hfull, hpart, hfour, hhundred] at hstart
    rw [hmarchYear] at hdays
    unfold Date.number
    dsimp only
    omega
  · have hquot : (doe - doe.tdiv 1460 + doe.tdiv 36524 - doe.tdiv 146096).tdiv 365 = yoe := by
      rw [tdiv_of_nonneg (x := doe) (by omega), tdiv_of_nonneg (x := doe) (by omega),
        tdiv_of_nonneg (x := doe) (by omega), tdiv_of_nonneg (by omega),
        yearOfEra_eq hc hq hk hu hleap hday, hyoe]
    have hdoy : doe - (365 * yoe + yoe.tdiv 4 - yoe.tdiv 100) = u := by
      rw [tdiv_of_nonneg (x := yoe) (by omega), tdiv_of_nonneg (x := yoe) (by omega), hfour, hhundred]
      omega
    have hmp : (5 * u + 2).tdiv 153 = (5 * u + 2) / 153 := tdiv_of_nonneg (by omega)
    have hbegins : (153 * ((5 * u + 2) / 153) + 2).tdiv 5 = (153 * ((5 * u + 2) / 153) + 2) / 5 :=
      tdiv_of_nonneg (by omega)
    have hfirst : ((month : Int) ≤ 2) = (month ≤ 2) := by
      rw [eq_iff_iff]
      omega
    unfold civilFromDays
    simp only [hera, hdiv, hdoe, hquot, hdoy, hmp, hbegins, hm, hd, hfirst, hy]
    rw [asU8_of_lt (by omega), asU8_of_lt (by have := monthLength_le year month; omega)]

theorem civilFromDays_number (date : Date) :
    civilFromDays date.number = (asI32 date.year, date.month, date.day) := by
  obtain ⟨date', hnumber, hcivil⟩ := exists_civilDate date.number
  rwa [Date.number_injective hnumber] at hcivil

structure DateTime where
  year : Int
  month : Nat
  day : Nat
  hour : Nat
  minute : Nat
  second : Nat
  nanosecond : Nat
  offsetMinutes : Option Int
deriving DecidableEq

namespace DateTime

/-- Seconds since the Unix epoch, read as though the timestamp carried `offsetMinutes` unless it does. -/
def unixSecondsAt (stamp : DateTime) (offsetMinutes : Int) : Int :=
  let offset := stamp.offsetMinutes.getD offsetMinutes
  daysFromCivil stamp.year stamp.month stamp.day * 86400 + stamp.hour * 3600 + stamp.minute * 60 +
    stamp.second - offset * 60

def unixSeconds (stamp : DateTime) : Option Int := stamp.offsetMinutes.map stamp.unixSecondsAt

def fromUnixSeconds (seconds : Int) : DateTime :=
  let days := seconds.tdiv 86400
  let rem := seconds.tmod 86400
  let (days, rem) := if rem < 0 then (days - 1, rem + 86400) else (days, rem)
  let (year, month, day) := civilFromDays days
  { year, month, day, hour := asU8 (rem.tdiv 3600), minute := asU8 ((rem.tmod 3600).tdiv 60)
    second := asU8 (rem.tmod 60), nanosecond := 0, offsetMinutes := some 0 }

theorem fromUnixSeconds_eq (seconds : Int) :
    fromUnixSeconds seconds =
      let date := civilFromDays (seconds / 86400)
      let rem := seconds % 86400
      { year := date.1, month := date.2.1, day := date.2.2, hour := (rem / 3600).toNat
        minute := (rem % 3600 / 60).toNat, second := (rem % 60).toNat, nanosecond := 0
        offsetMinutes := some 0 } := by
  have hrem : (if seconds.tmod 86400 < 0 then (seconds.tdiv 86400 - 1, seconds.tmod 86400 + 86400)
      else (seconds.tdiv 86400, seconds.tmod 86400)) = (seconds / 86400, seconds % 86400) := by
    have hsplit := Int.tmod_add_mul_tdiv seconds 86400
    split
    case isTrue h =>
      have hlt := Int.lt_tmod_of_pos seconds (by decide : (0 : Int) < 86400)
      exact Prod.ext (by dsimp only; omega) (by dsimp only; omega)
    case isFalse h =>
      have hlt := Int.tmod_lt_of_pos seconds (by decide : (0 : Int) < 86400)
      exact Prod.ext (by dsimp only; omega) (by dsimp only; omega)
  have hnonneg := Int.emod_nonneg seconds (by decide : (86400 : Int) ≠ 0)
  have hlt := Int.emod_lt_of_pos seconds (by decide : (0 : Int) < 86400)
  unfold fromUnixSeconds
  dsimp only
  rw [hrem]
  dsimp only
  generalize seconds % 86400 = rem at *
  have hhour : asU8 (rem.tdiv 3600) = (rem / 3600).toNat := by
    rw [tdiv_of_nonneg hnonneg, asU8]
    omega
  have hmod : rem.tmod 3600 = rem % 3600 := Int.tmod_eq_emod_of_nonneg hnonneg
  have hminute : asU8 ((rem % 3600).tdiv 60) = (rem % 3600 / 60).toNat := by
    rw [tdiv_of_nonneg (by omega), asU8]
    omega
  have hsecond : asU8 (rem.tmod 60) = (rem % 60).toNat := by
    rw [Int.tmod_eq_emod_of_nonneg hnonneg, asU8]
    omega
  rw [hhour, hmod, hminute, hsecond]

theorem unixSeconds_fromUnixSeconds (seconds : Int) : (fromUnixSeconds seconds).unixSeconds =
      some (daysFromCivil (civilFromDays (seconds / 86400)).1 (civilFromDays (seconds / 86400)).2.1
        (civilFromDays (seconds / 86400)).2.2 * 86400 + seconds % 86400) := by
  have hnonneg := Int.emod_nonneg seconds (by decide : (86400 : Int) ≠ 0)
  rw [fromUnixSeconds_eq]
  simp only [unixSeconds, unixSecondsAt, Option.map_some, Option.getD_some, Option.some.injEq]
  omega

end DateTime

/-- The year before does not leave `i32`, for the months that are counted from it. -/
def ShiftFits (date : Date) : Prop := date.month ≤ 2 → date.year ≠ -2 ^ 31

instance (date : Date) : Decidable (ShiftFits date) := inferInstanceAs (Decidable (_ → _))

def lastDay : Date := ⟨2 ^ 31 - 1, 12, 31, by decide, by decide, by decide, by decide⟩

def civil (date : Date) : Int × Nat × Nat := (date.year, date.month, date.day)

/-- What the conversions promise of a date and its day number. -/
structure CalendarExact (date : Date) : Prop where
  date_returns : ShiftFits date → civilFromDays (daysFromCivil date.year date.month date.day) = civil date
  day_returns : daysFromCivil (civilFromDays date.number).1 (civilFromDays date.number).2.1
    (civilFromDays date.number).2.2 = date.number
  successor : ∃ found : Date, civilFromDays date.number = civil found ∧
    civilFromDays (date.number + 1) = civil found.next
  instant_returns : ∀ seconds : Int, seconds / 86400 = date.number →
    (DateTime.fromUnixSeconds seconds).unixSeconds = some seconds

theorem civilFromDays_of_inI32 {date : Date} (h : InI32 date.year) : civilFromDays date.number = civil date := by
  rw [civilFromDays_number, asI32_of_inI32 h]
  rfl

theorem civil_injective {date date' : Date} (h : civil date = civil date') : date = date' := by
  obtain ⟨hyear, hrest⟩ := Prod.mk.inj h
  obtain ⟨hmonth, hday⟩ := Prod.mk.inj hrest
  exact Date.ext hyear hmonth hday

theorem daysFromCivil_wrapped (date : Date) (hmonth : date.month ≤ 2) (hyear : date.year = -2 ^ 31) :
    daysFromCivil date.year date.month date.day ≠ date.number := by
  have hnumber := (Date.number_mem_year date).2
  obtain ⟨year, month, day, hpos, _, hone, _⟩ := date
  dsimp only at *
  have hwrap : asI32 (year - 1) = 2 ^ 31 - 1 := by
    rw [hyear]
    decide
  have hstart : daysBeforeYear (year + 1) < 0 := by
    rw [hyear]
    decide
  have hlate : 0 ≤ daysFromCivil year month day := by
    have hera : (if (2 ^ 31 - 1 : Int) ≥ 0 then (2 ^ 31 - 1 : Int) else 2 ^ 31 - 1 - 399).tdiv 400 =
        5368709 := by decide
    have hyoe : (2 ^ 31 - 1 : Int) - 5368709 * 400 = 47 := by decide
    have hfour : (47 : Int).tdiv 4 = 11 := by decide
    have hhundred : (47 : Int).tdiv 100 = 0 := by decide
    have hmarch : 0 ≤ (153 * (if (month : Int) > 2 then (month : Int) - 3 else month + 9) + 2).tdiv 5 := by
      refine Int.tdiv_nonneg ?_ (by decide)
      split <;> omega
    simp only [daysFromCivil, if_pos hmonth, hwrap, hera, hyoe, hfour, hhundred]
    omega
  omega

theorem inI32_next {date : Date} (h : InI32 date.year) (hlast : date ≠ lastDay) : InI32 date.next.year := by
  unfold Date.next
  split
  case isTrue => exact h
  case isFalse hday =>
    split
    case isTrue => exact h
    case isFalse hmonth =>
      have hdecember : date.month = 12 := by
        have hle := date.month_le
        omega
      have hlength : monthLength date.year date.month = 31 := by
        rw [hdecember]
        rfl
      have hend : date.day = 31 := by
        have hle := date.day_le
        omega
      have hyear : date.year ≠ 2 ^ 31 - 1 := fun hyear => hlast (Date.ext hyear hdecember hend)
      unfold InI32 at h ⊢
      dsimp only
      omega

theorem civilFromDays_after_lastDay : civilFromDays (lastDay.number + 1) = (-2 ^ 31, 1, 1) := by
  decide

theorem CalendarExact.shiftFits {date : Date} (h : CalendarExact date) (hyear : InI32 date.year) :
    ShiftFits date := by
  intro hmonth hfirst
  have hreturns := h.day_returns
  rw [civilFromDays_of_inI32 hyear] at hreturns
  exact daysFromCivil_wrapped date hmonth hfirst hreturns

theorem not_calendarExact_lastDay : ¬CalendarExact lastDay := by
  intro h
  obtain ⟨found, hfound, hnext⟩ := h.successor
  rw [civilFromDays_of_inI32 (by decide)] at hfound
  obtain rfl := civil_injective hfound
  rw [civilFromDays_after_lastDay] at hnext
  exact absurd hnext (by decide)

/-- The conversions keep their promises of a date with an `i32` year, unless it is in January or February
of the first one or the last day of the last. -/
theorem calendarExact_iff (date : Date) (h : InI32 date.year) :
    CalendarExact date ↔ ShiftFits date ∧ date ≠ lastDay := by
  refine ⟨fun hexact => ⟨hexact.shiftFits h, ?_⟩, ?_⟩
  · rintro rfl
    exact not_calendarExact_lastDay hexact
  · rintro ⟨hshift, hlast⟩
    have hcivil := civilFromDays_of_inI32 h
    have hdays := daysFromCivil_eq date h hshift
    refine ⟨fun _ => ?_, ?_, ⟨date, hcivil, ?_⟩, fun seconds hseconds => ?_⟩
    · rw [hdays, hcivil]
    · rw [hcivil]
      exact hdays
    · rw [← Date.number_next, civilFromDays_of_inI32 (inI32_next h hlast)]
    · rw [DateTime.unixSeconds_fromUnixSeconds, hseconds, hcivil]
      simp only [civil, hdays, Option.some.injEq]
      omega

/-- A leap day at the end of a cycle of 400 years. -/
theorem calendarExact_leapDay :
    CalendarExact ⟨2000, 2, 29, by decide, by decide, by decide, by decide⟩ :=
  (calendarExact_iff _ (by decide)).mpr ⟨by decide, by decide⟩

/-- The first day and the last day of the years an `i32` holds: the number of the first is that of a day
more than four billion years later, and the day after the last is the first. -/
theorem calendar_ends : ¬(∀ date : Date, InI32 date.year → CalendarExact date) ∧
    ¬CalendarExact ⟨-2 ^ 31, 1, 1, by decide, by decide, by decide, by decide⟩ ∧ ¬CalendarExact lastDay := by
  refine ⟨fun h => not_calendarExact_lastDay (h lastDay (by decide)), fun h => ?_, not_calendarExact_lastDay⟩
  exact absurd (h.shiftFits (by decide)) (by decide)

end Eebus.Model
