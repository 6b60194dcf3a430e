import Eebus.Model.DateTimeReading

/-!
What a parsed timestamp says of its text. The parser is exact but for midnight at the end of the last
year, and one value has two texts where zero does: as an offset, or as a year.
-/

namespace Eebus.Model

open Eebus.Library Eebus.Library.Gregorian

variable {t : Stamp}

namespace Stamp

/-- The numbers name a day and a time of day. `24:00:00` is the one time past 23 that exists. -/
structure Accepted (t : Stamp) : Prop extends Written t where
  one_le_month : 1 ≤ t.month
  month_le : t.month ≤ 12
  one_le_day : 1 ≤ t.day
  day_le : t.day ≤ monthLength t.signedYear t.month
  minute_le : t.minute ≤ 59
  second_le : t.second ≤ 59
  hour_le : t.hour ≤ 23 ∨ t.hour = 24 ∧ t.minute = 0 ∧ t.second = 0 ∧ t.nanosecond = 0

def date (t : Stamp) (h : t.Accepted) : Date :=
  ⟨t.signedYear, t.month, t.day, h.one_le_month, h.month_le, h.one_le_day, h.day_le⟩

/-- The day a timestamp names: midnight at the end of a day is the start of the next. -/
def Names (t : Stamp) (date : Date) : Prop :=
  if t.hour = 24 then ∃ before : Date, civil before = (t.signedYear, t.month, t.day) ∧ date = before.next
  else civil date = (t.signedYear, t.month, t.day)

def named (t : Stamp) (h : t.Accepted) : Date := if t.hour = 24 then (t.date h).next else t.date h

theorem names_iff (h : t.Accepted) (date : Date) : t.Names date ↔ date = t.named h := by
  unfold Names named
  have hwritten : ∀ d : Date, civil d = (t.signedYear, t.month, t.day) ↔ d = t.date h :=
    fun d => ⟨fun hd => civil_injective hd, fun hd => hd ▸ rfl⟩
  split
  · simp only [hwritten, exists_eq_left]
  · exact hwritten date

theorem signedYear_bounds (h : t.Written) : -2 ^ 31 < t.signedYear ∧ t.signedYear < 2 ^ 31 := by
  have hyear := h.year
  unfold signedYear
  split <;> omega

def value (t : Stamp) (h : t.Accepted) : DateTime where
  year := asI32 (t.named h).year
  month := (t.named h).month
  day := (t.named h).day
  hour := t.hour % 24
  minute := t.minute
  second := t.second
  nanosecond := t.nanosecond
  offsetMinutes := t.offset.minutesEast

theorem check_of_accepted (h : t.Accepted) : t.check = some (t.value h) := by
  have hbounds := signedYear_bounds h.toWritten
  have hyear : InI32 t.signedYear := ⟨by omega, by omega⟩
  have hdate : ¬(!(1 ≤ t.month && t.month ≤ 12) || t.day < 1 ||
      t.day > daysInMonth t.signedYear t.month) = true := by
    have hmonth := h.one_le_month
    have hmonth' := h.month_le
    have hday := h.one_le_day
    have hday' := h.day_le
    rw [daysInMonth_eq]
    simp only [Bool.or_eq_true, Bool.not_eq_true', Bool.and_eq_false_iff, decide_eq_true_eq,
      decide_eq_false_iff_not]
    omega
  have hclock : ¬(t.minute > 59 || t.second > 59) = true := by
    have hminute := h.minute_le
    have hsecond := h.second_le
    simp only [Bool.or_eq_true, decide_eq_true_eq]
    omega
  unfold check
  rw [if_neg hdate, if_neg hclock]
  cases h.hour_le with
  | inl hhour =>
    have hnamed : t.named h = t.date h := if_neg (by omega)
    rw [if_pos hhour, value, hnamed, Nat.mod_eq_of_lt (by omega)]
    simp only [date, asI32_of_inI32 hyear]
  | inr hmidnight =>
    obtain ⟨hhour, hminute, hsecond, hnanos⟩ := hmidnight
    have hnamed : t.named h = (t.date h).next := if_pos hhour
    have hdays : daysFromCivil t.signedYear t.month t.day = (t.date h).number :=
      daysFromCivil_eq (t.date h) hyear fun _ => hbounds.1.ne'
    rw [if_neg (by omega), if_pos (by simp [hhour, hminute, hsecond, hnanos]), hdays,
      ← Date.number_next, civilFromDays_number, value, hnamed, hhour]

theorem accepted_of_check (h : t.Written) {d : DateTime} (hcheck : t.check = some d) :
    t.Accepted := by
  unfold check at hcheck
  split at hcheck
  case isTrue => cases hcheck
  case isFalse hdate =>
    rw [daysInMonth_eq] at hdate
    simp only [Bool.or_eq_true, Bool.not_eq_true', Bool.and_eq_false_iff, decide_eq_true_eq,
      decide_eq_false_iff_not, not_or] at hdate
    split at hcheck
    case isTrue => cases hcheck
    case isFalse hclock =>
      simp only [Bool.or_eq_true, decide_eq_true_eq, not_or] at hclock
      refine ⟨h, by omega, by omega, by omega, by omega, by omega, by omega, ?_⟩
      split at hcheck
      case isTrue hhour => exact .inl hhour
      case isFalse =>
        split at hcheck
        case isFalse => cases hcheck
        case isTrue hmidnight =>
          simp only [Bool.and_eq_true, decide_eq_true_eq, beq_iff_eq] at hmidnight
          exact .inr ⟨hmidnight.1.1.1, hmidnight.1.1.2, hmidnight.1.2, hmidnight.2⟩

end Stamp

theorem parse_of_accepted {text : String} (h : t.Accepted) (htext : t.text = text.toList) :
    parseXsDateTime text = some (t.value h) := by
  rw [parse_eq_check, readStamp_of_text h.toWritten htext, Option.bind_some, Stamp.check_of_accepted h]

theorem exists_of_parse {text : String} {d : DateTime} (h : parseXsDateTime text = some d) :
    ∃ (t : Stamp) (ht : t.Accepted), t.text = text.toList ∧ d = t.value ht := by
  rw [parse_eq_check] at h
  obtain ⟨t, hread, hcheck⟩ := Option.bind_eq_some_iff.mp h
  obtain ⟨hwritten, htext⟩ := text_of_readStamp hread
  have ht := Stamp.accepted_of_check hwritten hcheck
  refine ⟨t, ht, htext, ?_⟩
  rw [Stamp.check_of_accepted ht] at hcheck
  exact (Option.some.inj hcheck).symm

theorem stamp_unique {text : String} {t' : Stamp} (h : t.Written) (h' : t'.Written)
    (htext : t.text = text.toList) (htext' : t'.text = text.toList) : t = t' :=
  Option.some.inj ((readStamp_of_text h htext).symm.trans (readStamp_of_text h' htext'))

def canonicalOffset : Option Int → OffsetText
  | none => .absent
  | some offset =>
    if offset = 0 then .zulu else .signed (offset < 0) (offset.natAbs / 60) (offset.natAbs % 60)

theorem formatOffset_eq (offset : Option Int) : formatOffset offset = (canonicalOffset offset).text := by
  cases offset with
  | none => rfl
  | some offset =>
    by_cases hzero : offset = 0
    · subst hzero
      rfl
    · have hformat : formatOffset (some offset) = (if offset < 0 then '-' else '+') ::
          (padded 2 (offset.natAbs / 60) ++ ':' :: padded 2 (offset.natAbs % 60)) := by
        unfold formatOffset
        split <;> simp_all
      rw [hformat, canonicalOffset, if_neg hzero, OffsetText.text]
      simp only [decide_eq_true_eq]

theorem canonicalOffset_spec {offset : Option Int} (h : ∀ o ∈ offset, -840 ≤ o ∧ o ≤ 840) :
    (canonicalOffset offset).Within ∧ (canonicalOffset offset).minutesEast = offset := by
  cases offset with
  | none => exact ⟨trivial, rfl⟩
  | some offset =>
    have hbounds := h offset rfl
    by_cases hzero : offset = 0
    · subst hzero
      exact ⟨trivial, rfl⟩
    · rw [canonicalOffset, if_neg hzero]
      refine ⟨⟨by omega, by omega⟩, ?_⟩
      simp only [OffsetText.minutesEast, decide_eq_true_eq, Option.some.injEq]
      split <;> omega

theorem OffsetText.Within.bounds {offset : OffsetText} (h : offset.Within) :
    ∀ o ∈ offset.minutesEast, -840 ≤ o ∧ o ≤ 840 := by
  cases offset with
  | absent => exact fun o ho => absurd ho (Option.not_mem_none o)
  | zulu =>
    rintro _ ⟨⟩
    decide
  | signed negative hours minutes =>
    rintro _ ⟨⟩
    obtain ⟨-, htotal⟩ := h
    cases negative with
    | false =>
      rw [if_neg Bool.false_ne_true]
      omega
    | true =>
      rw [if_pos rfl]
      omega

theorem nanosOf_fraction {nanos : Nat} (h : nanos < 10 ^ 9) : nanosOf (fraction nanos) = nanos := by
  rw [nanosOf, take_fraction h]
  exact numberOf_padded 9 nanos

theorem whole_fraction {nanos : Nat} (hpos : 0 < nanos) (h : nanos < 10 ^ 9) : whole (fraction nanos) = true := by
  have hdigits : (fraction nanos).all Char.isDigit = true :=
    List.all_eq_true.mpr fun _ hc => mem_fraction hc
  rw [whole, hdigits, Bool.and_true, Bool.not_eq_true', List.isEmpty_eq_false_iff]
  intro hnil
  have hzero := nanosOf_fraction h
  rw [hnil] at hzero
  exact absurd hzero (by rw [show nanosOf [] = 0 from numberOf_zeros 9]; omega)

def DateTime.stamp (d : DateTime) : Stamp where
  negative := decide (d.year < 0)
  year := d.year.natAbs
  month := d.month
  day := d.day
  hour := d.hour
  minute := d.minute
  second := d.second
  fraction := if d.nanosecond > 0 then some (fraction d.nanosecond) else none
  offset := canonicalOffset d.offsetMinutes

theorem DateTime.format_eq (d : DateTime) : d.format.toList = d.stamp.text := by
  have hyear : (if d.year < 0 then '-' :: padded 4 d.year.natAbs else padded 4 d.year.natAbs) =
      (if d.stamp.negative then ['-'] else []) ++ padded 4 d.year.natAbs := by
    simp only [DateTime.stamp, decide_eq_true_eq]
    split <;> rfl
  have hfraction : (if d.nanosecond > 0 then '.' :: fraction d.nanosecond else []) =
      Stamp.fractionText d.stamp.fraction := by
    simp only [DateTime.stamp]
    split <;> rfl
  rw [DateTime.format, String.toList_ofList, hyear, hfraction, formatOffset_eq, List.append_assoc]
  rfl

theorem DateTime.stamp_signedYear (d : DateTime) : d.stamp.signedYear = d.year := by
  simp only [Stamp.signedYear, DateTime.stamp, decide_eq_true_eq]
  split <;> omega

theorem DateTime.stamp_nanosecond {d : DateTime} (h : d.nanosecond < 10 ^ 9) :
    d.stamp.nanosecond = d.nanosecond := by
  have hstamp : d.stamp.nanosecond =
      ((if d.nanosecond > 0 then some (fraction d.nanosecond) else none).map nanosOf).getD 0 := rfl
  rw [hstamp]
  by_cases hpos : d.nanosecond > 0
  · rw [if_pos hpos, Option.map_some, Option.getD_some, nanosOf_fraction h]
  · rw [if_neg hpos, Nat.eq_zero_of_not_pos hpos]
    rfl

theorem parse_format_of_valid {d : DateTime} {date : Date} (hdate : (d.year, d.month, d.day) = civil date)
    (hyear : -2 ^ 31 < d.year ∧ d.year < 2 ^ 31) (hhour : d.hour ≤ 23) (hminute : d.minute ≤ 59)
    (hsecond : d.second ≤ 59) (hnanos : d.nanosecond < 10 ^ 9)
    (hoffset : ∀ o ∈ d.offsetMinutes, -840 ≤ o ∧ o ≤ 840) : parseXsDateTime d.format = some d := by
  obtain ⟨hyears, hrest⟩ := Prod.mk.inj hdate
  obtain ⟨hmonths, hdays⟩ := Prod.mk.inj hrest
  have hsigned : d.stamp.signedYear = date.year := d.stamp_signedYear.trans hyears
  have hmonths' : d.stamp.month = date.month := hmonths
  have hdays' : d.stamp.day = date.day := hdays
  have hmonth' := date.month_le
  have hday' := date.day_le
  have hlength := monthLength_le date.year date.month
  have hfraction : ∀ digits ∈ d.stamp.fraction, whole digits = true := by
    intro digits hdigits
    simp only [DateTime.stamp] at hdigits
    split at hdigits
    case isTrue hpos => exact Option.some.inj hdigits ▸ whole_fraction hpos hnanos
    case isFalse => cases hdigits
  have hwritten : d.stamp.Written := by
    refine ⟨?_, ?_, ?_, ?_, ?_, ?_, hfraction, (canonicalOffset_spec hoffset).1⟩
    all_goals
      simp only [DateTime.stamp]
      omega
  have haccepted : d.stamp.Accepted := by
    refine ⟨hwritten, ?_, ?_, ?_, ?_, hminute, hsecond, .inl hhour⟩
    · exact hmonths'.symm ▸ date.one_le_month
    · exact hmonths'.symm ▸ hmonth'
    · exact hdays'.symm ▸ date.one_le_day
    · rw [hsigned, hmonths', hdays']
      exact hday'
  have hnamed : d.stamp.named haccepted = date := by
    have hday : d.stamp.date haccepted = date := Date.ext hsigned hmonths hdays
    refine (if_neg fun hmidnight => ?_).trans hday
    have hhour' : d.hour = 24 := hmidnight
    omega
  have hfits : InI32 date.year := ⟨by omega, by omega⟩
  have hclock : d.hour % 24 = d.hour := Nat.mod_eq_of_lt (by omega)
  have hvalue : d.stamp.value haccepted =
      ⟨asI32 (d.stamp.named haccepted).year, (d.stamp.named haccepted).month, (d.stamp.named haccepted).day,
        d.hour % 24, d.minute, d.second, d.stamp.nanosecond, (canonicalOffset d.offsetMinutes).minutesEast⟩ := rfl
  rw [parse_of_accepted haccepted d.format_eq.symm, hvalue, hnamed, asI32_of_inI32 hfits, ← hyears,
    ← hmonths, ← hdays, DateTime.stamp_nanosecond hnanos, (canonicalOffset_spec hoffset).2, hclock]

/-- The timestamp is a day and a time of day that exist, with an offset within ±14:00, and they are what
the text says. -/
structure DateTime.Exact (d : DateTime) (t : Stamp) : Prop where
  date : ∃ date : Date, t.Names date ∧ (d.year, d.month, d.day) = civil date
  hour : d.hour = t.hour % 24 ∧ t.hour ≤ 24
  minute : d.minute = t.minute ∧ d.minute < 60
  second : d.second = t.second ∧ d.second < 60
  nanosecond : d.nanosecond = (t.fraction.map truncated).getD 0 ∧ d.nanosecond < 10 ^ 9
  offset : d.offsetMinutes = t.offset.minutesEast ∧ ∀ o ∈ d.offsetMinutes, -14 * 60 ≤ o ∧ o ≤ 14 * 60

/-- A text that is accepted gives the timestamp it says, and this is read back from its own text. -/
def ReadsExactly (text : String) : Prop :=
  ∀ d, parseXsDateTime text = some d →
    (∃ t : Stamp, t.Written ∧ t.text = text.toList ∧ d.Exact t) ∧ parseXsDateTime d.format = some d

/-- An accepted text that says midnight at the end of the last day an `i32` year has. -/
def EndsLastDay (text : String) : Prop :=
  ∃ t : Stamp, t.Accepted ∧ t.text = text.toList ∧ t.hour = 24 ∧
    (t.signedYear, t.month, t.day) = civil lastDay

theorem Stamp.nanosecond_eq (h : t.Written) :
    t.nanosecond = (t.fraction.map truncated).getD 0 ∧ t.nanosecond < 10 ^ 9 := by
  unfold nanosecond
  cases hfraction : t.fraction with
  | none => exact ⟨rfl, by decide⟩
  | some digits =>
    have hwhole := h.fraction digits hfraction
    have hall := (Bool.and_eq_true_iff.mp hwhole).2
    have htake : (digits.take 9).all Char.isDigit = true :=
      List.all_eq_true.mpr fun c hc => List.all_eq_true.mp hall c (List.mem_of_mem_take hc)
    exact ⟨nanosOf_eq_truncated hwhole, (nanosOf_lt htake).1⟩

theorem Stamp.named_bounds (h : t.Accepted) :
    -2 ^ 31 < (t.named h).year ∧ (t.named h).year ≤ 2 ^ 31 := by
  have hbounds := signedYear_bounds h.toWritten
  have hwritten : (t.date h).year = t.signedYear := rfl
  unfold named
  split
  · unfold Date.next
    split
    · dsimp only
      omega
    split
    · dsimp only
      omega
    · dsimp only
      omega
  · omega

theorem Stamp.named_fits_iff (h : t.Accepted) :
    InI32 (t.named h).year ↔ ¬(t.hour = 24 ∧ (t.signedYear, t.month, t.day) = civil lastDay) := by
  have hbounds := signedYear_bounds h.toWritten
  have hyear : InI32 (t.date h).year := ⟨le_of_lt hbounds.1, hbounds.2⟩
  unfold named
  constructor
  · rintro hfits ⟨hmidnight, hlast⟩
    have hday : t.date h = lastDay := civil_injective hlast
    rw [if_pos hmidnight, hday] at hfits
    exact absurd hfits (by decide)
  · intro hnot
    split
    case isTrue hmidnight => exact inI32_next hyear fun hday => hnot ⟨hmidnight, congrArg civil hday⟩
    case isFalse => exact hyear

theorem Stamp.value_exact (h : t.Accepted) (hfits : InI32 (t.named h).year) :
    (t.value h).Exact t := by
  have hnanos := nanosecond_eq h.toWritten
  have hhour := h.hour_le
  refine ⟨⟨t.named h, (names_iff h _).mpr rfl, ?_⟩, ⟨rfl, by omega⟩, ⟨rfl, Nat.lt_succ_of_le h.minute_le⟩,
    ⟨rfl, Nat.lt_succ_of_le h.second_le⟩, hnanos, ⟨rfl, h.offset.bounds⟩⟩
  rw [value, asI32_of_inI32 hfits]
  rfl

theorem readsExactly_iff (text : String) : ReadsExactly text ↔ ¬EndsLastDay text := by
  constructor
  · rintro hexact ⟨t, h, htext, hmidnight, hlast⟩
    obtain ⟨⟨t', hwritten, htext', hvalue⟩, -⟩ := hexact _ (parse_of_accepted h htext)
    obtain rfl := stamp_unique h.toWritten hwritten htext htext'
    obtain ⟨date, hnames, hdate⟩ := hvalue.date
    obtain rfl := (Stamp.names_iff h date).mp hnames
    have hyear : asI32 (t.named h).year = (t.named h).year := (Prod.mk.inj hdate).1
    have hday : t.named h = lastDay.next := (if_pos hmidnight).trans (congrArg _ (civil_injective hlast))
    rw [hday] at hyear
    exact absurd hyear (by decide)
  · intro hnot d hparse
    obtain ⟨t, h, htext, rfl⟩ := exists_of_parse hparse
    have hfits := (Stamp.named_fits_iff h).mpr fun ⟨hmidnight, hlast⟩ => hnot ⟨t, h, htext, hmidnight, hlast⟩
    have hexact := Stamp.value_exact h hfits
    have hbounds := Stamp.named_bounds h
    obtain ⟨date, hnames, hdate⟩ := hexact.date
    have hyear : (t.value h).year = (t.named h).year := asI32_of_inI32 hfits
    refine ⟨⟨t, h.toWritten, htext, hexact⟩, parse_format_of_valid hdate ?_ ?_ h.minute_le h.second_le
      hexact.nanosecond.2 hexact.offset.2⟩
    · rw [hyear]
      exact ⟨hbounds.1, hfits.2⟩
    · exact Nat.le_of_lt_succ (Nat.mod_lt _ (by decide))

/-- Two texts that differ at most in the two documented ways: `24:00:00` against the next day's
`00:00:00`, and what the fraction carries beyond nine digits without trailing zeros. -/
structure Stamp.Respelled (t t' : Stamp) : Prop where
  day : ∀ date, t.Names date ↔ t'.Names date
  hour : t.hour % 24 = t'.hour % 24
  minute : t.minute = t'.minute
  second : t.second = t'.second
  nanosecond : t.nanosecond = t'.nanosecond
  sign : (t.hour = 24 ↔ t'.hour = 24) → t.negative = t'.negative
  offset : t.offset = t'.offset

/-- Two accepted texts that give one value differ in the documented ways only. -/
def Distinguished (text text' : String) : Prop :=
  ∀ d, parseXsDateTime text = some d → parseXsDateTime text' = some d →
    ∃ t t' : Stamp, t.Written ∧ t.text = text.toList ∧ t'.Written ∧ t'.text = text'.toList ∧ t.Respelled t'

/-- The same day, time of day and offset. -/
structure Stamp.SameInstant (t t' : Stamp) : Prop where
  day : ∀ date, t.Names date ↔ t'.Names date
  hour : t.hour % 24 = t'.hour % 24
  minute : t.minute = t'.minute
  second : t.second = t'.second
  nanosecond : t.nanosecond = t'.nanosecond
  offset : t.offset.minutesEast = t'.offset.minutesEast

/-- Zero in two spellings: `Z`, `+00:00` and `-00:00`, or `0000` and `-0000`. -/
def Stamp.ZeroRespelled (t t' : Stamp) : Prop :=
  t.offset.minutesEast = some 0 ∧ t.offset ≠ t'.offset ∨
    t.year = 0 ∧ (t.hour = 24 ↔ t'.hour = 24) ∧ t.negative ≠ t'.negative

/-- Two accepted texts of one instant with a zero offset, or a year zero, in two spellings. -/
def RespellsZero (text text' : String) : Prop :=
  ∃ t t' : Stamp, t.Accepted ∧ t.text = text.toList ∧ t'.Accepted ∧ t'.text = text'.toList ∧
    t.SameInstant t' ∧ t.ZeroRespelled t'

theorem OffsetText.eq_of_minutesEast {offset offset' : OffsetText} (h : offset.Within) (h' : offset'.Within)
    (heq : offset.minutesEast = offset'.minutesEast) (hzero : offset.minutesEast ≠ some 0) :
    offset = offset' := by
  have hzero' := heq ▸ hzero
  cases offset with
  | absent =>
    cases offset' with
    | absent => rfl
    | zulu => cases heq
    | signed => cases heq
  | zulu => exact absurd rfl hzero
  | signed negative hours minutes =>
    cases offset' with
    | absent => cases heq
    | zulu => exact absurd rfl hzero'
    | signed negative' hours' minutes' =>
      have hle := h.1
      have hle' := h'.1
      simp only [minutesEast, Option.some.injEq, ne_eq] at heq hzero
      cases negative <;> cases negative' <;> simp only [Bool.false_eq_true, if_true, if_false] at heq hzero
      · obtain ⟨rfl, rfl⟩ : hours = hours' ∧ minutes = minutes' := by omega
        rfl
      · omega
      · omega
      · obtain ⟨rfl, rfl⟩ : hours = hours' ∧ minutes = minutes' := by omega
        rfl

theorem Stamp.SameInstant.named_eq {t' : Stamp} (hsame : t.SameInstant t') (h : t.Accepted)
    (h' : t'.Accepted) : t.named h = t'.named h' :=
  (names_iff h' _).mp ((hsame.day _).mp ((names_iff h _).mpr rfl))

theorem Stamp.value_eq_iff {t' : Stamp} (h : t.Accepted) (h' : t'.Accepted) :
    t.value h = t'.value h' ↔ t.SameInstant t' := by
  constructor
  · intro heq
    obtain ⟨hyear, hmonth, hday, hhour, hminute, hsecond, hnanos, hoffset⟩ := DateTime.mk.inj heq
    have hbounds := named_bounds h
    have hbounds' := named_bounds h'
    have hyears : (t.named h).year = (t'.named h').year := by
      unfold asI32 at hyear
      omega
    have hnamed : t.named h = t'.named h' := Date.ext hyears hmonth hday
    refine ⟨fun date => ?_, hhour, hminute, hsecond, hnanos, hoffset⟩
    rw [names_iff h, names_iff h', hnamed]
  · intro hsame
    simp only [value, hsame.named_eq h h', hsame.hour, hsame.minute, hsame.second, hsame.nanosecond,
      hsame.offset]

theorem next_injective : Function.Injective Date.next := by
  intro date date' h
  have hnumber := congrArg Date.number h
  rw [Date.number_next, Date.number_next] at hnumber
  exact Date.number_injective (by omega)

theorem Stamp.date_eq_of_named {t' : Stamp} (h : t.Accepted) (h' : t'.Accepted)
    (hnamed : t.named h = t'.named h') (hboth : t.hour = 24 ↔ t'.hour = 24) : t.date h = t'.date h' := by
  unfold named at hnamed
  by_cases hmidnight : t.hour = 24
  · rw [if_pos hmidnight, if_pos (hboth.mp hmidnight)] at hnamed
    exact next_injective hnamed
  · rwa [if_neg hmidnight, if_neg fun hmidnight' => hmidnight (hboth.mpr hmidnight')] at hnamed

theorem Stamp.SameInstant.respelled {t' : Stamp} (hsame : t.SameInstant t') (h : t.Accepted)
    (h' : t'.Accepted) (hzero : ¬t.ZeroRespelled t') : t.Respelled t' := by
  refine ⟨hsame.day, hsame.hour, hsame.minute, hsame.second, hsame.nanosecond, fun hboth => ?_, ?_⟩
  · by_contra hsign
    refine hzero (.inr ⟨?_, hboth, hsign⟩)
    have hyears : t.signedYear = t'.signedYear :=
      congrArg Date.year (date_eq_of_named h h' (hsame.named_eq h h') hboth)
    unfold signedYear at hyears
    cases hn : t.negative <;> cases hn' : t'.negative <;> simp_all
  · by_contra hoffset
    refine hoffset (OffsetText.eq_of_minutesEast h.offset h'.offset hsame.offset fun hutc => ?_)
    exact hzero (.inl ⟨hutc, hoffset⟩)

theorem distinguished_iff (text text' : String) : Distinguished text text' ↔ ¬RespellsZero text text' := by
  constructor
  · rintro hdistinct ⟨t, t', h, htext, h', htext', hsame, hzero⟩
    have hparse := parse_of_accepted h htext
    rw [(Stamp.value_eq_iff h h').mpr hsame] at hparse
    obtain ⟨s, s', hs, hstext, hs', hstext', hrespelled⟩ :=
      hdistinct _ hparse (parse_of_accepted h' htext')
    obtain rfl := stamp_unique h.toWritten hs htext hstext
    obtain rfl := stamp_unique h'.toWritten hs' htext' hstext'
    cases hzero with
    | inl hoffset => exact hoffset.2 hrespelled.offset
    | inr hyear => exact hyear.2.2 (hrespelled.sign hyear.2.1)
  · intro hnot d hparse hparse'
    obtain ⟨t, h, htext, rfl⟩ := exists_of_parse hparse
    obtain ⟨t', h', htext', hvalue⟩ := exists_of_parse hparse'
    have hsame := (Stamp.value_eq_iff h h').mp hvalue
    refine ⟨t, t', h.toWritten, htext, h'.toWritten, htext', hsame.respelled h h' fun hzero => ?_⟩
    exact hnot ⟨t, t', h, htext, h', htext', hsame, hzero⟩

/-- The parser is exact on a text unless it ends the last day of the last year, and tells two texts apart
unless they spell a zero in two ways. -/
theorem xs_date_time_exact_iff (text text' : String) :
    (ReadsExactly text ↔ ¬EndsLastDay text) ∧ (Distinguished text text' ↔ ¬RespellsZero text text') :=
  ⟨readsExactly_iff text, distinguished_iff text text'⟩

/-- The last midnight is read as one of four billion years before, which is not read back; and zero is
spelled in two ways, as an offset and as a year. -/
theorem xs_date_time_inexact : ¬ReadsExactly "2147483647-12-31T24:00:00Z" ∧
      ¬Distinguished "2026-09-05T08:15:00Z" "2026-09-05T08:15:00+00:00" ∧
      ¬Distinguished "0000-01-01T00:00:00Z" "-0000-01-01T00:00:00Z" := by
  have hstamps : ∀ {text text' : String} (s s' : Stamp) (d : DateTime), readStamp text = some s →
      readStamp text' = some s' → parseXsDateTime text = some d → parseXsDateTime text' = some d →
      Distinguished text text' → s.Respelled s' := by
    intro text text' s s' d hs hs' hparse hparse' h
    obtain ⟨t, t', ht, htext, ht', htext', hrespelled⟩ := h d hparse hparse'
    obtain rfl := Option.some.inj (hs.symm.trans (readStamp_of_text ht htext))
    obtain rfl := Option.some.inj (hs'.symm.trans (readStamp_of_text ht' htext'))
    exact hrespelled
  refine ⟨fun h => ?_, fun h => ?_, fun h => ?_⟩
  · have hback := (h ⟨-2 ^ 31, 1, 1, 0, 0, 0, 0, some 0⟩ (by decide)).2
    have hrefused : parseXsDateTime (DateTime.format ⟨-2 ^ 31, 1, 1, 0, 0, 0, 0, some 0⟩) = none := by decide
    rw [hrefused] at hback
    cases hback
  · have hrespelled := hstamps ⟨false, 2026, 9, 5, 8, 15, 0, none, .zulu⟩
      ⟨false, 2026, 9, 5, 8, 15, 0, none, .signed false 0 0⟩ ⟨2026, 9, 5, 8, 15, 0, 0, some 0⟩
      (by decide) (by decide) (by decide) (by decide) h
    exact absurd hrespelled.offset (by decide)
  · have hrespelled := hstamps ⟨false, 0, 1, 1, 0, 0, 0, none, .zulu⟩
      ⟨true, 0, 1, 1, 0, 0, 0, none, .zulu⟩ ⟨0, 1, 1, 0, 0, 0, 0, some 0⟩
      (by decide) (by decide) (by decide) (by decide) h
    exact absurd (hrespelled.sign (by decide)) (by decide)

end Eebus.Model
