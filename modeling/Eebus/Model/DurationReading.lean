import Eebus.Library.Runs
import Eebus.Model.DurationText

/-!
What the duration parser makes of a text. It knows no positions: it takes any number of components in
each half of the text, one after the other. `Reading` is a text cut into its components, and both loops
of the parser are sums over them.
-/

namespace Eebus.Model

open Eebus.Library

abbrev Run := List Char × Char

def isUnit (c : Char) : Bool := !(c.isDigit || c == '.')

def whole (digits : List Char) : Bool := !digits.isEmpty && digits.all Char.isDigit

theorem parseU64_eq (digits : List Char) : parseU64 digits =
      if whole digits = true ∧ numberOf digits < 2 ^ 64 then some (numberOf digits) else none := by
  simp only [parseU64, foldl_digits, whole, numberOf]
  by_cases hempty : digits.isEmpty = true
  · simp [hempty]
  · by_cases hdigits : digits.all Char.isDigit = true
    · simp [hempty, hdigits]
    · simp [hempty, hdigits]

theorem takeU64_eq (number : List Char) : takeU64 number =
      if whole number = true ∧ numberOf number < 2 ^ 64 then some (numberOf number) else none := by
  unfold takeU64
  by_cases hpoint : number.contains '.' = true
  · have hnot : ¬whole number = true := by
      intro hwhole
      simp only [whole, Bool.and_eq_true, List.all_eq_true] at hwhole
      exact absurd (hwhole.2 '.' (by simpa using hpoint)) (by decide)
    rw [if_pos hpoint, if_neg fun h => hnot h.1]
  · rw [if_neg hpoint, parseU64_eq]

theorem addComponent_eq (secs : Nat) (number : List Char) {unit : Nat} (hunit : 0 < unit) :
    (takeU64 number).bind (addSeconds secs · unit) =
      if whole number = true ∧ secs + numberOf number * unit < 2 ^ 64 then
        some (secs + numberOf number * unit) else none := by
  have hle : numberOf number ≤ numberOf number * unit := Nat.le_mul_of_pos_right _ hunit
  rw [takeU64_eq]
  by_cases hwhole : whole number = true
  · by_cases hfits : secs + numberOf number * unit < 2 ^ 64
    · rw [if_pos ⟨hwhole, by omega⟩, if_pos ⟨hwhole, hfits⟩, Option.bind_some, addSeconds_eq hfits]
    · refine Eq.trans ?_ (if_neg fun h => hfits h.2).symm
      split
      · rw [Option.bind_some, addSeconds, if_neg fun h => hfits h.2]
      · rfl
  · rw [if_neg fun h => hwhole h.1, if_neg fun h => hwhole h.1]
    rfl

def wholeOf (number : List Char) : List Char := number.takeWhile (· ≠ '.')

def fractionOf (number : List Char) : Option (List Char) :=
  match number.dropWhile (· ≠ '.') with
  | [] => none
  | _ :: frac => some frac

def nanosOf (frac : List Char) : Nat := numberOf ((frac ++ List.replicate 9 '0').take 9)

def truncated (digits : List Char) : Nat := numberOf digits * 10 ^ 9 / 10 ^ digits.length

theorem nanosOf_eq_truncated {digits : List Char} (h : whole digits = true) :
    nanosOf digits = truncated digits := by
  have hall : (digits ++ List.replicate 9 '0').all Char.isDigit = true := by
    rw [List.all_append, (Bool.and_eq_true_iff.mp h).2, Bool.true_and]
    decide
  have hpadded : numberOf (digits ++ List.replicate 9 '0') = numberOf digits * 10 ^ 9 := by
    have hzeros : numberOf (List.replicate 9 '0') = 0 := Nat.ofDigitChars_replicate_zero
    rw [numberOf_append, List.length_replicate, hzeros, Nat.add_zero]
  have hsplit : (digits ++ List.replicate 9 '0').take 9 ++ (digits ++ List.replicate 9 '0').drop 9 =
      digits ++ List.replicate 9 '0' := List.take_append_drop _ _
  have hlength : ((digits ++ List.replicate 9 '0').drop 9).length = digits.length := by simp
  have hrest : numberOf ((digits ++ List.replicate 9 '0').drop 9) < 10 ^ digits.length := by
    rw [← hlength]
    exact numberOf_lt (List.all_eq_true.mpr fun c hc => List.all_eq_true.mp hall c (List.mem_of_mem_drop hc))
  have hsum : numberOf digits * 10 ^ 9 = nanosOf digits * 10 ^ digits.length +
      numberOf ((digits ++ List.replicate 9 '0').drop 9) := by
    rw [← hpadded, ← hlength]
    exact (congrArg numberOf hsplit).symm.trans (numberOf_append _ _)
  rw [truncated, hsum, Nat.add_comm, Nat.add_mul_div_right _ _ (Nat.pow_pos (by decide)),
    Nat.div_eq_of_lt hrest, Nat.zero_add]

/-- What the parser takes for a number of seconds: its whole part or its fraction may be missing, and
what stands behind the ninth digit of the fraction is not looked at. -/
def secondsNumber (number : List Char) : Bool :=
  (wholeOf number).all Char.isDigit &&
    match fractionOf number with
    | none => !(wholeOf number).isEmpty
    | some frac => !((wholeOf number).isEmpty && frac.isEmpty) && (frac.take 9).all Char.isDigit

theorem nanosOf_lt {frac : List Char} (h : (frac.take 9).all Char.isDigit = true) :
    nanosOf frac < 10 ^ 9 ∧ ((frac ++ List.replicate 9 '0').take 9).all Char.isDigit = true := by
  have hdigits : ((frac ++ List.replicate 9 '0').take 9).all Char.isDigit = true := by
    rw [List.take_append, List.all_append, h, Bool.true_and]
    refine List.all_eq_true.mpr fun c hc => ?_
    rw [List.eq_of_mem_replicate (List.mem_of_mem_take hc)]
    rfl
  have hlt := numberOf_lt hdigits
  rw [show ((frac ++ List.replicate 9 '0').take 9).length = 9 by simp] at hlt
  exact ⟨hlt, hdigits⟩

theorem all_take_of_padded {frac : List Char}
    (h : ((frac ++ List.replicate 9 '0').take 9).all Char.isDigit = true) :
    (frac.take 9).all Char.isDigit = true := by
  rw [List.take_append, List.all_append, Bool.and_eq_true] at h
  exact h.1

theorem parse_nanos (frac : List Char) : parseU64 ((frac ++ List.replicate 9 '0').take 9) =
      if (frac.take 9).all Char.isDigit = true then some (nanosOf frac) else none := by
  rw [parseU64_eq]
  by_cases hdigits : (frac.take 9).all Char.isDigit = true
  · obtain ⟨hlt, hall⟩ := nanosOf_lt hdigits
    have hwhole : whole ((frac ++ List.replicate 9 '0').take 9) = true := by
      rw [whole, hall, Bool.and_true]
      simp [List.take_eq_nil_iff]
    rw [if_pos hdigits, if_pos ⟨hwhole, lt_trans hlt (by decide)⟩]
    rfl
  · refine (if_neg fun h => ?_).trans (if_neg hdigits).symm
    simp only [whole, Bool.and_eq_true] at h
    exact hdigits (all_take_of_padded h.1.2)

theorem addWhole_eq (secs : Nat) {number : List Char} (h : ¬number.isEmpty = true) :
    (parseU64 number).bind (addSeconds secs · 1) =
      if number.all Char.isDigit = true ∧ secs + numberOf number < 2 ^ 64 then
        some (secs + numberOf number) else none := by
  have hwhole : whole number = number.all Char.isDigit := by simp [whole, h]
  rw [parseU64_eq, hwhole]
  by_cases hdigits : number.all Char.isDigit = true
  · by_cases hfits : secs + numberOf number < 2 ^ 64
    · rw [if_pos ⟨hdigits, by omega⟩, if_pos ⟨hdigits, hfits⟩, Option.bind_some,
        addSeconds_eq (by omega), Nat.mul_one]
    · refine Eq.trans ?_ (if_neg fun h => hfits h.2).symm
      split
      · rw [Option.bind_some, addSeconds, if_neg fun h => hfits (by omega)]
      · rfl
  · rw [if_neg fun h => hdigits h.1, if_neg fun h => hdigits h.1]
    rfl

theorem secondsPart_eq {secs : Nat} (hsecs : secs < 2 ^ 64) (number : List Char) (nanos : Nat) :
    secondsPart number secs nanos =
      if secondsNumber number = true ∧ secs + numberOf (wholeOf number) < 2 ^ 64 then
        some (secs + numberOf (wholeOf number), ((fractionOf number).map nanosOf).getD nanos) else none := by
  have hadd : (if (wholeOf number).isEmpty then some secs
      else (parseU64 (wholeOf number)).bind (addSeconds secs · 1)) =
        if (wholeOf number).all Char.isDigit = true ∧ secs + numberOf (wholeOf number) < 2 ^ 64 then
          some (secs + numberOf (wholeOf number)) else none := by
    by_cases hempty : (wholeOf number).isEmpty = true
    · have hnil : wholeOf number = [] := by simpa using hempty
      rw [if_pos hempty, hnil]
      exact (if_pos ⟨rfl, hsecs⟩).symm
    · rw [if_neg hempty, addWhole_eq secs hempty]
  cases hdrop : number.dropWhile (· ≠ '.') with
  | nil =>
    have hfraction : fractionOf number = none := by simp only [fractionOf, hdrop]
    have hpart : secondsPart number secs nanos =
        if (wholeOf number).isEmpty then none
        else ((parseU64 (wholeOf number)).bind (addSeconds secs · 1)).bind fun s => some (s, nanos) := by
      simp only [secondsPart, hdrop, Option.bind_eq_bind, Option.bind_assoc]
      rfl
    rw [hpart]
    by_cases hempty : (wholeOf number).isEmpty = true
    · simp [secondsNumber, hfraction, hempty]
    · rw [if_neg hempty, addWhole_eq secs hempty]
      by_cases hread : (wholeOf number).all Char.isDigit = true ∧ secs + numberOf (wholeOf number) < 2 ^ 64
      · rw [if_pos hread, if_pos ⟨by simp [secondsNumber, hfraction, hempty, hread.1], hread.2⟩, hfraction]
        rfl
      · rw [if_neg hread, if_neg fun h => hread ⟨(Bool.and_eq_true_iff.mp h.1).1, h.2⟩]
        rfl
  | cons point frac =>
    have hfraction : fractionOf number = some frac := by simp only [fractionOf, hdrop]
    have hpart : secondsPart number secs nanos =
        if (wholeOf number).isEmpty && frac.isEmpty then none
        else (if (wholeOf number).isEmpty then some secs
            else (parseU64 (wholeOf number)).bind (addSeconds secs · 1)).bind fun s =>
          (parseU64 ((frac ++ List.replicate 9 '0').take 9)).bind fun n => some (s, n) := by
      simp only [secondsPart, hdrop, Option.bind_eq_bind]
      change (if ((wholeOf number).isEmpty && frac.isEmpty) = true then none else _) = _
      split
      · rfl
      · change (if (wholeOf number).isEmpty = true then _ else _) = _
        split
        · rfl
        · rw [Option.bind_assoc]
          rfl
    rw [hpart, hadd, parse_nanos]
    by_cases hempty : ((wholeOf number).isEmpty && frac.isEmpty) = true
    · rw [if_pos hempty, if_neg]
      simp [secondsNumber, hfraction, hempty]
    · rw [if_neg hempty]
      by_cases hread : (wholeOf number).all Char.isDigit = true ∧ secs + numberOf (wholeOf number) < 2 ^ 64
      · rw [if_pos hread, Option.bind_some]
        by_cases hnanos : (frac.take 9).all Char.isDigit = true
        · rw [if_pos hnanos, if_pos ⟨by simp [secondsNumber, hfraction, hempty, hread.1, hnanos], hread.2⟩,
            hfraction]
          rfl
        · rw [if_neg hnanos, Option.bind_none]
          exact (if_neg (by simp [secondsNumber, hfraction, hnanos])).symm
      · rw [if_neg hread, Option.bind_none]
        exact (if_neg fun h => hread ⟨(Bool.and_eq_true_iff.mp h.1).1, h.2⟩).symm

def dateUnit : Char → Nat
  | 'W' => 604800
  | 'D' => 86400
  | _ => 0

def timeUnit : Char → Nat
  | 'H' => 3600
  | 'M' => 60
  | _ => 0

def dateRun (r : Run) : Bool := decide (0 < dateUnit r.2) && whole r.1

def timeRun (r : Run) : Bool :=
  if r.2 = 'S' then secondsNumber r.1 else decide (0 < timeUnit r.2) && whole r.1

def dateSeconds (r : Run) : Nat := numberOf r.1 * dateUnit r.2

def timeSeconds (r : Run) : Nat :=
  if r.2 = 'S' then numberOf (wholeOf r.1) else numberOf r.1 * timeUnit r.2

def timeNanos (nanos : Nat) (r : Run) : Nat :=
  if r.2 = 'S' then ((fractionOf r.1).map nanosOf).getD nanos else nanos

def dateStep : Nat × Nat → Run → Option (Nat × Nat) :=
  addStep dateRun dateSeconds (fun components _ => components + 1) (2 ^ 64)

def timeStep : Nat × Nat × Nat → Run → Option (Nat × Nat × Nat) :=
  addStep timeRun timeSeconds (fun s r => (timeNanos s.1 r, s.2 + 1)) (2 ^ 64)

theorem isUnit_false {c : Char} (h : isUnit c = false) : (c.isDigit || c == '.') = true := by
  simpa only [isUnit, Bool.not_eq_false'] using h

theorem isUnit_true {c : Char} (h : isUnit c = true) : (c.isDigit || c == '.') = false := by
  simpa only [isUnit, Bool.not_eq_true'] using h

theorem dateStep_unit {c : Char} {unit : Nat} (hunit : dateUnit c = unit) (hpos : 0 < unit)
    (s : Nat × Nat) (number : List Char) :
    dateStep s (number, c) =
      ((takeU64 number).bind (addSeconds s.1 · unit)).bind fun total => some (total, s.2 + 1) := by
  rw [addComponent_eq s.1 number hpos]
  simp only [dateStep, addStep, dateRun, dateSeconds, hunit, hpos, decide_true, Bool.true_and]
  split <;> rfl

theorem dateStep_none {c : Char} (hunit : dateUnit c = 0) (s : Nat × Nat) (number : List Char) :
    dateStep s (number, c) = none := by
  simp [dateStep, addStep, dateRun, hunit]

theorem datePart_eq (chars : List Char) {secs components : Nat} (hsecs : secs < 2 ^ 64) :
    datePart chars [] secs components =
      ((runs isUnit [] chars).1.foldlM dateStep (secs, components)).bind fun s =>
        if (runs isUnit [] chars).2.isEmpty then some s else none := by
  refine loop_eq_runs (fun chars number s => datePart chars number s.1 s.2)
    (fun s => s.1 < 2 ^ 64) ?_ ?_ ?_ ?_ chars [] (s := (secs, components)) hsecs
  · exact fun s r s' _ h => addStep_lt h
  · exact fun number s => rfl
  · intro c chars number s _ hc
    rw [datePart, isUnit_true hc, if_neg Bool.false_ne_true]
    by_cases hweek : c = 'W'
    · subst hweek
      rw [if_pos (by decide), dateStep_unit (show dateUnit 'W' = 604800 from rfl) (by decide)]
      simp only [Option.bind_eq_bind, Option.bind_assoc, Option.bind_some]
    by_cases hday : c = 'D'
    · subst hday
      rw [if_neg (by decide), if_pos (by decide), dateStep_unit (show dateUnit 'D' = 86400 from rfl) (by decide)]
      simp only [Option.bind_eq_bind, Option.bind_assoc, Option.bind_some]
    have hnone : dateUnit c = 0 := by
      unfold dateUnit
      split <;> simp_all
    rw [if_neg (by simpa using hweek), if_neg (by simpa using hday), dateStep_none hnone]
    rfl
  · intro c chars number s hc
    rw [datePart, if_pos (isUnit_false hc)]

theorem timeStep_unit {c : Char} {unit : Nat} (hunit : timeUnit c = unit) (hpos : 0 < unit)
    (hplain : c ≠ 'S') (s : Nat × Nat × Nat) (number : List Char) :
    timeStep s (number, c) =
      ((takeU64 number).bind (addSeconds s.1 · unit)).bind fun total => some (total, s.2.1, s.2.2 + 1) := by
  rw [addComponent_eq s.1 number hpos]
  simp only [timeStep, addStep, timeRun, timeSeconds, timeNanos, if_neg hplain, hunit, hpos, decide_true,
    Bool.true_and]
  split <;> rfl

theorem timeStep_seconds {s : Nat × Nat × Nat} (hs : s.1 < 2 ^ 64) (number : List Char) :
    timeStep s (number, 'S') =
      (secondsPart number s.1 s.2.1).bind fun read => some (read.1, read.2, s.2.2 + 1) := by
  rw [secondsPart_eq hs]
  simp only [timeStep, addStep, timeRun, timeSeconds, timeNanos, if_true]
  split <;> rfl

theorem timeStep_none {c : Char} (hunit : timeUnit c = 0) (hplain : c ≠ 'S') (s : Nat × Nat × Nat)
    (number : List Char) : timeStep s (number, c) = none := by
  simp [timeStep, addStep, timeRun, hunit, hplain]

theorem timePart_eq (chars : List Char) {secs nanos components : Nat} (hsecs : secs < 2 ^ 64) :
    timePart chars [] secs nanos components =
      ((runs isUnit [] chars).1.foldlM timeStep (secs, nanos, components)).bind fun s =>
        if (runs isUnit [] chars).2.isEmpty then some s else none := by
  refine loop_eq_runs (fun chars number s => timePart chars number s.1 s.2.1 s.2.2)
    (fun s => s.1 < 2 ^ 64) ?_ ?_ ?_ ?_ chars [] (s := (secs, nanos, components)) hsecs
  · exact fun s r s' _ h => addStep_lt h
  · exact fun number s => rfl
  · intro c chars number s hs hc
    rw [timePart, isUnit_true hc, if_neg Bool.false_ne_true]
    by_cases hhour : c = 'H'
    · subst hhour
      rw [if_pos (by decide), timeStep_unit (show timeUnit 'H' = 3600 from rfl) (by decide) (by decide)]
      simp only [Option.bind_eq_bind, Option.bind_assoc, Option.bind_some]
    by_cases hminute : c = 'M'
    · subst hminute
      rw [if_neg (by decide), if_pos (by decide), timeStep_unit (show timeUnit 'M' = 60 from rfl) (by decide) (by decide)]
      simp only [Option.bind_eq_bind, Option.bind_assoc, Option.bind_some]
    by_cases hsecond : c = 'S'
    · subst hsecond
      rw [if_neg (by decide), if_neg (by decide), if_pos (by decide), timeStep_seconds hs]
      simp only [Option.bind_eq_bind, Option.bind_assoc, Option.bind_some]
    have hnone : timeUnit c = 0 := by
      unfold timeUnit
      split <;> simp_all
    rw [if_neg (by simpa using hhour), if_neg (by simpa using hminute), if_neg (by simpa using hsecond),
      timeStep_none hnone hsecond]
    rfl
  · intro c chars number s hc
    rw [timePart, if_pos (isUnit_false hc)]

/-- A text cut into its components, with no regard to which they are. -/
structure Reading where
  negative : Bool
  date : List Run
  time : Option (List Run)
deriving DecidableEq

namespace Reading

def text (w : Reading) : List Char :=
  (if w.negative then ['-'] else []) ++ 'P' :: (joinRuns w.date ++
    match w.time with
    | none => []
    | some time => 'T' :: joinRuns time)

def components (w : Reading) : Nat := w.date.length + (w.time.getD []).length

def seconds (w : Reading) : Nat :=
  (w.date.map dateSeconds).sum + ((w.time.getD []).map timeSeconds).sum

def nanos (w : Reading) : Nat := (w.time.getD []).foldl timeNanos 0

/-- What the parser asks of the components: that it knows each of them, that there is one, and that
the seconds fit. Neither their order nor their number is asked for. -/
def accepted (w : Reading) : Bool :=
  w.date.all dateRun && (w.time.getD []).all timeRun && decide (0 < w.components) &&
    decide (w.seconds < 2 ^ 64)

/-- The components stand in order and once each, a `T` is followed by one, and the seconds are written
`n` or `n.m`. -/
def inOrder (w : Reading) : Bool :=
  decide ((w.date.map (·.2)).Sublist ['W', 'D']) &&
    match w.time with
    | none => true
    | some time => !time.isEmpty && decide ((time.map (·.2)).Sublist ['H', 'M', 'S']) &&
        time.all fun r => r.2 ≠ 'S' || (whole (wholeOf r.1) && (fractionOf r.1).all whole)

end Reading

/-- The text cut at its `T`, and both halves behind each unit; a half with digits left over is none. -/
def readRuns (negative : Bool) : List Char → Option Reading
  | 'P' :: rest =>
    let date := runs isUnit [] (rest.takeWhile (· ≠ 'T'))
    if date.2.isEmpty then
      match rest.dropWhile (· ≠ 'T') with
      | [] => some ⟨negative, date.1, none⟩
      | _ :: time =>
        if (runs isUnit [] time).2.isEmpty then some ⟨negative, date.1, some (runs isUnit [] time).1⟩
        else none
    else none
  | _ => none

def readDuration (text : String) : Option Reading :=
  match text.toList with
  | '-' :: rest => readRuns true rest
  | chars => readRuns false chars

theorem foldl_components (rs : List Run) (n : Nat) :
    rs.foldl (fun components _ => components + 1) n = n + rs.length := by
  induction rs generalizing n with
  | nil => rfl
  | cons r rs ih => rw [List.foldl_cons, ih, List.length_cons, Nat.add_assoc, Nat.add_comm 1]

theorem foldl_timeNext (rs : List Run) (s : Nat × Nat) :
    rs.foldl (fun s r => (timeNanos s.1 r, s.2 + 1)) s = (rs.foldl timeNanos s.1, s.2 + rs.length) := by
  induction rs generalizing s with
  | nil => rfl
  | cons r rs ih => rw [List.foldl_cons, ih, List.foldl_cons, List.length_cons, Nat.add_assoc, Nat.add_comm 1]

theorem foldlM_dateStep (rs : List Run) {secs components : Nat} (hsecs : secs < 2 ^ 64) :
    rs.foldlM dateStep (secs, components) =
      if rs.all dateRun = true ∧ secs + (rs.map dateSeconds).sum < 2 ^ 64 then
        some (secs + (rs.map dateSeconds).sum, components + rs.length) else none := by
  rw [dateStep, foldlM_addStep rs hsecs]
  simp only [foldl_components]

theorem foldlM_timeStep (rs : List Run) {secs nanos components : Nat} (hsecs : secs < 2 ^ 64) :
    rs.foldlM timeStep (secs, nanos, components) =
      if rs.all timeRun = true ∧ secs + (rs.map timeSeconds).sum < 2 ^ 64 then
        some (secs + (rs.map timeSeconds).sum, rs.foldl timeNanos nanos, components + rs.length)
      else none := by
  rw [timeStep, foldlM_addStep rs hsecs]
  simp only [foldl_timeNext]

theorem readRuns_of_ne {negative : Bool} {chars : List Char} (h : ∀ rest, chars = 'P' :: rest → False) :
    readRuns negative chars = none := by
  rw [readRuns]
  exact h

theorem unsignedParts_eq (negative : Bool) (chars : List Char) :
    unsignedParts negative chars = (readRuns negative chars).bind fun w =>
      if w.date.all dateRun = true ∧ (w.time.getD []).all timeRun = true ∧ w.seconds < 2 ^ 64 then
        some (w.negative, w.seconds, w.nanos, w.components) else none := by
  by_cases hmark : ∃ rest, chars = 'P' :: rest
  case neg =>
    have hnone : ∀ rest, chars = 'P' :: rest → False := fun rest h => hmark ⟨rest, h⟩
    rw [unsignedParts_of_ne hnone, readRuns_of_ne hnone]
    rfl
  obtain ⟨rest, rfl⟩ := hmark
  rw [unsignedParts, readRuns, datePart_eq _ (by decide), foldlM_dateStep _ (by decide)]
  generalize runs isUnit [] (rest.takeWhile (· ≠ 'T')) = date
  by_cases hleft : date.2.isEmpty = true
  case neg =>
    rw [if_neg hleft]
    split <;> simp
  simp only [hleft, if_true, Option.bind_eq_bind, Option.bind_some, Option.bind_assoc, Nat.zero_add]
  by_cases hdate : date.1.all dateRun = true ∧ (date.1.map dateSeconds).sum < 2 ^ 64
  case neg =>
    -- What the date part does not hold, the whole does not hold either.
    have hwhole : ∀ w : Reading, w.date = date.1 →
        ¬(w.date.all dateRun = true ∧ (w.time.getD []).all timeRun = true ∧ w.seconds < 2 ^ 64) := by
      intro w hw h
      refine hdate ⟨hw ▸ h.1, lt_of_le_of_lt ?_ h.2.2⟩
      rw [Reading.seconds, hw]
      exact Nat.le_add_right _ _
    rw [if_neg hdate, Option.bind_none]
    cases rest.dropWhile (· ≠ 'T') with
    | nil => exact (if_neg (hwhole ⟨negative, date.1, none⟩ rfl)).symm
    | cons _ time =>
      dsimp only
      split
      · exact (if_neg (hwhole ⟨negative, date.1, some _⟩ rfl)).symm
      · rfl
  rw [if_pos hdate, Option.bind_some]
  cases rest.dropWhile (· ≠ 'T') with
  | nil =>
    have hread : date.1.all dateRun = true ∧ ([] : List Run).all timeRun = true ∧
        (date.1.map dateSeconds).sum < 2 ^ 64 := ⟨hdate.1, rfl, hdate.2⟩
    exact (if_pos hread).symm
  | cons _ time =>
    dsimp only
    rw [timePart_eq _ hdate.2, foldlM_timeStep _ hdate.2]
    generalize runs isUnit [] time = read
    by_cases hrest : read.2.isEmpty = true
    · rw [hrest, if_pos rfl]
      by_cases htime : read.1.all timeRun = true ∧
          (date.1.map dateSeconds).sum + (read.1.map timeSeconds).sum < 2 ^ 64
      · rw [if_pos htime]
        exact (if_pos ⟨hdate.1, htime.1, htime.2⟩).symm
      · rw [if_neg htime]
        exact (if_neg fun h => htime h.2).symm
    · rw [if_neg hrest]
      split <;> simp

theorem readDuration_of_ne {text : String} (h : ∀ rest, text.toList = '-' :: rest → False) :
    readDuration text = readRuns false text.toList := by
  unfold readDuration
  split
  case h_1 rest hminus => exact absurd hminus fun hminus => h rest hminus
  case h_2 => rfl

theorem durationParts_eq (text : String) :
    durationParts text = (readDuration text).bind fun w =>
      if w.date.all dateRun = true ∧ (w.time.getD []).all timeRun = true ∧ w.seconds < 2 ^ 64 then
        some (w.negative, w.seconds, w.nanos, w.components) else none := by
  by_cases hminus : ∃ rest, text.toList = '-' :: rest
  · obtain ⟨rest, hminus⟩ := hminus
    simp only [durationParts, readDuration, hminus]
    exact unsignedParts_eq true rest
  · have hplain : ∀ rest, text.toList = '-' :: rest → False := fun rest h => hminus ⟨rest, h⟩
    rw [durationParts_of_ne hplain, readDuration_of_ne hplain]
    exact unsignedParts_eq false _

theorem parse_eq_read (text : String) :
    parseIso8601Duration text = (readDuration text).bind fun w =>
      if w.accepted then some (if w.negative then 0 else fromSecs w.seconds + w.nanos) else none := by
  rw [parse_eq_parts, durationParts_eq]
  cases readDuration text with
  | none => rfl
  | some w =>
    simp only [Option.bind_some]
    by_cases hread : w.date.all dateRun = true ∧ (w.time.getD []).all timeRun = true ∧ w.seconds < 2 ^ 64
    · rw [if_pos hread, Option.bind_some]
      by_cases hnone : w.components = 0
      · rw [if_pos hnone, if_neg]
        simp [Reading.accepted, hnone]
      · have haccepted : w.accepted = true := by
          rw [Reading.accepted, hread.1, hread.2.1, decide_eq_true hread.2.2,
            decide_eq_true (Nat.pos_of_ne_zero hnone)]
          rfl
        rw [if_neg hnone, if_pos haccepted]
        cases w.negative <;> rfl
    · rw [if_neg hread, Option.bind_none, if_neg]
      simp only [Reading.accepted, Bool.and_eq_true, decide_eq_true_eq]
      exact fun h => hread ⟨h.1.1.1, h.1.1.2, h.2⟩

theorem isUnit_isDigit {c : Char} (h : c.isDigit = true) : isUnit c = false := by
  rw [isUnit, h]
  rfl

/-- Components the parser may take: their numbers hold no unit, and their units are none of `0-9.`. -/
def Cut (rs : List Run) : Prop := ∀ r ∈ rs, (∀ c ∈ r.1, isUnit c = false) ∧ isUnit r.2 = true

theorem join_of_isEmpty {chars : List Char} (h : (runs isUnit [] chars).2.isEmpty = true) :
    joinRuns (runs isUnit [] chars).1 = chars := by
  have hjoin := join_runs isUnit [] chars
  rwa [List.isEmpty_iff.mp h, List.append_nil, List.nil_append] at hjoin

theorem text_of_readRuns {negative : Bool} {chars : List Char} {w : Reading}
    (h : readRuns negative chars = some w) :
    w.text = (if negative then ['-'] else []) ++ chars := by
  by_cases hmark : ∃ rest, chars = 'P' :: rest
  case neg =>
    rw [readRuns_of_ne fun rest h => hmark ⟨rest, h⟩] at h
    cases h
  obtain ⟨rest, rfl⟩ := hmark
  rw [readRuns] at h
  by_cases hdate : (runs isUnit [] (rest.takeWhile (· ≠ 'T'))).2.isEmpty = true
  case neg =>
    rw [if_neg hdate] at h
    cases h
  rw [if_pos hdate] at h
  cases hdrop : rest.dropWhile (· ≠ 'T') with
  | nil =>
    have hrest : rest.takeWhile (· ≠ 'T') ++ rest.dropWhile (· ≠ 'T') = rest :=
      List.takeWhile_append_dropWhile
    rw [hdrop, List.append_nil] at hrest
    rw [hdrop] at h
    obtain rfl := Option.some.inj h
    rw [Reading.text, join_of_isEmpty hdate, hrest]
    simp only [List.append_nil]
  | cons mark time =>
    obtain ⟨rfl, hrest⟩ := dropWhile_ne_eq_cons hdrop
    rw [hdrop] at h
    by_cases htime : (runs isUnit [] time).2.isEmpty = true
    · obtain rfl := Option.some.inj ((if_pos htime).symm.trans h)
      simp only [Reading.text, join_of_isEmpty hdate, join_of_isEmpty htime, hrest]
    · cases (if_neg htime).symm.trans h

theorem text_of_read {text : String} {w : Reading} (h : readDuration text = some w) :
    w.text = text.toList := by
  unfold readDuration at h
  split at h
  case h_1 rest hminus => rw [hminus, text_of_readRuns h]; rfl
  case h_2 => rw [text_of_readRuns h]; rfl

theorem read_of_text {text : String} {w : Reading} (h : w.text = text.toList) (hdate : Cut w.date)
    (hmark : ∀ r ∈ w.date, r.2 ≠ 'T') (htime : ∀ time, w.time = some time → Cut time) :
    readDuration text = some w := by
  have hplain : ∀ c ∈ joinRuns w.date, c ≠ 'T' := by
    intro c hc
    obtain ⟨r, hr, hmem⟩ := List.mem_flatMap.mp hc
    cases List.mem_append.mp hmem with
    | inl hnumber =>
      rintro rfl
      exact absurd ((hdate r hr).1 'T' hnumber) (by decide)
    | inr hunit => exact List.mem_singleton.mp hunit ▸ hmark r hr
  have hread : ∀ negative, readRuns negative ('P' :: (joinRuns w.date ++
      match w.time with
      | none => []
      | some time => 'T' :: joinRuns time)) = some { w with negative := negative } := by
    intro negative
    cases ht : w.time with
    | none =>
      simp only [readRuns, List.append_nil, takeWhile_ne_of_plain hplain, dropWhile_ne_of_plain hplain,
        runs_join hdate, List.isEmpty_nil, if_true, ← ht]
    | some time =>
      simp only [readRuns, takeWhile_ne_append hplain, dropWhile_ne_append hplain, runs_join hdate,
        runs_join (htime time ht), List.isEmpty_nil, if_true, ← ht]
  unfold Reading.text at h
  cases hnegative : w.negative with
  | false =>
    rw [hnegative, if_neg Bool.false_ne_true, List.nil_append] at h
    rw [readDuration_of_ne (fun rest hminus => by rw [← h] at hminus; simp at hminus), ← h, hread,
      ← hnegative]
  | true =>
    rw [hnegative, if_pos rfl, List.singleton_append] at h
    simp only [readDuration, ← h]
    rw [hread, ← hnegative]

end Eebus.Model
