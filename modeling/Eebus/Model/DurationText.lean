import Eebus.Library.Separators
import Eebus.Model.Digits

/-! A duration survives being written and read. -/

namespace Eebus.Model

open Eebus.Library

theorem parseU64_digits (zeros n : Nat) (h : n < 2 ^ 64) :
    parseU64 (List.replicate zeros '0' ++ digitsOf n) = some n := by
  have hdigits : (List.replicate zeros '0' ++ digitsOf n).all Char.isDigit = true := by
    refine List.all_eq_true.mpr fun c hc => ?_
    cases List.mem_append.mp hc with
    | inl hzero => exact (List.eq_of_mem_replicate hzero).symm ▸ rfl
    | inr hdigit => exact isDigit_of_mem_digitsOf hdigit
  have hsome : (List.replicate zeros '0' ++ digitsOf n).isEmpty = false := by
    simp [digitsOf_ne_nil]
  have hvalue : (List.replicate zeros '0' ++ digitsOf n).foldl
      (fun n c => n * 10 + (c.toNat - '0'.toNat)) 0 = n := by
    rw [foldl_digits, Nat.ofDigitChars_append, Nat.ofDigitChars_replicate_zero, Nat.mul_zero,
      digitsOf_eq, Nat.ofDigitChars_ten_toDigits]
  simp only [parseU64, hdigits, hsome, hvalue, if_pos h]
  rfl

theorem takeU64_digits {n : Nat} (h : n < 2 ^ 64) : takeU64 (digitsOf n) = some n := by
  have hplain : (digitsOf n).contains '.' = false := by
    simpa using not_mem_digitsOf (n := n) (c := '.') rfl
  rw [takeU64, hplain]
  exact parseU64_digits 0 n h

variable {components nanos secs : Nat}

theorem addSeconds_eq {count unit : Nat} (h : secs + count * unit < 2 ^ 64) :
    addSeconds secs count unit = some (secs + count * unit) := by
  rw [addSeconds, if_pos ⟨by omega, h⟩]

def nineDigits (nanos : Nat) : List Char :=
  List.replicate (9 - (digitsOf nanos).length) '0' ++ digitsOf nanos

theorem length_nineDigits (h : nanos < 10 ^ 9) : (nineDigits nanos).length = 9 := by
  have hlength : (digitsOf nanos).length ≤ 9 := by
    rw [digitsOf_eq]
    exact (Nat.length_toDigits_le_iff (by decide) (by decide)).mpr h
  rw [nineDigits, List.length_append, List.length_replicate]
  omega

theorem fraction_eq (nanos : Nat) : fraction nanos = (nineDigits nanos).rdropWhile (· == '0') := rfl

theorem take_fraction (h : nanos < 10 ^ 9) :
    (fraction nanos ++ List.replicate 9 '0').take 9 = nineDigits nanos := by
  have hlength := length_nineDigits h
  have hsplit : fraction nanos ++ (nineDigits nanos).rtakeWhile (· == '0') = nineDigits nanos :=
    List.rdropWhile_append_rtakeWhile
  have hzeros : (nineDigits nanos).rtakeWhile (· == '0') =
      List.replicate ((nineDigits nanos).rtakeWhile (· == '0')).length '0' :=
    List.eq_replicate_of_mem fun c hc => by simpa using List.mem_rtakeWhile_imp hc
  have hsum : (fraction nanos).length + ((nineDigits nanos).rtakeWhile (· == '0')).length = 9 := by
    rw [← List.length_append, hsplit, hlength]
  have hkept : 9 - (fraction nanos).length = ((nineDigits nanos).rtakeWhile (· == '0')).length := by
    omega
  rw [List.take_append, List.take_of_length_le (by omega), hkept, List.take_replicate,
    Nat.min_eq_left (by omega), ← hzeros, hsplit]

theorem not_point_of_digitsOf (n : Nat) : ∀ c ∈ digitsOf n, c ≠ '.' := fun _ hc =>
  ne_of_isDigit (isDigit_of_mem_digitsOf hc) rfl

theorem secondsPart_whole {seconds : Nat} (h : secs + seconds < 2 ^ 64) :
    secondsPart (digitsOf seconds) secs nanos = some (secs + seconds, nanos) := by
  have hadded : addSeconds secs seconds 1 = some (secs + seconds * 1) := addSeconds_eq (by omega)
  rw [Nat.mul_one] at hadded
  have hread := parseU64_digits 0 seconds (by omega)
  rw [List.replicate_zero, List.nil_append] at hread
  simp only [secondsPart, takeWhile_ne_of_plain (not_point_of_digitsOf seconds),
    dropWhile_ne_of_plain (not_point_of_digitsOf seconds)]
  simp [digitsOf_ne_nil, hread, hadded]

theorem secondsPart_fraction {seconds read : Nat} (h : secs + seconds < 2 ^ 64)
    (hnanos : nanos < 10 ^ 9) :
    secondsPart (digitsOf seconds ++ '.' :: fraction nanos) secs read = some (secs + seconds, nanos) := by
  have hadded : addSeconds secs seconds 1 = some (secs + seconds * 1) := addSeconds_eq (by omega)
  rw [Nat.mul_one] at hadded
  have hread := parseU64_digits 0 seconds (by omega)
  rw [List.replicate_zero, List.nil_append] at hread
  have hfraction := parseU64_digits (9 - (digitsOf nanos).length) nanos (by omega)
  simp only [secondsPart, takeWhile_ne_append (not_point_of_digitsOf seconds),
    dropWhile_ne_append (not_point_of_digitsOf seconds)]
  rw [take_fraction hnanos]
  simp [digitsOf_ne_nil, hread, hadded, nineDigits, hfraction]

theorem datePart_collect (digits : List Char) (hdigits : ∀ c ∈ digits, c.isDigit = true)
    (rest number : List Char) (secs components : Nat) :
    datePart (digits ++ rest) number secs components = datePart rest (number ++ digits) secs components := by
  induction digits generalizing number with
  | nil => rw [List.nil_append, List.append_nil]
  | cons c digits ih =>
    rw [List.cons_append, datePart, hdigits c List.mem_cons_self, Bool.true_or, if_pos rfl,
      ih (fun c hc => hdigits c (List.mem_cons_of_mem _ hc)), List.append_assoc, List.singleton_append]

theorem timePart_collect (chars : List Char) (hchars : ∀ c ∈ chars, (c.isDigit || c == '.') = true)
    (rest number : List Char) (secs nanos components : Nat) :
    timePart (chars ++ rest) number secs nanos components =
      timePart rest (number ++ chars) secs nanos components := by
  induction chars generalizing number with
  | nil => rw [List.nil_append, List.append_nil]
  | cons c chars ih =>
    rw [List.cons_append, timePart, hchars c List.mem_cons_self, if_pos rfl,
      ih (fun c hc => hchars c (List.mem_cons_of_mem _ hc)), List.append_assoc, List.singleton_append]

theorem datePart_days {days : Nat} (rest : List Char) (h : secs + days * 86400 < 2 ^ 64) :
    datePart (digitsOf days ++ 'D' :: rest) [] secs components =
      datePart rest [] (secs + days * 86400) (components + 1) := by
  have hread : takeU64 (digitsOf days) = some days := takeU64_digits (by omega)
  have hunit : datePart ('D' :: rest) (digitsOf days) secs components =
      (addSeconds secs days 86400).bind fun secs => datePart rest [] secs (components + 1) := by
    rw [datePart, if_neg (by decide), if_neg (by decide), if_pos (by decide), hread, Option.bind_eq_bind,
      Option.bind_some]
  rw [datePart_collect _ fun c hc => isDigit_of_mem_digitsOf hc, List.nil_append, hunit, addSeconds_eq h]
  rfl

theorem isDigitOrPoint {n : Nat} {c : Char} (h : c ∈ digitsOf n) : (c.isDigit || c == '.') = true := by
  rw [isDigit_of_mem_digitsOf h, Bool.true_or]

theorem timePart_hours {hours : Nat} (rest : List Char) (h : secs + hours * 3600 < 2 ^ 64) :
    timePart (digitsOf hours ++ 'H' :: rest) [] secs nanos components =
      timePart rest [] (secs + hours * 3600) nanos (components + 1) := by
  rw [timePart_collect _ fun c hc => isDigitOrPoint hc, List.nil_append, timePart]
  simp [takeU64_digits (n := hours) (by omega), addSeconds_eq h]

theorem timePart_minutes {minutes : Nat} (rest : List Char) (h : secs + minutes * 60 < 2 ^ 64) :
    timePart (digitsOf minutes ++ 'M' :: rest) [] secs nanos components =
      timePart rest [] (secs + minutes * 60) nanos (components + 1) := by
  rw [timePart_collect _ fun c hc => isDigitOrPoint hc, List.nil_append, timePart]
  simp [takeU64_digits (n := minutes) (by omega), addSeconds_eq h]

def secondsText (seconds nanos : Nat) : List Char :=
  if nanos > 0 then digitsOf seconds ++ '.' :: fraction nanos else digitsOf seconds

theorem mem_fraction {c : Char} (h : c ∈ fraction nanos) : c.isDigit = true := by
  rw [fraction_eq] at h
  have hmem : c ∈ nineDigits nanos := (List.rdropWhile_prefix _ _).subset h
  cases List.mem_append.mp hmem with
  | inl hzero => exact (List.eq_of_mem_replicate hzero).symm ▸ rfl
  | inr hdigit => exact isDigit_of_mem_digitsOf hdigit

theorem timePart_seconds {seconds : Nat} (h : secs + seconds < 2 ^ 64)
    (hnanos : nanos < 10 ^ 9) :
    timePart (secondsText seconds nanos ++ ['S']) [] secs 0 components =
      some (secs + seconds, nanos, components + 1) := by
  have hchars : ∀ c ∈ secondsText seconds nanos, (c.isDigit || c == '.') = true := by
    intro c hc
    unfold secondsText at hc
    split at hc
    · rcases List.mem_append.mp hc with hdigit | hrest
      · exact isDigitOrPoint hdigit
      · rcases List.mem_cons.mp hrest with rfl | hfraction
        · rfl
        · rw [mem_fraction hfraction, Bool.true_or]
    · exact isDigitOrPoint hc
  have hread : secondsPart (secondsText seconds nanos) secs 0 = some (secs + seconds, nanos) := by
    unfold secondsText
    split
    · exact secondsPart_fraction h hnanos
    case isFalse hzero =>
      obtain rfl : nanos = 0 := by omega
      exact secondsPart_whole h
  rw [timePart_collect _ hchars, List.nil_append, timePart]
  simp [hread, timePart]

def dateText (days : Nat) : List Char := if days > 0 then digitsOf days ++ ['D'] else []

def timeText (hours minutes seconds nanos : Nat) : List Char :=
  (if hours > 0 then digitsOf hours ++ ['H'] else [])
    ++ (if minutes > 0 then digitsOf minutes ++ ['M'] else [])
    ++ (if seconds > 0 || nanos > 0 || (hours == 0 && minutes == 0) then
        secondsText seconds nanos ++ ['S']
      else [])

theorem datePart_text {days : Nat} (h : days * 86400 < 2 ^ 64) :
    ∃ components, datePart (dateText days) [] 0 0 = some (days * 86400, components) ∧
      (days = 0 ∨ 0 < components) ∧ components ≤ 1 := by
  unfold dateText
  split
  case isTrue =>
    have hread : datePart (digitsOf days ++ ['D']) [] 0 0 = datePart [] [] (0 + days * 86400) 1 :=
      datePart_days [] (by omega)
    exact ⟨1, by rw [hread]; simp [datePart], .inr Nat.one_pos, le_refl 1⟩
  case isFalse hzero =>
    obtain rfl : days = 0 := by omega
    exact ⟨0, rfl, .inl rfl, Nat.zero_le 1⟩

theorem timePart_text {hours minutes seconds : Nat}
    (h : secs + hours * 3600 + minutes * 60 + seconds < 2 ^ 64) (hnanos : nanos < 10 ^ 9) :
    ∃ read, timePart (timeText hours minutes seconds nanos) [] secs 0 components =
      some (secs + hours * 3600 + minutes * 60 + seconds, nanos, read) ∧ components < read ∧
        read ≤ components + 3 := by
  have hsecondsPart : ∀ secs components, secs + seconds < 2 ^ 64 →
      ∃ read, timePart (if seconds > 0 || nanos > 0 || (hours == 0 && minutes == 0) then
          secondsText seconds nanos ++ ['S'] else []) [] secs 0 components =
        some (secs + seconds, nanos, read) ∧ components ≤ read ∧ read ≤ components + 1 ∧
          (hours = 0 → minutes = 0 → components < read) := by
    intro secs components hsecs
    split
    case isTrue => exact ⟨_, timePart_seconds hsecs hnanos, by omega, by omega, by omega⟩
    case isFalse hnone =>
      simp only [gt_iff_lt, Bool.or_eq_true, decide_eq_true_eq, Bool.and_eq_true, beq_iff_eq,
        not_or, not_and] at hnone
      obtain rfl : seconds = 0 := by omega
      obtain rfl : nanos = 0 := by omega
      exact ⟨components, by simp [timePart], le_refl _, by omega, fun hh hm => absurd hm (hnone.2 hh)⟩
  have hminutesPart : ∀ secs components, secs + minutes * 60 + seconds < 2 ^ 64 →
      ∃ read, timePart ((if minutes > 0 then digitsOf minutes ++ ['M'] else []) ++
          (if seconds > 0 || nanos > 0 || (hours == 0 && minutes == 0) then
            secondsText seconds nanos ++ ['S'] else [])) [] secs 0 components =
        some (secs + minutes * 60 + seconds, nanos, read) ∧ components ≤ read ∧
          read ≤ components + 2 ∧ (hours = 0 → components < read) := by
    intro secs components hsecs
    by_cases hminutes : minutes > 0
    · obtain ⟨read, hread, hle, hmost, -⟩ := hsecondsPart (secs + minutes * 60) (components + 1) hsecs
      refine ⟨read, ?_, by omega, by omega, fun _ => by omega⟩
      rw [if_pos hminutes, List.append_assoc, List.singleton_append, timePart_minutes _ (by omega), hread]
    · obtain rfl : minutes = 0 := by omega
      obtain ⟨read, hread, hle, hmost, hlt⟩ := hsecondsPart secs components (by omega)
      refine ⟨read, ?_, hle, by omega, fun hh => hlt hh rfl⟩
      rw [if_neg hminutes, List.nil_append, hread, Nat.zero_mul, Nat.add_zero]
  unfold timeText
  rw [List.append_assoc]
  by_cases hhours : hours > 0
  · obtain ⟨read, hread, hle, hmost, -⟩ := hminutesPart (secs + hours * 3600) (components + 1) h
    refine ⟨read, ?_, by omega, by omega⟩
    rw [if_pos hhours, List.append_assoc, List.singleton_append, timePart_hours _ (by omega), hread]
  · obtain rfl : hours = 0 := by omega
    obtain ⟨read, hread, -, hmost, hlt⟩ := hminutesPart secs components (by omega)
    refine ⟨read, ?_, hlt rfl, by omega⟩
    rw [if_neg hhours, List.nil_append, hread, Nat.zero_mul, Nat.add_zero]

theorem format_eq (d : Nat) :
    let total := d / fromSecs 1
    let nanos := d % fromSecs 1
    formatIso8601Duration d = String.ofList ('P' :: (dateText (total / 86400) ++
      if total % 86400 / 3600 > 0 || total % 3600 / 60 > 0 || total % 60 > 0 || nanos > 0 ||
          total / 86400 == 0 then
        'T' :: timeText (total % 86400 / 3600) (total % 3600 / 60) (total % 60) nanos
      else [])) := by
  intro total nanos
  have hseconds : (if nanos > 0 then digitsOf (total % 60) ++ '.' :: fraction nanos ++ ['S']
      else digitsOf (total % 60) ++ ['S']) = secondsText (total % 60) nanos ++ ['S'] := by
    unfold secondsText
    split <;> rfl
  simp only [formatIso8601Duration, timeText, dateText, ← hseconds, digitsOf]
  rfl

theorem takeWhile_dateText (days : Nat) (rest : List Char) (hrest : rest = [] ∨ ∃ time, rest = 'T' :: time) :
    (dateText days ++ rest).takeWhile (· ≠ 'T') = dateText days ∧
      (dateText days ++ rest).dropWhile (· ≠ 'T') = rest := by
  have hdate : ∀ c ∈ dateText days, c ≠ 'T' := by
    intro c hc
    unfold dateText at hc
    split at hc
    · cases List.mem_append.mp hc with
      | inl hdigit => exact ne_of_isDigit (isDigit_of_mem_digitsOf hdigit) rfl
      | inr hunit => exact List.mem_singleton.mp hunit ▸ by decide
    · exact absurd hc List.not_mem_nil
  obtain rfl | ⟨time, rfl⟩ := hrest
  · rw [List.append_nil]
    exact ⟨takeWhile_ne_of_plain hdate, dropWhile_ne_of_plain hdate⟩
  · exact ⟨takeWhile_ne_append hdate time, dropWhile_ne_append hdate time⟩

/-- What the parser has read when its loops are through: whether the text is negative, the seconds,
the nanoseconds and the number of components. -/
def unsignedParts (negative : Bool) : List Char → Option (Bool × Nat × Nat × Nat)
  | 'P' :: rest => do
    let (secs, components) ← datePart (rest.takeWhile (· ≠ 'T')) [] 0 0
    match rest.dropWhile (· ≠ 'T') with
    | [] => some (negative, secs, 0, components)
    | _ :: time => (timePart time [] secs 0 components).map fun read => (negative, read)
  | _ => none

def durationParts (text : String) : Option (Bool × Nat × Nat × Nat) :=
  match text.toList with
  | '-' :: rest => unsignedParts true rest
  | chars => unsignedParts false chars

theorem unsignedParts_of_ne {negative : Bool} {chars : List Char} (h : ∀ rest, chars = 'P' :: rest → False) :
    unsignedParts negative chars = none := by
  rw [unsignedParts]
  exact h

theorem durationParts_of_ne {text : String} (h : ∀ rest, text.toList = '-' :: rest → False) :
    durationParts text = unsignedParts false text.toList := by
  unfold durationParts
  split
  case h_1 rest hminus => exact absurd hminus fun hminus => h rest hminus
  case h_2 => rfl

theorem parse_eq_parts (text : String) :
    parseIso8601Duration text = (durationParts text).bind fun (negative, secs, nanos, components) =>
      if components = 0 then none
      else if negative then some 0
      else some (fromSecs secs + nanos) := by
  unfold parseIso8601Duration
  split
  case h_1 negative chars heq =>
    have hparts : durationParts text = unsignedParts negative chars := by
      split at heq
      case h_1 rest hminus =>
        obtain ⟨rfl, rfl⟩ := Prod.mk.inj heq
        simp only [durationParts, hminus]
      case h_2 hplain =>
        obtain ⟨rfl, rfl⟩ := Prod.mk.inj heq
        exact durationParts_of_ne hplain
    rw [hparts]
    simp only [Option.bind_eq_bind]
    split
    case h_2 hmark => rw [unsignedParts_of_ne hmark]; rfl
    case h_1 rest =>
      simp only [Option.bind_some, unsignedParts, Option.bind_eq_bind]
      cases datePart (rest.takeWhile (· ≠ 'T')) [] 0 0 with
      | none => rfl
      | some date =>
        simp only [Option.bind_some]
        cases rest.dropWhile (· ≠ 'T') with
        | nil => rfl
        | cons _ time =>
          dsimp only
          cases timePart time [] date.1 0 date.2 <;> rfl

theorem parts_positive (rest : List Char) :
    durationParts (String.ofList ('P' :: rest)) =
      (datePart (rest.takeWhile (· ≠ 'T')) [] 0 0).bind fun date =>
        match rest.dropWhile (· ≠ 'T') with
        | [] => some (false, date.1, 0, date.2)
        | _ :: time => (timePart time [] date.1 0 date.2).map fun read => (false, read) := by
  rw [durationParts_of_ne, String.toList_ofList]
  · rfl
  · simp

theorem whole_days {total : Nat} (hhours : ¬0 < total % 86400 / 3600) (hminutes : ¬0 < total % 3600 / 60)
    (hseconds : ¬0 < total % 60) : total / 86400 * 86400 = total := by
  omega

theorem parts_format {d : Nat} (h : d ≤ durationMax) :
    ∃ components, durationParts (formatIso8601Duration d) =
      some (false, d / fromSecs 1, d % fromSecs 1, components) ∧ 0 < components ∧ components ≤ 4 := by
  have htotal : d / fromSecs 1 < 2 ^ 64 := by
    simp only [durationMax, fromSecs] at h ⊢
    omega
  have hnanos : d % fromSecs 1 < 10 ^ 9 := Nat.mod_lt _ (by decide)
  rw [format_eq]
  generalize d / fromSecs 1 = total at *
  generalize d % fromSecs 1 = nanos at *
  obtain ⟨dates, hdate, hdates, hone⟩ : ∃ dates, datePart (dateText (total / 86400)) [] 0 0 =
      some (total / 86400 * 86400, dates) ∧ (total / 86400 = 0 ∨ 0 < dates) ∧ dates ≤ 1 :=
    datePart_text (by omega)
  obtain ⟨times, htime, htimes, hthree⟩ : ∃ times, timePart (timeText (total % 86400 / 3600)
      (total % 3600 / 60) (total % 60) nanos) [] (total / 86400 * 86400) 0 dates =
        some (total / 86400 * 86400 + total % 86400 / 3600 * 3600 + total % 3600 / 60 * 60 + total % 60,
          nanos, times) ∧ dates < times ∧ times ≤ dates + 3 := timePart_text (by omega) hnanos
  have hsum : total / 86400 * 86400 + total % 86400 / 3600 * 3600 + total % 3600 / 60 * 60 + total % 60 =
      total := by omega
  rw [hsum] at htime
  by_cases hlater : (total % 86400 / 3600 > 0 || total % 3600 / 60 > 0 || total % 60 > 0 || nanos > 0 ||
      total / 86400 == 0) = true
  · rw [if_pos hlater]
    obtain ⟨htake, hdrop⟩ := takeWhile_dateText (total / 86400) ('T' :: timeText (total % 86400 / 3600)
      (total % 3600 / 60) (total % 60) nanos) (.inr ⟨_, rfl⟩)
    refine ⟨times, ?_, by omega, by omega⟩
    rw [parts_positive, htake, hdrop, hdate]
    simp only [Option.bind_some, htime, Option.map_some]
  · rw [if_neg hlater]
    simp only [gt_iff_lt, Bool.or_eq_true, decide_eq_true_eq, beq_iff_eq, not_or] at hlater
    obtain ⟨htake, hdrop⟩ := takeWhile_dateText (total / 86400) [] (.inl rfl)
    obtain ⟨⟨⟨⟨hhours, hminutes⟩, hseconds⟩, hfraction⟩, hdays⟩ := hlater
    have hall := whole_days hhours hminutes hseconds
    have hnone : nanos = 0 := Nat.eq_zero_of_not_pos hfraction
    refine ⟨dates, ?_, hdates.resolve_left hdays, by omega⟩
    rw [parts_positive, htake, hdrop, hdate]
    simp only [Option.bind_some]
    rw [hall, hnone]

theorem parse_format {d : Nat} (h : d ≤ durationMax) :
    parseIso8601Duration (formatIso8601Duration d) = some d := by
  have hwhole : fromSecs (d / fromSecs 1) + d % fromSecs 1 = d := by
    simp only [fromSecs]
    omega
  obtain ⟨components, hparts, hpos, -⟩ := parts_format h
  rw [parse_eq_parts, hparts]
  simp only [Option.bind_some]
  rw [if_neg (by omega), hwhole]
  rfl

/-- A duration of so many seconds and nanoseconds comes back from its text. No addition fails on the
way, and the unchecked counter of the components stays at four. -/
theorem duration_text_round_trip (secs nanos : Nat) (hsecs : secs < 2 ^ 64) (hnanos : nanos < 10 ^ 9) :
    parseIso8601Duration (formatIso8601Duration (fromSecs secs + nanos)) = some (fromSecs secs + nanos) ∧
      ∃ components, durationParts (formatIso8601Duration (fromSecs secs + nanos)) =
        some (false, secs, nanos, components) ∧ components ≤ 4 := by
  have hmax : fromSecs secs + nanos ≤ durationMax := by
    simp only [durationMax, fromSecs]
    omega
  have hwhole : (fromSecs secs + nanos) / fromSecs 1 = secs := by
    simp only [fromSecs]
    omega
  have hrest : (fromSecs secs + nanos) % fromSecs 1 = nanos := by
    simp only [fromSecs]
    omega
  obtain ⟨components, hparts, -, hmost⟩ := parts_format hmax
  rw [hwhole, hrest] at hparts
  exact ⟨parse_format hmax, components, hparts, hmost⟩

/-- The longest duration there is. -/
theorem duration_text_round_trip_longest :
    parseIso8601Duration (formatIso8601Duration (fromSecs (2 ^ 64 - 1) + 999999999)) =
      some (fromSecs (2 ^ 64 - 1) + 999999999) :=
  (duration_text_round_trip (2 ^ 64 - 1) 999999999 (by decide) (by decide)).1

end Eebus.Model
