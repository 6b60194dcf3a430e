import Eebus.Library.Duration

/-! ISO 8601 durations, as `maxResponseDelay`, `endTime` and the failsafe duration carry them. -/

namespace Eebus.Model

open Eebus.Library

def addSeconds (secs count unit : Nat) : Option Nat :=
  if count * unit < 2 ^ 64 ∧ secs + count * unit < 2 ^ 64 then some (secs + count * unit) else none

def parseU64 (digits : List Char) : Option Nat :=
  if digits.isEmpty || !digits.all Char.isDigit then none
  else
    let value := digits.foldl (fun n c => n * 10 + (c.toNat - '0'.toNat)) 0
    if value < 2 ^ 64 then some value else none

def takeU64 (number : List Char) : Option Nat :=
  if number.contains '.' then none else parseU64 number

def datePart : List Char → List Char → Nat → Nat → Option (Nat × Nat)
  | [], number, secs, components => if number.isEmpty then some (secs, components) else none
  | c :: rest, number, secs, components =>
    if c.isDigit || c == '.' then datePart rest (number ++ [c]) secs components
    else if c == 'W' then do
      datePart rest [] (← addSeconds secs (← takeU64 number) 604800) (components + 1)
    else if c == 'D' then do
      datePart rest [] (← addSeconds secs (← takeU64 number) 86400) (components + 1)
    else none

def secondsPart (raw : List Char) (secs nanos : Nat) : Option (Nat × Nat) :=
  let whole := raw.takeWhile (· ≠ '.')
  match raw.dropWhile (· ≠ '.') with
  | [] => do
    if whole.isEmpty then none
    else some (← addSeconds secs (← parseU64 whole) 1, nanos)
  | _ :: frac => do
    if whole.isEmpty && frac.isEmpty then none
    else
      let secs ← if whole.isEmpty then some secs else addSeconds secs (← parseU64 whole) 1
      let nanos ← parseU64 ((frac ++ List.replicate 9 '0').take 9)
      some (secs, nanos)

def timePart : List Char → List Char → Nat → Nat → Nat → Option (Nat × Nat × Nat)
  | [], number, secs, nanos, components =>
    if number.isEmpty then some (secs, nanos, components) else none
  | c :: rest, number, secs, nanos, components =>
    if c.isDigit || c == '.' then timePart rest (number ++ [c]) secs nanos components
    else if c == 'H' then do
      timePart rest [] (← addSeconds secs (← takeU64 number) 3600) nanos (components + 1)
    else if c == 'M' then do
      timePart rest [] (← addSeconds secs (← takeU64 number) 60) nanos (components + 1)
    else if c == 'S' then do
      let (secs, nanos) ← secondsPart number secs nanos
      timePart rest [] secs nanos (components + 1)
    else none

def parseIso8601Duration (text : String) : Option Nat := do
  let (negative, chars) := match text.toList with
    | '-' :: rest => (true, rest)
    | chars => (false, chars)
  let rest ← match chars with
    | 'P' :: rest => some rest
    | _ => none
  let (secs, components) ← datePart (rest.takeWhile (· ≠ 'T')) [] 0 0
  let (secs, nanos, components) ← match rest.dropWhile (· ≠ 'T') with
    | [] => some (secs, 0, components)
    | _ :: time => timePart time [] secs 0 components
  if components = 0 then none
  else if negative then some 0
  else some (fromSecs secs + nanos)

theorem addSeconds_lt {secs count unit total : Nat} (h : addSeconds secs count unit = some total) :
    total < 2 ^ 64 := by
  unfold addSeconds at h
  split at h
  case isTrue hfits => exact Option.some.inj h ▸ hfits.2
  case isFalse => simp at h

theorem datePart_lt {chars number : List Char} {secs components : Nat} (hsecs : secs < 2 ^ 64)
    {result : Nat × Nat} (h : datePart chars number secs components = some result) :
    result.1 < 2 ^ 64 := by
  induction chars generalizing number secs components with
  | nil =>
    simp only [datePart] at h
    split at h
    · exact Option.some.inj h ▸ hsecs
    · simp at h
  | cons c rest ih =>
    simp only [datePart, Option.bind_eq_bind] at h
    split at h
    · exact ih hsecs h
    split at h
    · obtain ⟨count, -, h⟩ := Option.bind_eq_some_iff.mp h
      obtain ⟨total, htotal, h⟩ := Option.bind_eq_some_iff.mp h
      exact ih (addSeconds_lt htotal) h
    split at h
    · obtain ⟨count, -, h⟩ := Option.bind_eq_some_iff.mp h
      obtain ⟨total, htotal, h⟩ := Option.bind_eq_some_iff.mp h
      exact ih (addSeconds_lt htotal) h
    · simp at h

theorem readDigits_lt {digits : List Char} (h : digits.all Char.isDigit = true) (n : Nat) :
    digits.foldl (fun n c => n * 10 + (c.toNat - '0'.toNat)) n < (n + 1) * 10 ^ digits.length := by
  induction digits generalizing n with
  | nil => simp
  | cons c rest ih =>
    simp only [List.all_cons, Bool.and_eq_true] at h
    have hdigit : c.toNat - '0'.toNat ≤ 9 := by
      have hc := h.1
      simp only [Char.isDigit, Bool.and_eq_true, decide_eq_true_eq] at hc
      have hle : c.toNat ≤ 57 := hc.2
      have hzero : '0'.toNat = 48 := rfl
      omega
    calc rest.foldl (fun n c => n * 10 + (c.toNat - '0'.toNat)) (n * 10 + (c.toNat - '0'.toNat))
        < (n * 10 + (c.toNat - '0'.toNat) + 1) * 10 ^ rest.length := ih h.2 _
      _ ≤ ((n + 1) * 10) * 10 ^ rest.length := Nat.mul_le_mul_right _ (by omega)
      _ = (n + 1) * 10 ^ (c :: rest).length := by
        rw [List.length_cons, Nat.pow_succ, Nat.mul_assoc, Nat.mul_comm 10]

theorem parseU64_lt {digits : List Char} {value : Nat} (h : parseU64 digits = some value) :
    value < 10 ^ digits.length := by
  simp only [parseU64] at h
  split at h
  · simp at h
  case isFalse hdigits =>
    split at h
    · simp only [Bool.or_eq_true, Bool.not_eq_true', not_or, Bool.not_eq_false] at hdigits
      rw [← Option.some.inj h]
      simpa using readDigits_lt hdigits.2 0
    · simp at h

theorem secondsPart_lt {raw : List Char} {secs nanos : Nat} (hsecs : secs < 2 ^ 64)
    (hnanos : nanos < 10 ^ 9) {result : Nat × Nat} (h : secondsPart raw secs nanos = some result) :
    result.1 < 2 ^ 64 ∧ result.2 < 10 ^ 9 := by
  simp only [secondsPart, Option.bind_eq_bind] at h
  split at h
  · split at h
    · simp at h
    · obtain ⟨count, -, h⟩ := Option.bind_eq_some_iff.mp h
      obtain ⟨total, htotal, h⟩ := Option.bind_eq_some_iff.mp h
      exact Option.some.inj h ▸ ⟨addSeconds_lt htotal, hnanos⟩
  · split at h
    · simp at h
    case h_2.isFalse frac _ _ =>
      have hread : ∀ (total : Nat), total < 2 ^ 64 →
          ((parseU64 ((frac ++ List.replicate 9 '0').take 9)).bind fun nanos => some (total, nanos)) =
            some result → result.1 < 2 ^ 64 ∧ result.2 < 10 ^ 9 := by
        intro total htotal hparsed
        obtain ⟨fraction, hfraction, hresult⟩ := Option.bind_eq_some_iff.mp hparsed
        have hlt := parseU64_lt hfraction
        rw [show ((frac ++ List.replicate 9 '0').take 9).length = 9 by simp] at hlt
        exact Option.some.inj hresult ▸ ⟨htotal, hlt⟩
      split at h
      · exact hread secs hsecs h
      · obtain ⟨count, -, h⟩ := Option.bind_eq_some_iff.mp h
        obtain ⟨total, htotal, h⟩ := Option.bind_eq_some_iff.mp h
        exact hread total (addSeconds_lt htotal) h

theorem timePart_lt {chars number : List Char} {secs nanos components : Nat}
    (hsecs : secs < 2 ^ 64) (hnanos : nanos < 10 ^ 9) {result : Nat × Nat × Nat}
    (h : timePart chars number secs nanos components = some result) :
    result.1 < 2 ^ 64 ∧ result.2.1 < 10 ^ 9 := by
  induction chars generalizing number secs nanos components with
  | nil =>
    simp only [timePart] at h
    split at h
    · exact Option.some.inj h ▸ ⟨hsecs, hnanos⟩
    · simp at h
  | cons c rest ih =>
    simp only [timePart, Option.bind_eq_bind] at h
    split at h
    · exact ih hsecs hnanos h
    split at h
    · obtain ⟨count, -, h⟩ := Option.bind_eq_some_iff.mp h
      obtain ⟨total, htotal, h⟩ := Option.bind_eq_some_iff.mp h
      exact ih (addSeconds_lt htotal) hnanos h
    split at h
    · obtain ⟨count, -, h⟩ := Option.bind_eq_some_iff.mp h
      obtain ⟨total, htotal, h⟩ := Option.bind_eq_some_iff.mp h
      exact ih (addSeconds_lt htotal) hnanos h
    split at h
    · obtain ⟨read, hread, h⟩ := Option.bind_eq_some_iff.mp h
      obtain ⟨hsecs', hnanos'⟩ := secondsPart_lt hsecs hnanos hread
      exact ih hsecs' hnanos' h
    · simp at h

theorem parseIso8601Duration_le {text : String} {d : Nat} (h : parseIso8601Duration text = some d) :
    d ≤ durationMax := by
  have hbound : ∀ secs nanos, secs < 2 ^ 64 → nanos < 10 ^ 9 →
      fromSecs secs + nanos ≤ durationMax := by
    intro secs nanos hsecs hnanos
    simp only [durationMax, fromSecs]
    omega
  -- The last step: what the two parts read, put together.
  have hput : ∀ (read : Nat × Nat × Nat) (negative : Bool), read.1 < 2 ^ 64 → read.2.1 < 10 ^ 9 →
      (if read.2.2 = 0 then none
        else if negative = true then some 0 else some (fromSecs read.1 + read.2.1)) = some d →
      d ≤ durationMax := by
    intro read negative hsecs hnanos hread
    split at hread
    · simp at hread
    split at hread
    · exact Option.some.inj hread ▸ Nat.zero_le _
    · exact Option.some.inj hread ▸ hbound _ _ hsecs hnanos
  simp only [parseIso8601Duration, Option.bind_eq_bind] at h
  split at h
  case h_2 => simp at h
  obtain ⟨rest, -, h⟩ := Option.bind_eq_some_iff.mp h
  obtain ⟨date, hdate, h⟩ := Option.bind_eq_some_iff.mp h
  have hsecs := datePart_lt (by decide) hdate
  split at h
  · obtain ⟨read, hread, h⟩ := Option.bind_eq_some_iff.mp h
    cases hread
    exact hput (date.1, 0, date.2) _ hsecs (by decide : 0 < 10 ^ 9) h
  · obtain ⟨read, hread, h⟩ := Option.bind_eq_some_iff.mp h
    obtain ⟨hsecs', hnanos⟩ := timePart_lt hsecs (by decide) hread
    exact hput _ _ hsecs' hnanos h
def fraction (nanos : Nat) : List Char :=
  let digits := (Nat.repr nanos).toList
  let padded := List.replicate (9 - digits.length) '0' ++ digits
  (padded.reverse.dropWhile (· == '0')).reverse

def formatIso8601Duration (duration : Nat) : String :=
  let total := duration / fromSecs 1
  let nanos := duration % fromSecs 1
  let days := total / 86400
  let hours := total % 86400 / 3600
  let minutes := total % 3600 / 60
  let seconds := total % 60
  let number (n : Nat) (unit : Char) := (Nat.repr n).toList ++ [unit]
  let date := if days > 0 then number days 'D' else []
  let time :=
    if hours > 0 || minutes > 0 || seconds > 0 || nanos > 0 || days == 0 then
      'T' :: (if hours > 0 then number hours 'H' else [])
        ++ (if minutes > 0 then number minutes 'M' else [])
        ++ (if seconds > 0 || nanos > 0 || (hours == 0 && minutes == 0) then
            if nanos > 0 then (Nat.repr seconds).toList ++ '.' :: fraction nanos ++ ['S']
            else number seconds 'S'
          else [])
    else []
  String.ofList ('P' :: date ++ time)

end Eebus.Model
