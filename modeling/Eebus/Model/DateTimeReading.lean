import Eebus.Library.Separators
import Eebus.Model.DateTimeText

/-!
A timestamp as it is written. `Stamp` holds what the parser tells apart in a text: every number, the
digits of the fraction and the spelling of the offset.
-/

namespace Eebus.Model

open Eebus.Library.Gregorian

inductive OffsetText where
  | absent
  | zulu
  | signed (negative : Bool) (hours minutes : Nat)
deriving DecidableEq

namespace OffsetText

def text : OffsetText → List Char
  | absent => []
  | zulu => ['Z']
  | signed negative hours minutes =>
    (if negative then '-' else '+') :: (padded 2 hours ++ ':' :: padded 2 minutes)

def minutesEast : OffsetText → Option Int
  | absent => none
  | zulu => some 0
  | signed negative hours minutes => some ((if negative then -1 else 1) * (hours * 60 + minutes : Nat))

def Within : OffsetText → Prop
  | signed _ hours minutes => minutes ≤ 59 ∧ hours * 60 + minutes ≤ 14 * 60
  | _ => True

instance (offset : OffsetText) : Decidable offset.Within := by
  cases offset <;> unfold Within <;> infer_instance

end OffsetText

structure Stamp where
  negative : Bool
  year : Nat
  month : Nat
  day : Nat
  hour : Nat
  minute : Nat
  second : Nat
  fraction : Option (List Char)
  offset : OffsetText
deriving DecidableEq

namespace Stamp

def signedYear (t : Stamp) : Int := if t.negative then -t.year else t.year

def nanosecond (t : Stamp) : Nat := (t.fraction.map nanosOf).getD 0

def fractionText (fraction : Option (List Char)) : List Char :=
  match fraction with
  | none => []
  | some digits => '.' :: digits

def text (t : Stamp) : List Char :=
  (if t.negative then ['-'] else []) ++ (padded 4 t.year ++ '-' :: (padded 2 t.month ++
    '-' :: (padded 2 t.day ++ 'T' :: (padded 2 t.hour ++ ':' :: (padded 2 t.minute ++
      ':' :: (padded 2 t.second ++ (fractionText t.fraction ++ t.offset.text)))))))

/-- The numbers fit their places: two digits each, a year that an `i32` holds, a fraction of digits. -/
structure Written (t : Stamp) : Prop where
  year : t.year < 2 ^ 31
  month : t.month < 100
  day : t.day < 100
  hour : t.hour < 100
  minute : t.minute < 100
  second : t.second < 100
  fraction : ∀ digits ∈ t.fraction, whole digits = true
  offset : t.offset.Within

def check (t : Stamp) : Option DateTime :=
  if !(1 ≤ t.month && t.month ≤ 12) || t.day < 1 || t.day > daysInMonth t.signedYear t.month then none
  else if t.minute > 59 || t.second > 59 then none
  else if t.hour ≤ 23 then
    some ⟨t.signedYear, t.month, t.day, t.hour, t.minute, t.second, t.nanosecond, t.offset.minutesEast⟩
  else if t.hour = 24 && t.minute == 0 && t.second == 0 && t.nanosecond == 0 then
    let (year, month, day) := civilFromDays (daysFromCivil t.signedYear t.month t.day + 1)
    some ⟨year, month, day, 0, t.minute, t.second, t.nanosecond, t.offset.minutesEast⟩
  else none

end Stamp

def readSigned (negative : Bool) (s : List Char) : Option OffsetText := do
  let (hours, rest) ← takeFixedDigits s 2
  let rest ← stripPrefix ':' rest
  let (minutes, rest) ← takeFixedDigits rest 2
  if !rest.isEmpty || minutes > 59 then none
  else if hours * 60 + minutes > 14 * 60 then none
  else some (.signed negative hours minutes)

def readOffset : List Char → Option OffsetText
  | [] => some .absent
  | ['Z'] => some .zulu
  | '+' :: rest => readSigned false rest
  | '-' :: rest => readSigned true rest
  | _ => none

def readFraction (s : List Char) : Option (Option (List Char) × List Char) :=
  match stripPrefix '.' s with
  | some rest =>
    let digits := rest.takeWhile Char.isDigit
    if digits.length = 0 then none else some (some digits, rest.drop digits.length)
  | none => some (none, s)

def readStamp (text : String) : Option Stamp := do
  let (negative, rest) := stripSign text.toList
  let (yearText, rest) ← splitOnce '-' rest
  let year ← parseYear yearText
  let (month, rest) ← takeFixedDigits rest 2
  let rest ← stripPrefix '-' rest
  let (day, rest) ← takeFixedDigits rest 2
  let rest ← stripPrefix 'T' rest
  let (hour, rest) ← takeFixedDigits rest 2
  let rest ← stripPrefix ':' rest
  let (minute, rest) ← takeFixedDigits rest 2
  let rest ← stripPrefix ':' rest
  let (second, rest) ← takeFixedDigits rest 2
  let (fraction, rest) ← readFraction rest
  let offset ← readOffset rest
  some { negative, year, month, day, hour, minute, second, fraction, offset }

theorem foldl_fraction (digits : List Char) {n m : Nat} (h : n ≤ m) :
    (List.range n).foldl (fun nanos i => nanos * 10 + (digits[i]?.map fun c => c.toNat - '0'.toNat).getD 0) 0 =
      numberOf ((digits ++ List.replicate m '0').take n) := by
  induction n with
  | zero => rfl
  | succ n ih =>
    have hlt : n < (digits ++ List.replicate m '0').length := by
      rw [List.length_append, List.length_replicate]
      omega
    have hdigit : (digits[n]?.map fun c => c.toNat - '0'.toNat).getD 0 =
        numberOf [(digits ++ List.replicate m '0')[n]] := by
      rw [numberOf_singleton]
      by_cases hn : n < digits.length
      · rw [List.getElem_append_left hn, List.getElem?_eq_getElem hn]
        rfl
      · rw [List.getElem_append_right (by omega), List.getElem?_eq_none (by omega), List.getElem_replicate]
        rfl
    rw [List.range_succ, List.foldl_append, ih (by omega), List.foldl_cons, List.foldl_nil, hdigit,
      List.take_succ_eq_append_getElem hlt, numberOf_append, List.length_singleton, Nat.pow_one]

theorem parseFraction_eq (digits : List Char) : parseFraction digits = nanosOf digits :=
  foldl_fraction digits (le_refl 9)

theorem parseNanosecond_eq (s : List Char) :
    parseNanosecond s = (readFraction s).map fun read => ((read.1.map nanosOf).getD 0, read.2) := by
  simp only [parseNanosecond, readFraction, parseFraction_eq]
  cases stripPrefix '.' s with
  | none => rfl
  | some rest =>
    dsimp only
    split <;> rfl

theorem bind_eq_bind_bind {α β γ : Type} {x : Option α} {f : α → Option γ} {g : α → Option β}
    {h : β → Option γ} (hstep : ∀ a, f a = (g a).bind h) : x.bind f = (x.bind g).bind h := by
  cases x with
  | none => rfl
  | some a => exact hstep a

theorem parseOffset_eq (s : List Char) :
    parseOffset s = (readOffset s).bind fun offset => some offset.minutesEast := by
  have hsigned : ∀ (negative : Bool) (rest : List Char),
      ((takeFixedDigits rest 2).bind fun (hours, rest) => (stripPrefix ':' rest).bind fun rest =>
        (takeFixedDigits rest 2).bind fun (minutes, rest) =>
          if !rest.isEmpty || minutes > 59 then none
          else if hours * 60 + minutes > 14 * 60 then none
          else some (some ((if negative then -1 else 1) * ((hours * 60 + minutes : Nat) : Int)))) =
        (readSigned negative rest).bind fun offset => some offset.minutesEast := by
    intro negative rest
    refine bind_eq_bind_bind fun hours => bind_eq_bind_bind fun rest => bind_eq_bind_bind fun minutes => ?_
    dsimp only
    split
    · rfl
    split <;> rfl
  unfold readOffset
  split
  case h_1 => rfl
  case h_2 => rfl
  case h_3 rest => exact hsigned false rest
  case h_4 rest => exact hsigned true rest
  case h_5 hnil hzulu hplus hminus =>
    have hempty : ¬s.isEmpty = true := fun h => hnil (List.isEmpty_iff.mp h)
    rw [parseOffset, if_neg hempty, if_neg hzulu]
    split
    · exact absurd rfl (hplus _)
    · exact absurd rfl (hminus _)
    · rfl

theorem bind_eq_bind_bind' {α β γ : Type} {x : Option α} {f : α → Option γ} {g : α → Option β}
    {h : β → Option γ} (hstep : ∀ a, f a = (g a).bind h) : x >>= f = (x >>= g).bind h :=
  bind_eq_bind_bind hstep

theorem parse_eq_check (text : String) : parseXsDateTime text = (readStamp text).bind Stamp.check := by
  unfold parseXsDateTime readStamp
  generalize stripSign text.toList = signed
  obtain ⟨negative, rest⟩ := signed
  refine bind_eq_bind_bind' ?_
  rintro ⟨yearText, rest⟩
  refine bind_eq_bind_bind' fun year => bind_eq_bind_bind' ?_
  rintro ⟨month, rest⟩
  refine bind_eq_bind_bind' fun rest => bind_eq_bind_bind' ?_
  rintro ⟨day, rest⟩
  refine bind_eq_bind_bind' fun rest => bind_eq_bind_bind' ?_
  rintro ⟨hour, rest⟩
  refine bind_eq_bind_bind' fun rest => bind_eq_bind_bind' ?_
  rintro ⟨minute, rest⟩
  refine bind_eq_bind_bind' fun rest => bind_eq_bind_bind' ?_
  rintro ⟨second, rest⟩
  dsimp only
  rw [parseNanosecond_eq, Option.bind_eq_bind, Option.bind_map]
  refine bind_eq_bind_bind ?_
  rintro ⟨fraction, rest⟩
  dsimp only [Function.comp]
  rw [parseOffset_eq, Option.bind_eq_bind, Option.bind_assoc]
  exact bind_eq_bind_bind fun offset => rfl

variable {rest s : List Char}

theorem stripPrefix_some {c : Char} : stripPrefix c s = some rest ↔ s = c :: rest := by
  cases s with
  | nil => simp [stripPrefix]
  | cons c' s =>
    simp only [stripPrefix, List.cons.injEq]
    split <;> simp_all

theorem stripPrefix_digit {c d : Char} (h : d.isDigit = true) (h' : c.isDigit = false) :
    stripPrefix c (d :: s) = none := by
  rw [stripPrefix, if_neg (ne_of_isDigit h h')]

theorem splitOnce_some {c : Char} {a b : List Char} (h : splitOnce c s = some (a, b)) : s = a ++ c :: b := by
  unfold splitOnce at h
  cases hdrop : s.dropWhile (· ≠ c) with
  | nil =>
    rw [hdrop] at h
    cases h
  | cons c' rest =>
    rw [hdrop] at h
    obtain ⟨rfl, rfl⟩ := Prod.mk.inj (Option.some.inj h)
    exact (Library.dropWhile_ne_eq_cons hdrop).2.symm

theorem not_mem_of_splitOnce {c : Char} {a b : List Char} (h : splitOnce c s = some (a, b)) : c ∉ a := by
  unfold splitOnce at h
  split at h
  · cases h
  · obtain ⟨rfl, -⟩ := Prod.mk.inj (Option.some.inj h)
    intro hmem
    simpa using List.mem_takeWhile_imp hmem

theorem splitOnce_append {c : Char} {a : List Char} (h : ∀ x ∈ a, x ≠ c) (b : List Char) :
    splitOnce c (a ++ c :: b) = some (a, b) := by
  simp only [splitOnce, Library.takeWhile_ne_append h, Library.dropWhile_ne_append h]

theorem takeFixedDigits_some {n : Nat} (h : takeFixedDigits s 2 = some (n, rest)) :
    s = padded 2 n ++ rest ∧ n < 100 := by
  unfold takeFixedDigits at h
  split at h
  case isFalse => cases h
  case isTrue hdigits =>
    obtain ⟨rfl, rfl⟩ := Prod.mk.inj (Option.some.inj h)
    have hpadded := padded_numberOf hdigits.2 (by omega)
    have hlt := numberOf_lt hdigits.2
    rw [hdigits.1] at hpadded hlt
    exact ⟨by rw [hpadded, List.take_append_drop], hlt⟩

theorem takeFixedDigits_padded {n : Nat} (h : n < 100) (rest : List Char) :
    takeFixedDigits (padded 2 n ++ rest) 2 = some (n, rest) := by
  have hlength : (padded 2 n).length = 2 := length_padded (by decide) h
  have htake : (padded 2 n ++ rest).take 2 = padded 2 n := by
    rw [List.take_append_of_le_length (by omega), List.take_of_length_le (by omega)]
  have hdrop : (padded 2 n ++ rest).drop 2 = rest := by
    rw [List.drop_append_of_le_length (by omega), List.drop_of_length_le (by omega), List.nil_append]
  rw [takeFixedDigits, htake, hdrop, if_pos ⟨hlength, all_padded 2 n⟩, numberOf_padded]

theorem parseYear_some {digits : List Char} {n : Nat} :
    parseYear digits = some n ↔ digits = padded 4 n ∧ n < 2 ^ 31 := by
  unfold parseYear
  constructor
  · intro h
    split at h
    case isTrue => cases h
    case isFalse hfour =>
      split at h
      case isTrue => cases h
      case isFalse hzero =>
        split at h
        case isFalse => cases h
        case isTrue hfits =>
          obtain rfl := Option.some.inj h
          simp only [Bool.or_eq_true, decide_eq_true_eq, Bool.not_eq_true', not_or, Bool.not_eq_false] at hfour
          refine ⟨?_, hfits⟩
          by_cases hlong : digits.length = 4
          · rw [← hlong, padded_numberOf hfour.2 (by omega)]
          · cases digits with
            | nil => simp at hfour
            | cons c rest =>
              have hhead : c ≠ '0' := by
                rintro rfl
                refine hzero ?_
                rw [List.head?_cons, beq_self_eq_true, Bool.and_true]
                exact decide_eq_true (by omega)
              rw [padded, digitsOf_numberOf hfour.2 hhead, Nat.sub_eq_zero_of_le (by omega)]
              rfl
  · rintro ⟨rfl, hfits⟩
    have hlength : (padded 4 n).length = max 4 (digitsOf n).length := by
      rw [padded, List.length_append, List.length_replicate]
      omega
    have hfour : ¬((padded 4 n).length < 4 || !(padded 4 n).all Char.isDigit) = true := by
      rw [all_padded]
      simpa using by omega
    have hzero : ¬((padded 4 n).length > 4 && (padded 4 n).head? == some '0') = true := by
      rw [Bool.and_eq_true, decide_eq_true_eq, beq_iff_eq]
      rintro ⟨hlong, hhead⟩
      have hplain : padded 4 n = digitsOf n := by
        rw [padded, Nat.sub_eq_zero_of_le (by omega)]
        rfl
      rw [hplain] at hlong hhead
      cases hdigits : digitsOf n with
      | nil => exact digitsOf_ne_nil n hdigits
      | cons c rest =>
        rw [hdigits] at hlong hhead
        refine head_digitsOf hdigits (fun hnil => ?_) (Option.some.inj hhead)
        rw [hnil] at hlong
        simp at hlong
    rw [if_neg hfour, if_neg hzero, numberOf_padded, if_pos hfits]

theorem readFraction_some {fraction : Option (List Char)}
    (h : readFraction s = some (fraction, rest)) :
    s = Stamp.fractionText fraction ++ rest ∧ ∀ digits ∈ fraction, whole digits = true := by
  unfold readFraction at h
  cases hpoint : stripPrefix '.' s with
  | none =>
    rw [hpoint] at h
    obtain ⟨rfl, rfl⟩ := Prod.mk.inj (Option.some.inj h)
    exact ⟨rfl, fun digits hdigits => absurd hdigits (Option.not_mem_none digits)⟩
  | some behind =>
    rw [hpoint] at h
    dsimp only at h
    split at h
    case isTrue => cases h
    case isFalse hsome =>
      obtain ⟨rfl, rfl⟩ := Prod.mk.inj (Option.some.inj h)
      have hprefix := List.takeWhile_prefix Char.isDigit (l := behind)
      have hdrop : behind.takeWhile Char.isDigit ++ behind.drop (behind.takeWhile Char.isDigit).length = behind :=
        (List.prefix_iff_eq_append.mp hprefix)
      refine ⟨?_, ?_⟩
      · rw [stripPrefix_some.mp hpoint, Stamp.fractionText, List.cons_append, hdrop]
      · rintro _ ⟨⟩
        rw [whole, List.all_takeWhile, Bool.and_true]
        simpa using hsome

theorem OffsetText.text_head (offset : OffsetText) :
    offset.text = [] ∨ ∃ c rest, offset.text = c :: rest ∧ c.isDigit = false ∧ c ≠ '.' := by
  cases offset with
  | absent => exact .inl rfl
  | zulu => exact .inr ⟨'Z', [], rfl, rfl, by decide⟩
  | signed negative hours minutes =>
    cases negative with
    | false => exact .inr ⟨'+', _, rfl, rfl, by decide⟩
    | true => exact .inr ⟨'-', _, rfl, rfl, by decide⟩

theorem readFraction_text {fraction : Option (List Char)} (h : ∀ digits ∈ fraction, whole digits = true)
    (offset : OffsetText) :
    readFraction (Stamp.fractionText fraction ++ offset.text) = some (fraction, offset.text) := by
  have hhead := offset.text_head
  cases fraction with
  | none =>
    have hplain : stripPrefix '.' offset.text = none := by
      cases hhead with
      | inl hnil => rw [hnil]; rfl
      | inr hcons =>
        obtain ⟨c, rest, htext, -, hc⟩ := hcons
        rw [htext, stripPrefix, if_neg hc]
    rw [Stamp.fractionText, List.nil_append, readFraction, hplain]
  | some digits =>
    obtain ⟨hsome, hdigits⟩ := Bool.and_eq_true_iff.mp (h digits rfl)
    have htake : (digits ++ offset.text).takeWhile Char.isDigit = digits := by
      rw [List.takeWhile_append_of_pos (List.all_eq_true.mp hdigits)]
      cases hhead with
      | inl hnil => rw [hnil, List.takeWhile_nil, List.append_nil]
      | inr hcons =>
        obtain ⟨c, rest, htext, hc, -⟩ := hcons
        rw [htext, List.takeWhile_cons_of_neg (by simp [hc]), List.append_nil]
    have hlength : ¬digits.length = 0 := by simpa using hsome
    have hpoint : stripPrefix '.' ('.' :: (digits ++ offset.text)) = some (digits ++ offset.text) := rfl
    rw [Stamp.fractionText, List.cons_append, readFraction, hpoint]
    dsimp only
    rw [htake, if_neg hlength, List.drop_left]

theorem readSigned_some {negative : Bool} {offset : OffsetText}
    (h : readSigned negative s = some offset) :
    (if negative then '-' else '+') :: s = offset.text ∧ offset.Within := by
  obtain ⟨⟨hours, rest⟩, hhours, h⟩ := Option.bind_eq_some_iff.mp h
  obtain ⟨behind, hcolon, h⟩ := Option.bind_eq_some_iff.mp h
  obtain ⟨⟨minutes, last⟩, hminutes, h⟩ := Option.bind_eq_some_iff.mp h
  dsimp only at h
  split at h
  case isTrue => cases h
  case isFalse hend =>
    split at h
    case isTrue => cases h
    case isFalse hbound =>
      obtain rfl := Option.some.inj h
      simp only [Bool.or_eq_true, Bool.not_eq_true', decide_eq_true_eq, not_or, Bool.not_eq_false,
        List.isEmpty_iff] at hend
      obtain ⟨rfl, hle⟩ := hend
      obtain ⟨rfl, -⟩ := takeFixedDigits_some hhours
      obtain rfl := stripPrefix_some.mp hcolon
      obtain ⟨rfl, -⟩ := takeFixedDigits_some hminutes
      refine ⟨?_, by omega, by omega⟩
      rw [OffsetText.text, List.append_nil]

theorem readOffset_some {offset : OffsetText} (h : readOffset s = some offset) :
    s = offset.text ∧ offset.Within := by
  unfold readOffset at h
  split at h
  case h_1 => exact Option.some.inj h ▸ ⟨rfl, trivial⟩
  case h_2 => exact Option.some.inj h ▸ ⟨rfl, trivial⟩
  case h_3 => exact readSigned_some h
  case h_4 => exact readSigned_some h
  case h_5 => cases h

theorem stripPrefix_self (c : Char) (rest : List Char) : stripPrefix c (c :: rest) = some rest := if_pos rfl

theorem readSigned_text (negative : Bool) {hours minutes : Nat} (hminutes : minutes ≤ 59)
    (htotal : hours * 60 + minutes ≤ 14 * 60) :
    readSigned negative (padded 2 hours ++ ':' :: padded 2 minutes) = some (.signed negative hours minutes) := by
  have hlast := takeFixedDigits_padded (n := minutes) (by omega) []
  rw [List.append_nil] at hlast
  simp only [readSigned, takeFixedDigits_padded (n := hours) (by omega), stripPrefix_self, hlast,
    Option.bind_eq_bind, Option.bind_some]
  rw [if_neg (by simpa using hminutes), if_neg (by omega)]

theorem readOffset_text {offset : OffsetText} (h : offset.Within) : readOffset offset.text = some offset := by
  cases offset with
  | absent => rfl
  | zulu => rfl
  | signed negative hours minutes =>
    cases negative with
    | false => exact readSigned_text false h.1 h.2
    | true => exact readSigned_text true h.1 h.2

theorem stripSign_some {negative : Bool} (h : stripSign s = (negative, rest)) :
    s = (if negative then ['-'] else []) ++ rest := by
  unfold stripSign at h
  split at h
  case h_1 behind hminus =>
    obtain ⟨rfl, rfl⟩ := Prod.mk.inj h
    exact stripPrefix_some.mp hminus
  case h_2 =>
    obtain ⟨rfl, rfl⟩ := Prod.mk.inj h
    rfl

theorem stripSign_digits (negative : Bool) {digits : List Char} (hsome : digits ≠ [])
    (hdigits : digits.all Char.isDigit = true) :
    stripSign ((if negative then ['-'] else []) ++ (digits ++ rest)) = (negative, digits ++ rest) := by
  cases negative with
  | true => rfl
  | false =>
    cases digits with
    | nil => exact absurd rfl hsome
    | cons d digits =>
      rw [List.all_cons, Bool.and_eq_true] at hdigits
      rw [if_neg Bool.false_ne_true, List.nil_append, List.cons_append, stripSign,
        stripPrefix_digit hdigits.1 rfl]

theorem text_of_readStamp {text : String} {t : Stamp} (h : readStamp text = some t) :
    t.Written ∧ t.text = text.toList := by
  unfold readStamp at h
  obtain ⟨signed, hsign⟩ : ∃ signed, stripSign text.toList = signed := ⟨_, rfl⟩
  rw [hsign] at h
  obtain ⟨negative, start⟩ := signed
  obtain ⟨⟨yearText, s1⟩, hdash, h⟩ := Option.bind_eq_some_iff.mp h
  obtain ⟨year, hyear, h⟩ := Option.bind_eq_some_iff.mp h
  obtain ⟨⟨month, s2⟩, hmonth, h⟩ := Option.bind_eq_some_iff.mp h
  obtain ⟨s3, hdash', h⟩ := Option.bind_eq_some_iff.mp h
  obtain ⟨⟨day, s4⟩, hday, h⟩ := Option.bind_eq_some_iff.mp h
  obtain ⟨s5, hmark, h⟩ := Option.bind_eq_some_iff.mp h
  obtain ⟨⟨hour, s6⟩, hhour, h⟩ := Option.bind_eq_some_iff.mp h
  obtain ⟨s7, hcolon, h⟩ := Option.bind_eq_some_iff.mp h
  obtain ⟨⟨minute, s8⟩, hminute, h⟩ := Option.bind_eq_some_iff.mp h
  obtain ⟨s9, hcolon', h⟩ := Option.bind_eq_some_iff.mp h
  obtain ⟨⟨second, s10⟩, hsecond, h⟩ := Option.bind_eq_some_iff.mp h
  obtain ⟨⟨fraction, s11⟩, hfraction, h⟩ := Option.bind_eq_some_iff.mp h
  obtain ⟨offset, hoffset, h⟩ := Option.bind_eq_some_iff.mp h
  obtain rfl := Option.some.inj h
  dsimp only at *
  have hstart := stripSign_some hsign
  obtain rfl := splitOnce_some hdash
  obtain ⟨rfl, hfits⟩ := parseYear_some.mp hyear
  obtain ⟨rfl, hmonth_lt⟩ := takeFixedDigits_some hmonth
  obtain rfl := stripPrefix_some.mp hdash'
  obtain ⟨rfl, hday_lt⟩ := takeFixedDigits_some hday
  obtain rfl := stripPrefix_some.mp hmark
  obtain ⟨rfl, hhour_lt⟩ := takeFixedDigits_some hhour
  obtain rfl := stripPrefix_some.mp hcolon
  obtain ⟨rfl, hminute_lt⟩ := takeFixedDigits_some hminute
  obtain rfl := stripPrefix_some.mp hcolon'
  obtain ⟨rfl, hsecond_lt⟩ := takeFixedDigits_some hsecond
  obtain ⟨rfl, hdigits⟩ := readFraction_some hfraction
  obtain ⟨rfl, hwithin⟩ := readOffset_some hoffset
  exact ⟨⟨hfits, hmonth_lt, hday_lt, hhour_lt, hminute_lt, hsecond_lt, hdigits, hwithin⟩, hstart.symm⟩

theorem readStamp_of_text {text : String} {t : Stamp} (h : t.Written) (htext : t.text = text.toList) :
    readStamp text = some t := by
  have hyear : padded 4 t.year ≠ [] := by
    intro hnil
    have hdigits := (List.append_eq_nil_iff.mp hnil).2
    exact digitsOf_ne_nil t.year hdigits
  have hplain : ∀ c ∈ padded 4 t.year, c ≠ '-' := fun c hc =>
    ne_of_isDigit (List.all_eq_true.mp (all_padded 4 t.year) c hc) rfl
  unfold readStamp
  rw [← htext, Stamp.text, stripSign_digits t.negative hyear (all_padded 4 t.year)]
  dsimp only
  rw [splitOnce_append hplain]
  simp only [Option.bind_eq_bind, Option.bind_some, parseYear_some.mpr ⟨rfl, h.year⟩,
    takeFixedDigits_padded h.month, takeFixedDigits_padded h.day, takeFixedDigits_padded h.hour,
    takeFixedDigits_padded h.minute, takeFixedDigits_padded h.second, stripPrefix_self,
    readFraction_text h.fraction, readOffset_text h.offset]

end Eebus.Model
