import Eebus.Model.Time
import Mathlib.Data.List.Basic

/-! Decimal digits: how a number is written, with leading zeros or without, and what digits say. -/

namespace Eebus.Model

def digitsOf (n : Nat) : List Char := (Nat.repr n).toList

theorem digitsOf_eq (n : Nat) : digitsOf n = Nat.toDigits 10 n := by
  rw [digitsOf, Nat.repr_eq_ofList_toDigits, String.toList_ofList]

theorem isDigit_of_mem_digitsOf {n : Nat} {c : Char} (h : c ∈ digitsOf n) : c.isDigit = true := by
  rw [digitsOf_eq] at h
  exact Nat.isDigit_of_mem_toDigits (by decide) (by decide) h

theorem ne_of_isDigit {c c' : Char} (h : c.isDigit = true) (h' : c'.isDigit = false) : c ≠ c' := by
  rintro rfl
  rw [h] at h'
  cases h'

theorem not_mem_digitsOf {n : Nat} {c : Char} (h : c.isDigit = false) : c ∉ digitsOf n :=
  fun hmem => ne_of_isDigit (isDigit_of_mem_digitsOf hmem) h rfl

theorem digitsOf_ne_nil (n : Nat) : digitsOf n ≠ [] := by
  rw [digitsOf_eq]
  exact List.length_pos_iff.mp Nat.length_toDigits_pos

theorem foldl_digits (digits : List Char) (init : Nat) :
    digits.foldl (fun n c => n * 10 + (c.toNat - '0'.toNat)) init = Nat.ofDigitChars 10 digits init := by
  rw [Nat.ofDigitChars_eq_foldl]
  refine List.foldl_ext _ _ init fun n c _ => ?_
  rw [Nat.mul_comm]

def numberOf (digits : List Char) : Nat := Nat.ofDigitChars 10 digits 0

theorem numberOf_append (a b : List Char) : numberOf (a ++ b) = numberOf a * 10 ^ b.length + numberOf b := by
  rw [numberOf, Nat.ofDigitChars_append, Nat.ofDigitChars_eq_ofDigitChars_zero, Nat.mul_comm]
  rfl

theorem numberOf_lt {digits : List Char} (h : digits.all Char.isDigit = true) :
    numberOf digits < 10 ^ digits.length := by
  have hlt := readDigits_lt h 0
  rwa [foldl_digits, Nat.zero_add, Nat.one_mul] at hlt

@[simp] theorem numberOf_zeros (n : Nat) : numberOf (List.replicate n '0') = 0 := by
  rw [numberOf, Nat.ofDigitChars_replicate_zero, Nat.mul_zero]

@[simp] theorem numberOf_digitsOf (n : Nat) : numberOf (digitsOf n) = n := by
  rw [numberOf, digitsOf_eq, Nat.ofDigitChars_ten_toDigits]

theorem numberOf_singleton (c : Char) : numberOf [c] = c.toNat - '0'.toNat := by
  rw [numberOf, Nat.ofDigitChars_cons, Nat.ofDigitChars_nil, Nat.mul_zero, Nat.zero_add]

theorem digit_injective {c c' : Char} (h : c.isDigit = true) (h' : c'.isDigit = true)
    (heq : numberOf [c] = numberOf [c']) : c = c' := by
  simp only [Char.isDigit, Bool.and_eq_true, decide_eq_true_eq] at h h'
  rw [numberOf_singleton, numberOf_singleton] at heq
  have hzero : '0'.toNat = 48 := rfl
  have hle : 48 ≤ c.toNat := h.1
  have hle' : 48 ≤ c'.toNat := h'.1
  exact Char.toNat_inj.mp (by omega)

theorem numberOf_injective {a b : List Char} (ha : a.all Char.isDigit = true) (hb : b.all Char.isDigit = true)
    (hlength : a.length = b.length) (h : numberOf a = numberOf b) : a = b := by
  induction a generalizing b with
  | nil => exact (List.length_eq_zero_iff.mp hlength.symm).symm
  | cons c a ih =>
    cases b with
    | nil => cases hlength
    | cons c' b =>
      rw [List.all_cons, Bool.and_eq_true] at ha hb
      have hlength' : a.length = b.length := Nat.succ.inj hlength
      have hsplit : ∀ (c : Char) (l : List Char), numberOf (c :: l) = numberOf [c] * 10 ^ l.length + numberOf l :=
        fun c l => numberOf_append [c] l
      have hlt := numberOf_lt ha.2
      have hlt' := numberOf_lt hb.2
      rw [hsplit c a, hsplit c' b, hlength'] at h
      rw [hlength'] at hlt
      have hpos : 0 < 10 ^ b.length := Nat.pow_pos (by decide)
      have hhead : numberOf [c] = numberOf [c'] := by
        have hdiv := congrArg (· / 10 ^ b.length) h
        simpa [Nat.mul_comm _ (10 ^ b.length), Nat.mul_add_div hpos, Nat.div_eq_of_lt hlt,
          Nat.div_eq_of_lt hlt'] using hdiv
      have htail : numberOf a = numberOf b := by
        rw [hhead] at h
        exact Nat.add_left_cancel h
      rw [digit_injective ha.1 hb.1 hhead, ih ha.2 hb.2 hlength' htail]

def padded (width n : Nat) : List Char := List.replicate (width - (digitsOf n).length) '0' ++ digitsOf n

theorem all_digitsOf (n : Nat) : (digitsOf n).all Char.isDigit = true :=
  List.all_eq_true.mpr fun _ hc => isDigit_of_mem_digitsOf hc

theorem all_padded (width n : Nat) : (padded width n).all Char.isDigit = true := by
  rw [padded, List.all_append, all_digitsOf, Bool.and_true]
  exact List.all_eq_true.mpr fun c hc => List.eq_of_mem_replicate hc ▸ rfl

@[simp] theorem numberOf_padded (width n : Nat) : numberOf (padded width n) = n := by
  rw [padded, numberOf_append, numberOf_zeros, Nat.zero_mul, Nat.zero_add, numberOf_digitsOf]

theorem length_digitsOf_le {width n : Nat} (hwidth : 0 < width) :
    (digitsOf n).length ≤ width ↔ n < 10 ^ width := by
  rw [digitsOf_eq]
  exact Nat.length_toDigits_le_iff (by decide) hwidth

theorem length_padded {width n : Nat} (hwidth : 0 < width) (h : n < 10 ^ width) :
    (padded width n).length = width := by
  have hle := (length_digitsOf_le hwidth).mpr h
  rw [padded, List.length_append, List.length_replicate]
  omega

theorem padded_numberOf {digits : List Char} (h : digits.all Char.isDigit = true) (hpos : 0 < digits.length) :
    padded digits.length (numberOf digits) = digits :=
  numberOf_injective (all_padded _ _) h (length_padded hpos (numberOf_lt h)) (numberOf_padded _ _)

theorem numberOf_cons (c : Char) (digits : List Char) :
    numberOf (c :: digits) = numberOf [c] * 10 ^ digits.length + numberOf digits :=
  numberOf_append [c] digits

theorem head_digitsOf {n : Nat} {c : Char} {rest : List Char} (h : digitsOf n = c :: rest) (hrest : rest ≠ []) :
    c ≠ '0' := by
  rintro rfl
  have hdigits : rest.all Char.isDigit = true := by
    have hall := all_digitsOf n
    rw [h, List.all_cons, Bool.and_eq_true] at hall
    exact hall.2
  have hn : n = numberOf rest := by
    have hnumber := numberOf_digitsOf n
    rw [h, numberOf_cons, show numberOf ['0'] = 0 from numberOf_zeros 1, Nat.zero_mul, Nat.zero_add] at hnumber
    exact hnumber.symm
  have hshort := (length_digitsOf_le (List.length_pos_iff.mpr hrest)).mpr (hn ▸ numberOf_lt hdigits)
  rw [h, List.length_cons] at hshort
  omega

theorem digitsOf_numberOf {c : Char} {rest : List Char} (h : (c :: rest).all Char.isDigit = true) (hc : c ≠ '0') :
    digitsOf (numberOf (c :: rest)) = c :: rest := by
  have hdigit : 1 ≤ numberOf [c] := by
    by_contra hzero
    rw [List.all_cons, Bool.and_eq_true] at h
    exact hc (digit_injective h.1 rfl (by rw [show numberOf ['0'] = 0 from numberOf_zeros 1]; omega))
  have hlarge : 10 ^ rest.length ≤ numberOf (c :: rest) := by
    rw [numberOf_cons]
    exact le_trans (Nat.le_mul_of_pos_left _ hdigit) (Nat.le_add_right _ _)
  have hle := (length_digitsOf_le (show 0 < (c :: rest).length from Nat.succ_pos _)).mpr (numberOf_lt h)
  have hge : rest.length < (digitsOf (numberOf (c :: rest))).length := by
    by_contra hshort
    cases Nat.eq_zero_or_pos rest.length with
    | inl hnil => exact digitsOf_ne_nil (numberOf (c :: rest)) (List.length_eq_zero_iff.mp (by omega))
    | inr hpos =>
      have hlt := (length_digitsOf_le hpos).mp (Nat.le_of_not_lt hshort)
      omega
  refine numberOf_injective (all_digitsOf _) h ?_ (numberOf_digitsOf _)
  rw [List.length_cons] at hle ⊢
  omega

end Eebus.Model
