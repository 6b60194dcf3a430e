import Eebus.Library.Binary64
import Mathlib.Tactic.Linarith
import Mathlib.Tactic.FieldSimp
import Mathlib.Tactic.Ring

/-! Dyadic numbers of at most fifty-three bits are binary64 values: rounding them changes nothing. -/

namespace Eebus.Library

namespace F64

def ofPattern (pattern : Nat) : F64 := ⟨BitVec.ofNat 64 pattern⟩

theorem isSignNegative_ofPattern {pattern : Nat} (h : pattern < 2 ^ 63) :
    (ofPattern pattern).isSignNegative = false := by
  rw [isSignNegative, ofPattern, BitVec.msb_eq_decide, BitVec.toNat_ofNat,
    Nat.mod_eq_of_lt (by omega), decide_eq_false_iff_not]
  omega

theorem exponent_ofPattern {pattern : Nat} (h : pattern < 2 ^ 63) :
    (ofPattern pattern).exponent = pattern / 2 ^ 52 := by
  rw [exponent, ofPattern, BitVec.extractLsb'_toNat, BitVec.toNat_ofNat, Nat.mod_eq_of_lt (by omega),
    Nat.shiftRight_eq_div_pow, Nat.mod_eq_of_lt (by omega)]

theorem fraction_ofPattern {pattern : Nat} (h : pattern < 2 ^ 63) :
    (ofPattern pattern).fraction = pattern % 2 ^ 52 := by
  have hfits : pattern % 2 ^ 64 = pattern := Nat.mod_eq_of_lt (by omega)
  rw [fraction, ofPattern, BitVec.extractLsb'_toNat, BitVec.toNat_ofNat, hfits, Nat.shiftRight_zero]

theorem isNan_ofPattern {pattern : Nat} (h : pattern < 2047 * 2 ^ 52) :
    (ofPattern pattern).isNan = false ∧ (ofPattern pattern).isFinite = true := by
  have hexponent : (ofPattern pattern).exponent = pattern / 2 ^ 52 := exponent_ofPattern (by omega)
  have hne : (ofPattern pattern).exponent ≠ 2047 := by omega
  simp [isNan, isFinite, hne]

theorem key_ofPattern {pattern : Nat} (h : pattern < 2 ^ 63) : (ofPattern pattern).key = pattern := by
  rw [key, isSignNegative_ofPattern h, exponent_ofPattern h, fraction_ofPattern h]
  simp only [Bool.false_eq_true, if_false]
  omega

theorem exponent_neg (x : F64) : x.neg.exponent = x.exponent := by
  simp only [exponent, neg, BitVec.extractLsb'_xor]
  rw [show BitVec.extractLsb' 52 11 (0x8000000000000000 : BitVec 64) = 0#11 from rfl, BitVec.xor_zero]

theorem fraction_neg (x : F64) : x.neg.fraction = x.fraction := by
  simp only [fraction, neg, BitVec.extractLsb'_xor]
  rw [show BitVec.extractLsb' 0 52 (0x8000000000000000 : BitVec 64) = 0#52 from rfl, BitVec.xor_zero]

theorem isSignNegative_neg (x : F64) : x.neg.isSignNegative = !x.isSignNegative := by
  simp only [isSignNegative, neg, BitVec.msb_xor]
  rw [show (0x8000000000000000 : BitVec 64).msb = true from rfl, Bool.xor_true]

theorem toRat_neg (x : F64) : x.neg.toRat = -x.toRat := by
  have hsignificand : x.neg.significand = x.significand := by
    simp only [significand, exponent_neg, fraction_neg]
  have hshift : x.neg.shift = x.shift := by simp only [shift, exponent_neg]
  simp only [toRat, isSignNegative_neg, hsignificand, hshift]
  cases x.isSignNegative with
  | true => exact (neg_neg _).symm
  | false => rfl

theorem isNan_of_isFinite {x : F64} (h : x.isFinite = true) : x.isNan = false := by
  rw [isNan, beq_false_of_ne (bne_iff_ne.mp h), Bool.false_and]

theorem sub_self {x : F64} (h : x.isFinite = true) : x.sub x = zero := by
  have hneg : x.neg.isFinite = true := by rw [isFinite, exponent_neg, ← isFinite, h]
  rw [sub, add]
  simp only [isNan_of_isFinite h, isNan_of_isFinite hneg, h, hneg, isSignNegative_neg, toRat_neg,
    Bool.or_self, Bool.false_eq_true, if_false, Bool.not_true, Bool.and_not_self, add_neg_cancel]
  decide +kernel

theorem ofMagnitude_nonneg (n d : Nat) :
    (ofMagnitude false n d).isNan = false ∧ 0 ≤ (ofMagnitude false n d).key := by
  rw [ofMagnitude]
  by_cases hzero : n = 0
  · rw [if_pos hzero]
    exact ⟨rfl, by decide⟩
  · rw [if_neg hzero]
    split
    · exact ⟨by decide, by decide⟩
    · rename_i hsmall
      have hbound := Nat.lt_of_not_le hsmall
      rw [if_neg Bool.false_ne_true, Nat.zero_add]
      refine ⟨(isNan_ofPattern hbound).1, ?_⟩
      exact le_of_le_of_eq (Int.natCast_nonneg _) (key_ofPattern (by omega)).symm

theorem ofRat_nonneg {q : Rat} (hq : 0 ≤ q) :
    (ofRat false q).isNan = false ∧ 0 ≤ (ofRat false q).key := by
  have hsign : (if q = 0 then false else decide (q < 0)) = false := by
    split
    · rfl
    · exact decide_eq_false (not_lt.mpr hq)
  rw [ofRat, hsign]
  exact ofMagnitude_nonneg _ _

def dyadic (n j : Nat) : F64 := ofMagnitude false n (2 ^ j)

theorem roundHalfEven_mul (q : Nat) {d : Nat} (hd : 0 < d) : roundHalfEven (q * d) d = q := by
  simp only [roundHalfEven, Nat.mul_div_cancel q hd, Nat.mul_mod_left, Nat.mul_zero]
  exact if_pos (.inl hd)

theorem binade_dyadic {n j : Nat} (hn : 0 < n) (hj : j ≤ 1022) :
    binade n (2 ^ j) = n.log2 + 1022 - j := by
  have hlow : 2 ^ n.log2 ≤ n := Nat.log2_self_le (by omega)
  simp only [binade, Nat.log2_two_pow]
  have hkept : ¬ n * 2 ^ (-((n.log2 : Int) - j)).toNat < 2 ^ j * 2 ^ ((n.log2 : Int) - j).toNat := by
    rw [not_lt]
    rcases Nat.le_total j n.log2 with hle | hle
    · have hup : ((n.log2 : Int) - j).toNat = n.log2 - j := by omega
      have hdown : (-((n.log2 : Int) - j)).toNat = 0 := by omega
      rw [hup, hdown, ← pow_add, Nat.add_sub_cancel' hle, pow_zero, mul_one]
      exact hlow
    · have hup : ((n.log2 : Int) - j).toNat = 0 := by omega
      have hdown : (-((n.log2 : Int) - j)).toNat = j - n.log2 := by omega
      rw [hup, hdown, pow_zero, mul_one]
      calc 2 ^ j = 2 ^ n.log2 * 2 ^ (j - n.log2) := by rw [← pow_add, Nat.add_sub_cancel' hle]
        _ ≤ n * 2 ^ (j - n.log2) := Nat.mul_le_mul_right _ hlow
  rw [if_neg hkept]
  omega

/-- The significand of a number of at most fifty-three bits. -/
def aligned (n : Nat) : Nat := n * 2 ^ (52 - n.log2)

theorem log2_le {n : Nat} (hn : 0 < n) (hbits : n < 2 ^ 53) : n.log2 ≤ 52 := by
  have hlt := (Nat.log2_lt (k := 53) (by omega : n ≠ 0)).mpr hbits
  omega

theorem aligned_bounds {n : Nat} (hn : 0 < n) (hbits : n < 2 ^ 53) :
    2 ^ 52 ≤ aligned n ∧ aligned n < 2 ^ 53 := by
  have hlog := log2_le hn hbits
  have hlow : 2 ^ n.log2 ≤ n := Nat.log2_self_le (by omega)
  have hhigh : n < 2 ^ (n.log2 + 1) := Nat.lt_log2_self
  constructor
  · calc 2 ^ 52 = 2 ^ n.log2 * 2 ^ (52 - n.log2) := by rw [← pow_add, Nat.add_sub_cancel' hlog]
      _ ≤ aligned n := Nat.mul_le_mul_right _ hlow
  · calc aligned n < 2 ^ (n.log2 + 1) * 2 ^ (52 - n.log2) :=
          Nat.mul_lt_mul_of_pos_right hhigh (by positivity)
      _ = 2 ^ 53 := by rw [← pow_add]; congr 1; omega

theorem dyadic_eq {n j : Nat} (hn : 0 < n) (hbits : n < 2 ^ 53) (hj : j ≤ 1022) :
    dyadic n j = ofPattern ((n.log2 + 1022 - j) * 2 ^ 52 + aligned n) := by
  have hlog := log2_le hn hbits
  obtain ⟨-, hhigh⟩ := aligned_bounds hn hbits
  have hdenominator : 2 ^ j * 2 ^ (n.log2 + 1022 - j) = 2 ^ (n.log2 + 1022) := by
    rw [← pow_add]; congr 1; omega
  have hnumerator : n * 2 ^ 1074 = aligned n * 2 ^ (n.log2 + 1022) := by
    rw [aligned, mul_assoc, ← pow_add, show 52 - n.log2 + (n.log2 + 1022) = 1074 by omega]
  have hm : roundHalfEven (n * 2 ^ 1074) (2 ^ j * 2 ^ (n.log2 + 1022 - j)) = aligned n := by
    rw [hdenominator, hnumerator, roundHalfEven_mul _ (by positivity)]
  simp only [dyadic, ofMagnitude, binade_dyadic hn hj, hm, if_neg (Nat.pos_iff_ne_zero.mp hn)]
  rw [if_neg (by omega), if_neg Bool.false_ne_true, Nat.zero_add]
  rfl

structure Reads (x : F64) (n j : Nat) : Prop where
  sign : x.isSignNegative = false
  number : x.isNan = false
  finite : x.isFinite = true
  key_lt : x.key < 1077 * 2 ^ 52
  key_pos : 0 < x.key
  toRat : x.toRat = n / 2 ^ j
  toI64 : n < 2 ^ 53 → x.toI64 = (n / 2 ^ j : Nat)

theorem reads_dyadic {n j : Nat} (hn : 0 < n) (hbits : n < 2 ^ 53) (hj : j ≤ 1022) :
    Reads (dyadic n j) n j := by
  have hlog := log2_le hn hbits
  obtain ⟨hlow, hhigh⟩ := aligned_bounds hn hbits
  rw [dyadic_eq hn hbits hj]
  have hpattern : (n.log2 + 1022 - j) * 2 ^ 52 + aligned n < 1077 * 2 ^ 52 := by omega
  have hexponent : (ofPattern ((n.log2 + 1022 - j) * 2 ^ 52 + aligned n)).exponent =
      n.log2 + 1022 - j + 1 := by
    rw [exponent_ofPattern (by omega)]; omega
  have hfraction : (ofPattern ((n.log2 + 1022 - j) * 2 ^ 52 + aligned n)).fraction =
      aligned n - 2 ^ 52 := by
    rw [fraction_ofPattern (by omega)]; omega
  have hsignificand : (ofPattern ((n.log2 + 1022 - j) * 2 ^ 52 + aligned n)).significand =
      aligned n := by
    rw [significand, hexponent, hfraction, if_neg (by omega)]; omega
  have hshift : (ofPattern ((n.log2 + 1022 - j) * 2 ^ 52 + aligned n)).shift =
      n.log2 + 1022 - j := by
    rw [shift, hexponent]; omega
  have hsign : (ofPattern ((n.log2 + 1022 - j) * 2 ^ 52 + aligned n)).isSignNegative = false :=
    isSignNegative_ofPattern (by omega)
  obtain ⟨hnan, hfinite⟩ := isNan_ofPattern
    (show (n.log2 + 1022 - j) * 2 ^ 52 + aligned n < 2047 * 2 ^ 52 by omega)
  -- the significand at its shift is the number, both times `2 ^ 1074`
  have hscaled : aligned n * 2 ^ (n.log2 + 1022 - j) * 2 ^ j = n * 2 ^ 1074 := by
    rw [aligned, mul_assoc, mul_assoc, ← pow_add, ← pow_add,
      show 52 - n.log2 + (n.log2 + 1022 - j + j) = 1074 by omega]
  refine ⟨hsign, hnan, hfinite, ?_, ?_, ?_, fun _ => ?_⟩
  · rw [key_ofPattern (by omega)]; exact_mod_cast hpattern
  · rw [key_ofPattern (by omega)]; exact_mod_cast (by omega : 0 < _)
  · have hrat : ((aligned n * 2 ^ (n.log2 + 1022 - j) : Nat) : Rat) * 2 ^ j = n * 2 ^ 1074 := by
      exact_mod_cast hscaled
    simp only [F64.toRat, hsign, hsignificand, hshift, Bool.false_eq_true, if_false]
    rw [div_eq_div_iff (by positivity) (by positivity), hrat]
    push_cast
    ring
  · have hquotient : aligned n * 2 ^ (n.log2 + 1022 - j) / 2 ^ 1074 = n / 2 ^ j := by
      rw [← Nat.mul_div_mul_right _ _ (show 0 < 2 ^ j by positivity), hscaled, mul_comm (2 ^ 1074) (2 ^ j),
        Nat.mul_div_mul_right _ _ (by positivity)]
    have hle : n / 2 ^ j ≤ n := Nat.div_le_self _ _
    simp only [F64.toI64, hnan, hfinite, hsign, hsignificand, hshift, Bool.false_eq_true, if_false,
      Bool.not_true, hquotient]
    omega

end F64

end Eebus.Library
