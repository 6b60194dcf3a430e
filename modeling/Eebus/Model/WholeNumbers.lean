import Eebus.Library.Exactness
import Eebus.Model.ScaledNumber
import Mathlib.Data.Nat.Prime.Basic

/-! Whole numbers on the wire: up to 2 ^ 52 a scaled number says them exactly. -/

namespace Eebus.Model

open Eebus.Library

namespace F64

theorem ofInt_natCast (n : Nat) : F64.ofInt n = F64.dyadic n 0 := by
  simp only [F64.ofInt, F64.dyadic, Int.natAbs_natCast, pow_zero]
  rw [decide_eq_false (by omega)]

theorem ofRat_natCast {n : Nat} (hn : 0 < n) (negative : Bool) :
    F64.ofRat negative n = F64.dyadic n 0 := by
  have hpos : (0 : Rat) < n := by exact_mod_cast hn
  rw [F64.ofRat, if_neg hpos.ne', decide_eq_false (not_lt.mpr hpos.le)]
  rfl

theorem ofRat_half (n : Nat) (negative : Bool) :
    F64.ofRat negative (n + 1 / 2) = F64.dyadic (2 * n + 1) 1 := by
  have hq : (n + 1 / 2 : Rat) = ((2 * n + 1 : Int) : Rat) / ((2 : Int) : Rat) := by
    push_cast
    ring
  have hcoprime : Nat.Coprime (2 * n + 1 : Int).natAbs (2 : Int).natAbs := by
    rw [show (2 * n + 1 : Int).natAbs = 2 * n + 1 by omega]
    exact Nat.coprime_two_right.mpr ⟨n, rfl⟩
  have hpos : (0 : Rat) < n + 1 / 2 := by positivity
  rw [F64.ofRat, if_neg hpos.ne', decide_eq_false (not_lt.mpr hpos.le), hq,
    Rat.num_div_eq_of_coprime (by decide) hcoprime]
  have hden := Rat.den_div_eq_of_coprime (by decide) hcoprime
  rw [show ((((2 * n + 1 : Int) : Rat) / ((2 : Int) : Rat)).den) = 2 by exact_mod_cast hden,
    show (2 * n + 1 : Int).natAbs = 2 * n + 1 by omega]
  rfl

end F64

section Whole

variable {n : Nat}

theorem roundHalfAway_ofInt (hn : 0 < n) (hsmall : n < 2 ^ 52) :
    roundHalfAway (F64.ofInt n) = F64.ofInt n := by
  have hv := F64.reads_dyadic (j := 0) hn (by omega) (by omega)
  have hhalf := F64.reads_dyadic (n := 1) (j := 1) (by omega) (by omega) (by omega)
  have hraised := F64.reads_dyadic (n := 2 * n + 1) (j := 1) (by omega) (by omega) (by omega)
  have hstep : F64.ofRat false (1 / 2) = F64.dyadic 1 1 := by
    simpa using F64.ofRat_half 0 false
  have hsign : F64.zero.le (F64.dyadic n 0) = true := by
    have hpos := hv.key_pos
    simp only [F64.le, hv.number, Bool.not_false, Bool.true_and, show F64.zero.isNan = false from rfl,
      decide_eq_true_eq, show F64.zero.key = 0 from rfl]
    omega
  have hsum : (F64.dyadic n 0).add (F64.dyadic 1 1) = F64.dyadic (2 * n + 1) 1 := by
    simp only [F64.add, hv.number, hhalf.number, hv.finite, hhalf.finite, hv.toRat, hhalf.toRat,
      Bool.or_self, Bool.false_eq_true, if_false, Bool.not_true]
    rw [← F64.ofRat_half n ((F64.dyadic n 0).isSignNegative && (F64.dyadic 1 1).isSignNegative)]
    congr 1
    push_cast
    ring
  simp only [roundHalfAway, F64.ofInt_natCast n, hstep, hsign, if_true, hsum,
    hraised.toI64 (by omega)]
  rw [← F64.ofInt_natCast n]
  congr 2
  omega

theorem mul_one_ofInt (hn : 0 < n) (hsmall : n < 2 ^ 52) :
    shiftDecimal (F64.ofInt n) 0 = F64.ofInt n := by
  have hv := F64.reads_dyadic (j := 0) hn (by omega) (by omega)
  have hone := F64.reads_dyadic (n := 1) (j := 0) (by omega) (by omega) (by omega)
  have hpow : pow10 0 = F64.dyadic 1 0 := by
    rw [pow10, if_pos (Nat.zero_le _), pow_zero, ← Nat.cast_one (R := Int), F64.ofInt_natCast]
  rw [shiftDecimal, hpow, F64.ofInt_natCast n]
  simp only [F64.mul, hv.number, hone.number, hv.finite, hone.finite, hv.toRat, hone.toRat,
    Bool.or_self, Bool.false_eq_true, if_false, Bool.not_true]
  have hproduct : (n / 2 ^ 0 * (1 : Nat) / 2 ^ 0 : Rat) = n := by push_cast; ring
  rw [← mul_div_assoc, hproduct, F64.ofRat_natCast hn]

theorem sub_self_ofInt (hn : 0 < n) (hsmall : n < 2 ^ 52) :
    (F64.ofInt n).sub (F64.ofInt n) = F64.zero := by
  rw [F64.ofInt_natCast n]
  exact Library.F64.sub_self (F64.reads_dyadic (j := 0) hn (by omega) (by omega)).finite

theorem absF64_ofInt (hn : 0 < n) (hsmall : n < 2 ^ 52) : absF64 (F64.ofInt n) = F64.ofInt n := by
  have hpos := (F64.reads_dyadic (j := 0) hn (by omega) (by omega)).key_pos
  have hlt : (F64.ofInt n).lt F64.zero = false := by
    rw [F64.ofInt_natCast n, F64.lt, show F64.zero.key = 0 from rfl, decide_eq_false (by omega),
      Bool.and_false]
  rw [absF64, hlt, if_neg Bool.false_ne_true]

theorem fitsI64_ofInt (hn : 0 < n) (hsmall : n < 2 ^ 52) : fitsI64 (F64.ofInt n) = true := by
  have hv := F64.reads_dyadic (j := 0) hn (by omega) (by omega)
  have hlimit : i64Limit.isNan = false ∧ 1085 * 2 ^ 52 ≤ i64Limit.key := by decide +kernel
  rw [fitsI64, absF64_ofInt hn hsmall, F64.ofInt_natCast n, F64.lt, hv.number, hlimit.1]
  have hkey := hv.key_lt
  simp only [Bool.not_false, Bool.true_and, decide_eq_true_eq]
  omega

theorem fromF64_ofInt (hsmall : n < 2 ^ 52) :
    ScaledNumber.fromF64 (F64.ofInt n) 0 = ScaledNumber.new n 0 := by
  rcases Nat.eq_zero_or_pos n with rfl | hn
  · decide +kernel
  have hv := F64.reads_dyadic (j := 0) hn (by omega) (by omega)
  have hfinite : (F64.ofInt n).isFinite = true := by rw [F64.ofInt_natCast n]; exact hv.finite
  have hclose : (absF64 F64.zero).le ((F64.ofInt n).mul (F64.ofRat false (1 / 10 ^ 12))) = true := by
    have htolerance : (F64.ofRat false (1 / 10 ^ 12)).isNan = false ∧
        (F64.ofRat false (1 / 10 ^ 12)).isFinite = true ∧
        (F64.ofRat false (1 / 10 ^ 12)).isSignNegative = false ∧
        0 ≤ (F64.ofRat false (1 / 10 ^ 12)).toRat := by decide +kernel
    obtain ⟨htnan, htfinite, htsign, htrat⟩ := htolerance
    have hproduct : (0 : Rat) ≤ (n / 2 ^ 0) * (F64.ofRat false (1 / 10 ^ 12)).toRat := by positivity
    obtain ⟨hnan, hkey⟩ := F64.ofRat_nonneg hproduct
    rw [F64.ofInt_natCast n, F64.mul, hv.number, hv.finite, htnan, htfinite, hv.sign, htsign, hv.toRat]
    simp only [Bool.or_self, Bool.false_eq_true, if_false, Bool.not_true, bne_self_eq_false]
    rw [show absF64 F64.zero = F64.zero from rfl, F64.le, hnan, show F64.zero.key = 0 from rfl,
      decide_eq_true hkey]
    rfl
  have htoI64 : (F64.ofInt n).toI64 = n := by
    rw [F64.ofInt_natCast n, hv.toI64 (by omega), pow_zero, Nat.div_one]
  simp only [ScaledNumber.fromF64, hfinite, fitToI64, fitsI64_ofInt hn hsmall, if_true, lt_irrefl,
    if_false, Bool.not_true, Bool.false_eq_true, Nat.zero_min, Nat.zero_add, List.range_one, List.findSome?_cons,
    mul_one_ofInt hn hsmall, roundHalfAway_ofInt hn hsmall, sub_self_ofInt hn hsmall,
    absF64_ofInt hn hsmall, hclose, Bool.and_self, htoI64]
  rfl

theorem fromF64_toF64_ofInt (hsmall : n < 2 ^ 52) :
    (ScaledNumber.fromF64 (F64.ofInt n) 0).toF64 = some (F64.ofInt n) := by
  rw [fromF64_ofInt hsmall]
  rcases Nat.eq_zero_or_pos n with rfl | hn
  · decide +kernel
  · have hne : (n : Int) ≠ 0 := by omega
    simp only [ScaledNumber.toF64, ScaledNumber.new, Option.getD_some, scaledToF64, Option.bind_eq_bind,
      Option.bind_some, if_neg hne]
    rfl

end Whole

end Eebus.Model
