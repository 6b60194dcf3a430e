import Mathlib.Data.Rat.Floor
import Mathlib.Data.BitVec

/-!
IEEE 754 binary64 numbers by their bit patterns, with the exact rational each finite pattern
stands for and the arithmetic that rounds the exact result to the nearest pattern, ties to even.
-/

namespace Eebus.Library

/-- A binary64 value: one sign bit, eleven exponent bits, fifty-two fraction bits. -/
structure F64 where
  bits : BitVec 64
deriving DecidableEq, Repr

namespace F64

def isSignNegative (x : F64) : Bool := x.bits.msb
def exponent (x : F64) : Nat := (x.bits.extractLsb' 52 11).toNat
def fraction (x : F64) : Nat := (x.bits.extractLsb' 0 52).toNat

def isFinite (x : F64) : Bool := x.exponent != 2047
def isNan (x : F64) : Bool := x.exponent == 2047 && x.fraction != 0
def isZero (x : F64) : Bool := x.exponent == 0 && x.fraction == 0

def zero : F64 := ⟨0⟩
def nan : F64 := ⟨0x7ff8000000000000⟩
def infinity (negative : Bool) : F64 :=
  ⟨if negative then 0xfff0000000000000 else 0x7ff0000000000000⟩

/-- The comparison `x < 0.0`, which neither zero nor a NaN passes. -/
def isNegative (x : F64) : Bool := x.isSignNegative && !x.isNan && !x.isZero

/-- The magnitude of a finite value as `significand * 2 ^ (shift - 1074)`. -/
def significand (x : F64) : Nat :=
  if x.exponent = 0 then x.fraction else 2 ^ 52 + x.fraction
def shift (x : F64) : Nat := x.exponent - 1

def toRat (x : F64) : Rat :=
  let magnitude : Rat := (x.significand * 2 ^ x.shift : Nat) / (2 ^ 1074 : Nat)
  if x.isSignNegative then -magnitude else magnitude

/-- The integer nearest to a fraction of naturals, ties to even. -/
def roundHalfEven (n d : Nat) : Nat :=
  let q := n / d
  let r := n % d
  if 2 * r < d ∨ (2 * r = d ∧ q % 2 = 0) then q else q + 1

/-- The binade of `n / d`, as the shift its significand is read at. -/
def binade (n d : Nat) : Nat :=
  let k : Int := (n.log2 : Int) - d.log2
  let k : Int := if n * 2 ^ (-k).toNat < d * 2 ^ k.toNat then k - 1 else k
  (k - 52 + 1074).toNat

/-- A magnitude rounded to the nearest pattern; past the largest finite one it is infinite. -/
def ofMagnitude (negative : Bool) (n d : Nat) : F64 :=
  let s := binade n d
  let m := roundHalfEven (n * 2 ^ 1074) (d * 2 ^ s)
  let magnitude := s * 2 ^ 52 + m
  if n = 0 then ⟨if negative then 0x8000000000000000 else 0⟩
  else if 2047 * 2 ^ 52 ≤ magnitude then infinity negative
  else ⟨BitVec.ofNat 64 ((if negative then 2 ^ 63 else 0) + magnitude)⟩

/-- A rational rounded to the nearest pattern; `negativeZero` is the sign an exact zero takes. -/
def ofRat (negativeZero : Bool) (q : Rat) : F64 :=
  ofMagnitude (if q = 0 then negativeZero else decide (q < 0)) q.num.natAbs q.den

def ofInt (n : Int) : F64 := ofMagnitude (decide (n < 0)) n.natAbs 1

def neg (x : F64) : F64 := ⟨x.bits ^^^ 0x8000000000000000⟩

def add (x y : F64) : F64 :=
  if x.isNan || y.isNan then nan
  else if !x.isFinite then (if !y.isFinite && x.isSignNegative != y.isSignNegative then nan else x)
  else if !y.isFinite then y
  else ofRat (x.isSignNegative && y.isSignNegative) (x.toRat + y.toRat)

def sub (x y : F64) : F64 := add x (neg y)

def mul (x y : F64) : F64 :=
  let negative := x.isSignNegative != y.isSignNegative
  if x.isNan || y.isNan then nan
  else if !x.isFinite || !y.isFinite then
    (if x.isZero || y.isZero then nan else infinity negative)
  else ofRat negative (x.toRat * y.toRat)

def div (x y : F64) : F64 :=
  let negative := x.isSignNegative != y.isSignNegative
  if x.isNan || y.isNan then nan
  else if !x.isFinite then (if !y.isFinite then nan else infinity negative)
  else if !y.isFinite then ofRat negative 0
  else if y.isZero then (if x.isZero then nan else infinity negative)
  else ofRat negative (x.toRat / y.toRat)

/-- Order on values that are numbers, the infinities at its ends. -/
def key (x : F64) : Int :=
  let m : Int := x.exponent * 2 ^ 52 + x.fraction
  if x.isSignNegative then -m else m

def lt (x y : F64) : Bool := !x.isNan && !y.isNan && decide (x.key < y.key)
def le (x y : F64) : Bool := !x.isNan && !y.isNan && decide (x.key ≤ y.key)
def eq (x y : F64) : Bool := !x.isNan && !y.isNan && decide (x.key = y.key)

instance : BEq F64 := ⟨eq⟩

theorem beq_iff {x y : F64} : (x == y) = true ↔ x.isNan = false ∧ y.isNan = false ∧ x.key = y.key := by
  have hbeq : (x == y) = (!x.isNan && !y.isNan && decide (x.key = y.key)) := rfl
  rw [hbeq]
  simp [and_assoc]

/-- A NaN is not even equal to itself; apart from that this is an equivalence. -/
instance : PartialEquivBEq F64 where
  symm h := beq_iff.mpr ⟨(beq_iff.mp h).2.1, (beq_iff.mp h).1, (beq_iff.mp h).2.2.symm⟩
  trans h h' := beq_iff.mpr
    ⟨(beq_iff.mp h).1, (beq_iff.mp h').2.1, (beq_iff.mp h).2.2.trans (beq_iff.mp h').2.2⟩

instance : LE F64 := ⟨fun x y => x.le y = true⟩
instance : LT F64 := ⟨fun x y => x.lt y = true⟩
instance : DecidableLE F64 := fun x y => inferInstanceAs (Decidable (x.le y = true))
instance : DecidableLT F64 := fun x y => inferInstanceAs (Decidable (x.lt y = true))

/-- The lesser of two; a NaN gives way to the other. -/
instance : Min F64 := ⟨fun x y => if x.isNan then y else if y.isNan || x.le y then x else y⟩

/-- The greater of two; a NaN gives way to the other. -/
instance : Max F64 := ⟨fun x y => if x.isNan then y else if y.isNan || y.le x then x else y⟩

/-- The cast to a signed 64-bit integer: truncation, saturating at both ends, zero for a NaN. -/
def toI64 (x : F64) : Int :=
  if x.isNan then 0
  else if !x.isFinite then (if x.isSignNegative then -2 ^ 63 else 2 ^ 63 - 1)
  else
    let t : Int := (x.significand * 2 ^ x.shift / 2 ^ 1074 : Nat)
    max (-2 ^ 63) (min (2 ^ 63 - 1) (if x.isSignNegative then -t else t))

end F64

end Eebus.Library
