import Eebus.Model.Payload

/-! Scaled decimal numbers and the binary numbers they stand for. -/

namespace Eebus.Model

open Eebus.Library

def maxExactPow10 : Nat := 22

def pow10OverflowsAt : Nat := 309

def pow10 (exp : Nat) : F64 :=
  if exp ≤ maxExactPow10 then F64.ofInt (10 ^ exp)
  else if pow10OverflowsAt ≤ exp then F64.infinity false
  else
    (List.replicate (exp / maxExactPow10) (F64.ofInt (10 ^ maxExactPow10))).foldr F64.mul
      (F64.ofInt (10 ^ (exp % maxExactPow10)))

def exactSteps (scale : Int) : List Nat :=
  List.replicate (scale.natAbs / maxExactPow10) maxExactPow10 ++
    if scale.natAbs % maxExactPow10 = 0 then [] else [scale.natAbs % maxExactPow10]

def applySteps (up : Bool) : List Nat → F64 → Option F64
  | [], value => some value
  | step :: rest, value =>
    let value := if up then value.mul (pow10 step) else value.div (pow10 step)
    if !value.isFinite then none
    else if value.isZero then some F64.zero
    else applySteps up rest value

def scaledToF64 (number scale : Int) : Option F64 :=
  if number = 0 then some F64.zero
  else applySteps (decide (0 < scale)) (exactSteps scale) (F64.ofInt number)

def i64Limit : F64 := F64.ofRat false 9223372036854775000

def absF64 (v : F64) : F64 := if v.lt F64.zero then v.neg else v

def fitsI64 (value : F64) : Bool := (absF64 value).lt i64Limit

def roundHalfAway (v : F64) : F64 :=
  let half := F64.ofRat false (1 / 2)
  F64.ofInt (if F64.zero.le v then v.add half else v.sub half).toI64

def shiftDecimal (value : F64) (decimals : Nat) : F64 := value.mul (pow10 decimals)

def fitToI64 (value : F64) : F64 × Nat :=
  if fitsI64 value then (value, 0)
  else
    ((List.range' 1 299).findSome? fun scale =>
      let shifted := value.div (pow10 scale)
      if fitsI64 shifted then some (shifted, scale) else none).getD (value.div (pow10 300), 300)

namespace ScaledNumber

def new (number scale : Int) : ScaledNumber := ⟨some number, some scale⟩

def toF64 (n : ScaledNumber) : Option F64 := do
  scaledToF64 (← n.number) (n.scale.getD 0)

def fromF64 (value : F64) (maxDecimals : Nat) : ScaledNumber :=
  if !value.isFinite then new 0 0
  else
    let (value, baseScale) := fitToI64 value
    if 0 < baseScale then new (roundHalfAway value).toI64 baseScale
    else
      let maxDecimals := min maxDecimals 9
      let tolerance := F64.ofRat false (1 / 10 ^ 12)
      match (List.range (maxDecimals + 1)).findSome? fun decimals =>
          let scaled := shiftDecimal value decimals
          let rounded := roundHalfAway scaled
          if (absF64 (scaled.sub rounded)).le ((absF64 scaled).mul tolerance) && fitsI64 rounded then
            some (new rounded.toI64 (-decimals))
          else none with
      | some exact => exact
      | none =>
        let (scaled, extra) := fitToI64 (shiftDecimal value maxDecimals)
        new (roundHalfAway scaled).toI64 (extra - maxDecimals)

end ScaledNumber

example : (ScaledNumber.new 42 2).toF64 = some (F64.ofInt 4200) := by decide +kernel
example : ScaledNumber.fromF64 (F64.ofInt 4200) 2 = .new 4200 0 := by decide +kernel
example : ScaledNumber.fromF64 (F64.ofRat false (47 / 2)) 2 = .new 235 (-1) := by decide +kernel

end Eebus.Model
