import Screener.Binary64.Arithmetic

/-!
The natural logarithm, from the series of the inverse hyperbolic tangent in fixed point.
The working precision is far beyond the 53 bits kept.
-/

namespace Screener.Binary64

/-- One in the fixed point of the series, 160 fractional bits. -/
def fixedOne : Nat := Nat.pow 2 160

/-- The sum of `z^(2i+1) / (2i+1)` for `terms` terms, where `power` is the next odd power of
`z` and `divisor` the next odd number.
-/
def artanhSeries (square : Nat) : (terms power divisor : Nat) → Nat
  | 0, _, _ => 0
  | terms + 1, power, divisor =>
    power / divisor + artanhSeries square terms (power * square / fixedOne) (divisor + 2)

/-- The logarithm of `num / den`, for a ratio from one to two, in fixed point. -/
def logRatio (num den : Nat) : Nat :=
  let z := (num - den) * fixedOne / (num + den)
  2 * artanhSeries (z * z / fixedOne) 56 z 1

/-- The logarithm of two in fixed point. -/
def logTwo : Nat := logRatio 2 1

/-- The natural logarithm: that of zero is negatively infinite, that of a negative value is
not a number.
-/
def ln : Binary64 → Binary64
  | .nan => .nan
  | .infinite negative => if negative then .nan else .infinite false
  | .finite negative units _ =>
    if units = 0 then .infinite true
    else if negative then .nan
    else
      let bits := units.log2
      let octaves : Int := (bits : Int) - 1074
      let total := octaves * logTwo + logRatio units (Nat.pow 2 bits)
      round (decide (total < 0)) (total.natAbs * one) fixedOne

end Screener.Binary64
