import Screener.Binary64.Basic
import Screener.Decimal.Basic

/-!
A magnitude with a fixed number of decimal places. What lies exactly half-way at the last
place is printed as the next binary64 value above.
-/

namespace Screener.Decimal

/-- A whole number of `10 ^ -places`, written with exactly that many places. -/
def withPlaces (places value : Nat) : List Char :=
  let digits := natural value
  let padded := List.replicate (places + 1 - digits.length) '0' ++ digits
  if places = 0 then padded
  else padded.take (padded.length - places) ++ '.' :: padded.drop (padded.length - places)

/-- The magnitude in whole `10 ^ -places`, rounded to nearest with ties to even. -/
def roundedPlaces (places units : Nat) : Nat :=
  Binary64.divEven (units * Nat.pow 10 places) Binary64.one

/-- The magnitude lies exactly half-way between two multiples of `10 ^ -places`. -/
def isHalfway (places units : Nat) : Bool :=
  2 * (units * Nat.pow 10 places % Binary64.one) == Binary64.one

/-- The magnitude of the next value above. -/
def nextAbove (units : Nat) : Nat := units + Binary64.gap units

/-- A magnitude with a fixed number of places. -/
def fixed (places units : Nat) : List Char :=
  withPlaces places
    (roundedPlaces places (if isHalfway places units then nextAbove units else units))

end Screener.Decimal
