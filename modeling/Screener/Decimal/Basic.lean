/-!
Decimal numerals: the digits of a natural number and their value.
-/

namespace Screener.Decimal

/-- The ten digits of ASCII, which alone are read as digits. -/
def isDigit (c : Char) : Bool := '0' ≤ c && c ≤ '9'

/-- The value of a run of digits. -/
def digitsValue (digits : List Char) : Nat :=
  digits.foldl (fun value c => 10 * value + (c.toNat - '0'.toNat)) 0

/-- A natural number in decimal digits, without leading zeros. -/
def natural (n : Nat) : List Char := Nat.toDigits 10 n

/-- The leading run of digits and what follows it. -/
def spanDigits (text : List Char) : List Char × List Char :=
  (text.takeWhile isDigit, text.dropWhile isDigit)

/-- The number of decimal digits of `n`, from its number of bits. -/
def length (n : Nat) : Nat :=
  let low := n.log2 * 1233 / 4096
  if n < Nat.pow 10 (low + 1) then low + 1 else low + 2

end Screener.Decimal
