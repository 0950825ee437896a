import Screener.Decimal.Basic

/-!
Whole numbers in texts, as machine words hold them.
-/

namespace Screener.Decimal

/-- The value of a text of digits only, one at least. -/
def digits? (text : List Char) : Option Nat :=
  if text.isEmpty || !text.all isDigit then none else some (digitsValue text)

/-- A number of 64 bits without a minus sign. -/
def natural64? (text : List Char) : Option Nat :=
  let digits :=
    match text with
    | '+' :: digits => digits
    | digits => digits
  (digits? digits).bind fun value => if value < UInt64.size then some value else none

/-- An integer of 64 bits, which may have a sign. -/
def integer64? (text : List Char) : Option Int :=
  let value? : Option Int :=
    match text with
    | '-' :: digits => (digits? digits).map fun value => -(value : Int)
    | '+' :: digits => (digits? digits).map fun value => (value : Int)
    | digits => (digits? digits).map fun value => (value : Int)
  value?.bind fun value =>
    if Int64.minValue.toInt ≤ value ∧ value ≤ Int64.maxValue.toInt then some value else none

end Screener.Decimal
