import Screener.Binary64.Basic
import Screener.Decimal.Basic

/-!
The shortest decimal of a binary64 magnitude: the fewest digits that read back as the same
value, and of those the nearest. Texts that print it without an exponent follow.
-/

namespace Screener.Decimal

/-- Where a value goes that lies half-way between two equally short decimals. -/
inductive Tie where
  | up
  | even
deriving DecidableEq, Repr

/-- The place of the decimal point before the first digit: the magnitude of `units` is below
`10 ^ point` and not below a tenth of that.
-/
def point (units : Nat) : Int := (length (units * Nat.pow 5 1074) : Int) - 1074

/-- The decimal `digits · 10 ^ exponent` is read as the magnitude of `units`. -/
def readsBack (units digits : Nat) (exponent : Int) : Bool :=
  match Binary64.ofDecimal false digits exponent with
  | .finite _ read _ => read == units
  | _ => false

/-- Of two neighbouring decimals the one that reads back; if both do, the nearer. -/
def choice (units below : Nat) (exponent : Int) (nearerAbove : Bool) : Option (Nat × Int) :=
  match readsBack units below exponent, readsBack units (below + 1) exponent with
  | true, true => some (if nearerAbove then below + 1 else below, exponent)
  | true, false => some (below, exponent)
  | false, true => some (below + 1, exponent)
  | false, false => none

/-- The decimal with `count` digits that reads back as a magnitude, taken from the two around
it.
-/
def candidate (tie : Tie) (units count : Nat) : Option (Nat × Int) :=
  let exponent := point units - count
  let num := if exponent < 0 then units * Nat.pow 10 (-exponent).toNat else units
  let den := if exponent < 0 then Binary64.one else Binary64.one * Nat.pow 10 exponent.toNat
  let below := num / den
  let rest := num % den
  let nearerAbove :=
    den < 2 * rest || (2 * rest == den && (tie == .up || below % 2 == 1))
  choice units below exponent nearerAbove

/-- The digits and exponent of the shortest decimal. Seventeen digits suffice for every
value; the exact decimal stands behind them.
-/
def shortest (tie : Tie) (units : Nat) : Nat × Int :=
  ((List.range 17).findSome? fun i => candidate tie units (i + 1)).getD
    (units * Nat.pow 5 1074, -1074)

/-- The digits of a decimal without the zeros at their end, and their exponent. -/
def stripped (value : Nat) (exponent : Int) : List Char × Int :=
  let digits := natural value
  let kept := (digits.reverse.dropWhile (· == '0')).reverse
  (kept, exponent + (digits.length - kept.length : Nat))

/-- The digits of the shortest decimal without zeros at the end, and their exponent. -/
def significant (tie : Tie) (units : Nat) : List Char × Int :=
  let decimal := shortest tie units
  stripped decimal.1 decimal.2

/-- Digits with a decimal exponent, written without one. -/
def positional (digits : List Char) (exponent : Int) : List Char :=
  if 0 ≤ exponent then digits ++ List.replicate exponent.toNat '0'
  else
    let places := (-exponent).toNat
    if places < digits.length then
      digits.take (digits.length - places) ++ '.' :: digits.drop (digits.length - places)
    else '0' :: '.' :: (List.replicate (places - digits.length) '0' ++ digits)

/-- The sign that a written number starts with. -/
def sign (negative : Bool) : List Char := if negative then ['-'] else []

/-- A value in plain text: the shortest digits, never an exponent, no point in a whole
number, and a half-way choice goes up.
-/
def plain : Binary64 → String
  | .nan => "NaN"
  | .infinite negative => String.ofList (sign negative ++ ['i', 'n', 'f'])
  | .finite negative units _ =>
    if units = 0 then String.ofList (sign negative ++ ['0'])
    else
      let decimal := significant .up units
      String.ofList (sign negative ++ positional decimal.1 decimal.2)

end Screener.Decimal
