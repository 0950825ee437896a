import Screener.Binary64.Basic
import Screener.Decimal.Basic

/-!
Number literals: an optional sign, digits with at most one point, and an optional exponent,
or one of the names of infinity and not-a-number in any case.
-/

namespace Screener.Decimal

/-- Why a text is no number literal. -/
inductive LiteralError where
  | empty
  | invalid
deriving DecidableEq, Repr

def LiteralError.message : LiteralError → String
  | .empty => "cannot parse float from empty string"
  | .invalid => "invalid float literal"

/-- The exponent after the digits of a literal: nothing, or a mark and a signed number. -/
def literalExponent : List Char → Option Int
  | [] => some 0
  | mark :: rest =>
    if mark = 'e' ∨ mark = 'E' then
      let (negative, digits) :=
        match rest with
        | '-' :: digits => (true, digits)
        | '+' :: digits => (false, digits)
        | digits => (false, digits)
      if digits.isEmpty || !digits.all isDigit then none
      else some (if negative then -(digitsValue digits : Int) else digitsValue digits)
    else none

/-- A literal without its sign, as digits and exponent. -/
def unsignedLiteral (text : List Char) : Option (Nat × Int) :=
  let (whole, rest) := spanDigits text
  let (fraction, rest) :=
    match rest with
    | '.' :: rest => spanDigits rest
    | rest => ([], rest)
  if whole.isEmpty && fraction.isEmpty then none
  else (literalExponent rest).map fun exponent =>
    (digitsValue (whole ++ fraction), exponent - fraction.length)

/-- The names of the values that have no digits. -/
def namedLiteral (negative : Bool) (text : List Char) : Option Binary64 :=
  let name := text.map Char.toLower
  if name = ['i', 'n', 'f'] ∨ name = ['i', 'n', 'f', 'i', 'n', 'i', 't', 'y'] then
    some (.infinite negative)
  else if name = ['n', 'a', 'n'] then some .nan
  else none

/-- The binary64 value of a literal that fills the text. -/
def literal (text : List Char) : Except LiteralError Binary64 :=
  if text.isEmpty then .error .empty
  else
    let (negative, rest) :=
      match text with
      | '-' :: rest => (true, rest)
      | '+' :: rest => (false, rest)
      | rest => (false, rest)
    match unsignedLiteral rest with
    | some (digits, exponent) => .ok (Binary64.ofDecimal negative digits exponent)
    | none =>
      match namedLiteral negative rest with
      | some value => .ok value
      | none => .error .invalid

end Screener.Decimal
