import Screener.Binary64.Basic
import Screener.Decimal.Basic
import Screener.Text.Blank
import Screener.Text.Lowercase
import Screener.Text.Substring

/-!
Patterns for fragments of free text: a number after a keyword, or words in a fixed order on
one line. The first place that fits decides.
-/

namespace Screener.Phrase

open Text (afterWord? afterFirst? trimStart)

/-- The text in the case that a pattern looks at. -/
def folded (ignoreCase : Bool) (text : List Char) : List Char :=
  if ignoreCase then Text.lower text else text

-----------------------------------------------------------------------------------------
-- Numbers
-----------------------------------------------------------------------------------------

/-- What follows the first of several words that the text starts with. -/
def afterAnyOf? (words : List String) (text : List Char) : Option (List Char) :=
  words.findSome? fun word => afterWord? word.toList text

/-- The digits of an unsigned number at the start of a text, before and after the point. A
point without a digit behind it does not belong to the number.
-/
def decimalParts? (text : List Char) : Option (List Char × List Char) :=
  let (whole, rest) := Decimal.spanDigits text
  let fraction :=
    match rest with
    | '.' :: rest => (Decimal.spanDigits rest).1
    | _ => []
  if whole.isEmpty then none else some (whole, fraction)

/-- The value of the unsigned number at the start of a text, under a sign. -/
def unsigned? (negative : Bool) (text : List Char) : Option Binary64 :=
  (decimalParts? text).map fun (whole, fraction) =>
    Binary64.ofDecimal negative (Decimal.digitsValue (whole ++ fraction))
      (-(fraction.length : Int))

/-- The value of the number at the start of a text, which may have a sign. -/
def signed? : List Char → Option Binary64
  | '+' :: rest => unsigned? false rest
  | '-' :: rest => unsigned? true rest
  | text => unsigned? false text

/-- The first result at a character of a text, from the left. -/
def leftmost? {α : Type} (f : List Char → Option α) : List Char → Option α
  | [] => none
  | c :: text => f (c :: text) <|> leftmost? f text

/-- A phrase with a number. Either a comparison and an unsigned number follow the keyword, or
a number that may have a sign; blanks may stand between the parts.
-/
inductive NumberPhrase where
  | bounded (keywords comparisons : List String) (ignoreCase : Bool)
  | signed (keywords : List String)
deriving DecidableEq, Repr

/-- The number of a bounded phrase that starts the text. -/
def boundedAt? (keywords comparisons : List String) (text : List Char) : Option Binary64 := do
  let text ← afterAnyOf? keywords text
  let text ← afterAnyOf? comparisons (trimStart text)
  unsigned? false (trimStart text)

/-- The number of a signed phrase that starts the text. -/
def signedAt? (keywords : List String) (text : List Char) : Option Binary64 := do
  let text ← afterAnyOf? keywords text
  signed? (trimStart text)

/-- The number of the first such phrase in a text. -/
def NumberPhrase.scan : NumberPhrase → List Char → Option Binary64
  | .bounded keywords comparisons ignoreCase, text =>
    leftmost? (boundedAt? keywords comparisons) (folded ignoreCase text)
  | .signed keywords, text => leftmost? (signedAt? keywords) text

-----------------------------------------------------------------------------------------
-- Words in order
-----------------------------------------------------------------------------------------

/-- One word from each group, in order, on one line. -/
structure WordSequence where
  groups : List (List String)
  ignoreCase : Bool
deriving DecidableEq, Repr

/-- The character ends a line. -/
def isLineBreak (c : Char) : Bool :=
  c == '\n' || c == '\r' || c == '\u2028' || c == '\u2029'

/-- The longer of two texts. -/
def longer (a b : List Char) : List Char := if a.length < b.length then b else a

/-- What follows the occurrence that ends first among those of several words. This leaves the
most for the words that come next.
-/
def afterEarliest? (words : List String) (text : List Char) : Option (List Char) :=
  match words.filterMap fun word => afterFirst? word.toList text with
  | [] => none
  | rest :: others => some (others.foldl longer rest)

/-- The words stand on the line in order. -/
def holdsInOrder : (groups : List (List String)) → (line : List Char) → Bool
  | [], _ => true
  | words :: groups, line =>
    match afterEarliest? words line with
    | some rest => holdsInOrder groups rest
    | none => false

/-- Some line of the text has the words in order. -/
def WordSequence.scan (s : WordSequence) (text : List Char) : Bool :=
  ((folded s.ignoreCase text).splitOnP isLineBreak).any (holdsInOrder s.groups)

end Screener.Phrase
