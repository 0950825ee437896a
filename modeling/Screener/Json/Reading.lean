import Screener.Json.Value

/-!
Reading documents from the front. Each reader takes what it needs from the text and returns
the rest, or the first thing that is wrong. A value that is not asked for is passed over with
less care: its strings may pair surrogates wrongly.
-/

namespace Screener.Json

/-- Takes a value from the start of a text. -/
abbrev Reader (α : Type) := List Char → Except Problem (α × List Char)

/-- The end of reading at text that is not well-formed. -/
def malformed {α : Type} (cause : Malformed) : Except Problem α := .error (.malformed cause)

/-- The four characters that may stand between the parts of a document. -/
def isSpace (c : Char) : Bool := c == ' ' || c == '\n' || c == '\t' || c == '\r'

/-- The text from its first character that is not a space. -/
def skipSpace (text : List Char) : List Char := text.dropWhile isSpace

-----------------------------------------------------------------------------------------
-- Names and numbers
-----------------------------------------------------------------------------------------

/-- What follows the remaining letters of a name such as `null`. -/
def afterName : (letters text : List Char) → Except Problem (List Char)
  | [], text => .ok text
  | _ :: _, [] => malformed .endInValue
  | letter :: letters, c :: text =>
    if c = letter then afterName letters text else malformed .expectedName

/-- A number as it is written: sign, digits, and fraction and exponent where they are. -/
structure Numeral where
  negative : Bool
  whole : List Char
  fraction : Option (List Char)
  exponent : Option Int

/-- The exponent of a numeral, after its mark. -/
def exponentDigits (text : List Char) : Except Malformed (Int × List Char) :=
  let (negative, text) :=
    match text with
    | '-' :: rest => (true, rest)
    | '+' :: rest => (false, rest)
    | rest => (false, rest)
  match Decimal.spanDigits text with
  | ([], []) => .error .endInValue
  | ([], _ :: _) => .error .invalidNumber
  | (digits, rest) =>
    let value : Int := Decimal.digitsValue digits
    .ok (if negative then -value else value, rest)

/-- The exponent of a numeral, if there is one. -/
def exponentPart : List Char → Except Malformed (Option Int × List Char)
  | c :: rest =>
    if c = 'e' ∨ c = 'E' then (exponentDigits rest).map fun (e, rest) => (some e, rest)
    else .ok (none, c :: rest)
  | [] => .ok (none, [])

/-- The fraction of a numeral, if there is one. -/
def fractionPart : List Char → Except Malformed (Option (List Char) × List Char)
  | '.' :: rest =>
    match Decimal.spanDigits rest with
    | ([], []) => .error .endInValue
    | ([], _ :: _) => .error .invalidNumber
    | (digits, rest) => .ok (some digits, rest)
  | rest => .ok (none, rest)

/-- The digits before the point: a zero alone, or digits that start with another. -/
def wholePart : List Char → Except Malformed (List Char × List Char)
  | [] => .error .endInValue
  | '0' :: rest =>
    match rest with
    | c :: _ => if Decimal.isDigit c then .error .invalidNumber else .ok (['0'], rest)
    | [] => .ok (['0'], [])
  | c :: rest =>
    if Decimal.isDigit c then .ok (Decimal.spanDigits (c :: rest))
    else .error .invalidNumber

/-- A number as it is written. -/
def numeral (text : List Char) : Except Malformed (Numeral × List Char) := do
  let (negative, text) :=
    match text with
    | '-' :: rest => (true, rest)
    | rest => (false, rest)
  let (whole, text) ← wholePart text
  let (fraction, text) ← fractionPart text
  let (exponent, text) ← exponentPart text
  .ok (⟨negative, whole, fraction, exponent⟩, text)

/-- The value of a numeral as a float. -/
def Numeral.float (n : Numeral) : Binary64 :=
  let fraction := n.fraction.getD []
  Binary64.ofDecimal n.negative (Decimal.digitsValue (n.whole ++ fraction))
    (n.exponent.getD 0 - fraction.length)

/-- The number that a numeral stands for: whole without fraction and exponent as long as 64
bits hold it, else a float. Minus zero is a float.
-/
def Numeral.number (n : Numeral) : Number :=
  let value := Decimal.digitsValue n.whole
  match n.fraction, n.exponent with
  | none, none =>
    if n.negative then
      if 0 < value ∧ Int64.minValue.toInt ≤ -(value : Int) then .integer (-(value : Int))
      else .float n.float
    else if value < UInt64.size then .integer value
    else .float n.float
  | _, _ => .float n.float

/-- A number at the start of the text. -/
def readNumber : Reader Number := fun text =>
  match numeral text with
  | .error cause => malformed cause
  | .ok (n, rest) =>
    match n.number with
    | .float v => if v.isFinite then .ok (.float v, rest) else malformed .numberOutOfRange
    | number => .ok (number, rest)

-----------------------------------------------------------------------------------------
-- Strings
-----------------------------------------------------------------------------------------

/-- The value of four hexadecimal digits. -/
def hexQuad? (a b c d : Char) : Option Nat := do
  let high := (← Text.hexValue? a) * 16 + (← Text.hexValue? b)
  let low := (← Text.hexValue? c) * 16 + (← Text.hexValue? d)
  some (high * 256 + low)

/-- What is wrong with fewer than four characters where four digits are due: the text has
ended if they take fewer than four bytes.
-/
def shortQuad (text : List Char) : Malformed :=
  if (String.ofList text).utf8ByteSize < 4 then .endInString else .invalidEscape

/-- The character that a letter after a backslash stands for. -/
def shortEscape? (c : Char) : Option Char :=
  if c = '"' then some '"'
  else if c = '\\' then some '\\'
  else if c = '/' then some '/'
  else if c = 'b' then some '\x08'
  else if c = 'f' then some '\x0c'
  else if c = 'n' then some '\n'
  else if c = 'r' then some '\r'
  else if c = 't' then some '\t'
  else none

/-- The rest of a string after its first quote. A code unit by number that is half of a
pair must come with the other half.
-/
def stringRest : List Char → Except Malformed (List Char × List Char)
  | [] => .error .endInString
  | '"' :: rest => .ok ([], rest)
  | '\\' :: 'u' :: a :: b :: c :: d :: rest =>
    match hexQuad? a b c d with
    | none => .error .invalidEscape
    | some unit =>
      if 0xDC00 ≤ unit ∧ unit ≤ 0xDFFF then .error .unpairedSurrogate
      else if unit < 0xD800 ∨ 0xDBFF < unit then
        (stringRest rest).map fun (s, rest) => (Char.ofNat unit :: s, rest)
      else
        match rest with
        | '\\' :: 'u' :: e :: f :: g :: h :: rest =>
          match hexQuad? e f g h with
          | none => .error .invalidEscape
          | some low =>
            if 0xDC00 ≤ low ∧ low ≤ 0xDFFF then
              (stringRest rest).map fun (s, rest) =>
                (Char.ofNat ((unit - 0xD800) * 0x400 + (low - 0xDC00) + 0x10000) :: s, rest)
            else .error .unpairedSurrogate
        | '\\' :: 'u' :: rest => .error (shortQuad rest)
        | [] | ['\\'] => .error .endInString
        | _ => .error .unfinishedSurrogate
  | '\\' :: 'u' :: rest => .error (shortQuad rest)
  | ['\\'] => .error .endInString
  | '\\' :: c :: rest =>
    match shortEscape? c with
    | some c => (stringRest rest).map fun (s, rest) => (c :: s, rest)
    | none => .error .invalidEscape
  | c :: rest =>
    if c.toNat < 32 then .error .controlCharacter
    else (stringRest rest).map fun (s, rest) => (c :: s, rest)

/-- A string after its first quote. -/
def readText : Reader String := fun text =>
  match stringRest text with
  | .ok (s, rest) => .ok (String.ofList s, rest)
  | .error cause => malformed cause

/-- What follows a string that is passed over. -/
def passString : List Char → Except Problem (List Char)
  | [] => malformed .endInString
  | '"' :: rest => .ok rest
  | '\\' :: 'u' :: a :: b :: c :: d :: rest =>
    if (hexQuad? a b c d).isSome then passString rest else malformed .invalidEscape
  | '\\' :: 'u' :: rest => malformed (shortQuad rest)
  | ['\\'] => malformed .endInString
  | '\\' :: c :: rest =>
    if (shortEscape? c).isSome then passString rest else malformed .invalidEscape
  | c :: rest => if c.toNat < 32 then malformed .controlCharacter else passString rest

-----------------------------------------------------------------------------------------
-- Values that are passed over
-----------------------------------------------------------------------------------------

/-- What follows a number that is passed over; here a number that breaks off is wrong, and
none is out of range.
-/
def passNumber (text : List Char) : Except Problem (List Char) :=
  match numeral text with
  | .ok (_, rest) => .ok rest
  | .error _ => malformed .invalidNumber

/-- What follows the colon after a key. -/
def afterColon (text : List Char) : Except Problem (List Char) :=
  match skipSpace text with
  | [] => malformed .endInObject
  | ':' :: rest => .ok rest
  | _ => malformed .expectedColon

mutual

/-- What follows a value that is passed over. The length of the text bounds the steps. -/
def passValue : (fuel : Nat) → List Char → Except Problem (List Char)
  | 0, _ => malformed .endInValue
  | fuel + 1, text =>
    match skipSpace text with
    | [] => malformed .endInValue
    | 'n' :: rest => afterName ['u', 'l', 'l'] rest
    | 't' :: rest => afterName ['r', 'u', 'e'] rest
    | 'f' :: rest => afterName ['a', 'l', 's', 'e'] rest
    | '"' :: rest => passString rest
    | '[' :: rest =>
      match skipSpace rest with
      | [] => malformed .endInList
      | ']' :: rest => .ok rest
      | rest => passElements fuel rest
    | '\x7b' :: rest =>
      match skipSpace rest with
      | [] => malformed .endInObject
      | '\x7d' :: rest => .ok rest
      | rest => passMembers fuel rest
    | c :: rest =>
      if c = '-' ∨ Decimal.isDigit c then passNumber (c :: rest)
      else malformed .expectedValue

/-- What follows the elements of a list from one of them on. -/
def passElements : (fuel : Nat) → List Char → Except Problem (List Char)
  | 0, _ => malformed .endInList
  | fuel + 1, text => do
    let rest ← passValue fuel text
    match skipSpace rest with
    | [] => malformed .endInList
    | ',' :: rest => passElements fuel rest
    | ']' :: rest => .ok rest
    | _ => malformed .expectedCommaOrBracket

/-- What follows the members of an object from one of them on. -/
def passMembers : (fuel : Nat) → List Char → Except Problem (List Char)
  | 0, _ => malformed .endInObject
  | fuel + 1, text =>
    match skipSpace text with
    | [] => malformed .endInObject
    | '"' :: rest => do
      let rest ← afterColon (← passString rest)
      let rest ← passValue fuel rest
      match skipSpace rest with
      | [] => malformed .endInObject
      | ',' :: rest => passMembers fuel rest
      | '\x7d' :: rest => .ok rest
      | _ => malformed .expectedCommaOrBrace
    | _ => malformed .keyNotText

end

/-- Passes over a value. -/
def pass : Reader Unit := fun text =>
  (passValue (2 * text.length + 2) text).map fun rest => ((), rest)

-----------------------------------------------------------------------------------------
-- Values of any kind
-----------------------------------------------------------------------------------------

/-- The next element of a list can start here: after the first one a comma stands before it.
Nothing where the list ends.
-/
def nextElement (first : Bool) (text : List Char) : Except Problem (Option (List Char)) :=
  match skipSpace text with
  | [] => malformed .endInList
  | ']' :: _ => .ok none
  | c :: rest =>
    if first then .ok (some (c :: rest))
    else if c = ',' then
      match skipSpace rest with
      | [] => malformed .endInValue
      | ']' :: _ => malformed .trailingComma
      | rest => .ok (some rest)
    else malformed .expectedCommaOrBracket

/-- The text after the quote of the next key of an object. Nothing where the object ends. -/
def nextKey (first : Bool) (text : List Char) : Except Problem (Option (List Char)) :=
  match skipSpace text with
  | [] => malformed .endInObject
  | '\x7d' :: _ => .ok none
  | c :: rest =>
    if first then
      if c = '"' then .ok (some rest) else malformed .keyNotText
    else if c = ',' then
      match skipSpace rest with
      | [] => malformed .endInValue
      | '"' :: rest => .ok (some rest)
      | '\x7d' :: _ => malformed .trailingComma
      | _ => malformed .keyNotText
    else malformed .expectedCommaOrBrace

/-- What follows the bracket that ends a list. -/
def listEnd (text : List Char) : Except Problem (List Char) :=
  match skipSpace text with
  | [] => malformed .endInList
  | ']' :: rest => .ok rest
  | ',' :: rest =>
    match skipSpace rest with
    | ']' :: _ => malformed .trailingComma
    | _ => malformed .trailingCharacters
  | _ => malformed .trailingCharacters

/-- What follows the brace that ends an object. -/
def objectEnd (text : List Char) : Except Problem (List Char) :=
  match skipSpace text with
  | [] => malformed .endInObject
  | '\x7d' :: rest => .ok rest
  | ',' :: _ => malformed .trailingComma
  | _ => malformed .trailingCharacters

mutual

/-- A value of any kind; lists and objects are at most `depth - 1` deep. -/
def valueAt : (fuel depth : Nat) → Reader Value
  | 0, _, _ => malformed .endInValue
  | fuel + 1, depth, text =>
    match skipSpace text with
    | [] => malformed .endInValue
    | 'n' :: rest => (afterName ['u', 'l', 'l'] rest).map fun rest => (.null, rest)
    | 't' :: rest => (afterName ['r', 'u', 'e'] rest).map fun rest => (.boolean true, rest)
    | 'f' :: rest =>
      (afterName ['a', 'l', 's', 'e'] rest).map fun rest => (.boolean false, rest)
    | '"' :: rest => (readText rest).map fun (s, rest) => (.text s, rest)
    | '[' :: rest =>
      if depth ≤ 1 then malformed .tooDeep
      else do
        let (elements, rest) ← elementsAt fuel (depth - 1) true rest
        .ok (.list elements, ← listEnd rest)
    | '\x7b' :: rest =>
      if depth ≤ 1 then malformed .tooDeep
      else do
        let (members, rest) ← membersAt fuel (depth - 1) true [] rest
        .ok (.object members, ← objectEnd rest)
    | c :: rest =>
      if c = '-' ∨ Decimal.isDigit c then
        (readNumber (c :: rest)).map fun (n, rest) => (.number n, rest)
      else malformed .expectedValue

/-- The elements of a list up to its bracket. -/
def elementsAt : (fuel depth : Nat) → (first : Bool) → Reader (List Value)
  | 0, _, _, _ => malformed .endInList
  | fuel + 1, depth, first, text => do
    match ← nextElement first text with
    | none => .ok ([], text)
    | some text =>
      let (v, rest) ← valueAt fuel depth text
      let (others, rest) ← elementsAt fuel depth false rest
      .ok (v :: others, rest)

/-- The members of an object up to its brace, set one after another. -/
def membersAt : (fuel depth : Nat) → (first : Bool) → (done : List (String × Value)) →
    Reader (List (String × Value))
  | 0, _, _, _, _ => malformed .endInObject
  | fuel + 1, depth, first, done, text => do
    match ← nextKey first text with
    | none => .ok (done, text)
    | some text =>
      let (key, rest) ← readText text
      let (v, rest) ← valueAt fuel depth (← afterColon rest)
      membersAt fuel depth false (Value.insert key v done) rest

end

/-- Nothing but spaces follows. -/
def finish {α : Type} (result : α × List Char) : Except Problem α :=
  if (skipSpace result.2).isEmpty then .ok result.1 else malformed .trailingCharacters

/-- The document that a reader takes from the whole of a text. -/
def document {α : Type} (reader : Reader α) (text : String) : Except Problem α :=
  reader text.toList >>= finish

/-- The value that a text stands for, with the members of its objects in order of key. -/
def Value.parse (text : String) : Except Problem Value :=
  document (fun text => valueAt (2 * text.length + 2) 128 text) text

end Screener.Json
