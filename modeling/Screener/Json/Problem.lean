import Screener.Decimal.Shortest
import Screener.Text.Quoted
import Screener.Time.Reading

/-!
What can be wrong with a document: text that is not well-formed, or values that are not what
is asked for.
-/

namespace Screener.Json

/-- Ways in which a text fails to be well-formed. -/
inductive Malformed where
  | endInValue
  | endInList
  | endInObject
  | endInString
  | expectedValue
  | expectedName
  | expectedColon
  | expectedCommaOrBracket
  | expectedCommaOrBrace
  | keyNotText
  | trailingComma
  | trailingCharacters
  | invalidNumber
  | numberOutOfRange
  | invalidEscape
  | unpairedSurrogate
  | unfinishedSurrogate
  | controlCharacter
  | tooDeep
deriving DecidableEq, Repr

namespace Malformed

/-- The text ended too early, as opposed to going on wrongly. -/
def isEnd : Malformed → Bool
  | .endInValue | .endInList | .endInObject | .endInString => true
  | _ => false

def message : Malformed → String
  | .endInValue => "EOF while parsing a value"
  | .endInList => "EOF while parsing a list"
  | .endInObject => "EOF while parsing an object"
  | .endInString => "EOF while parsing a string"
  | .expectedValue => "expected value"
  | .expectedName => "expected ident"
  | .expectedColon => "expected `:`"
  | .expectedCommaOrBracket => "expected `,` or `]`"
  | .expectedCommaOrBrace => "expected `,` or `\x7d`"
  | .keyNotText => "key must be a string"
  | .trailingComma => "trailing comma"
  | .trailingCharacters => "trailing characters"
  | .invalidNumber => "invalid number"
  | .numberOutOfRange => "number out of range"
  | .invalidEscape => "invalid escape"
  | .unpairedSurrogate => "lone leading surrogate in hex escape"
  | .unfinishedSurrogate => "unexpected end of hex escape"
  | .controlCharacter =>
    "control character (\\u0000-\\u001F) found while parsing a string"
  | .tooDeep => "recursion limit exceeded"

end Malformed

/-- A value met in place of another, as messages name it. -/
inductive Found where
  | null
  | boolean (b : Bool)
  | integer (n : Int)
  | float (v : Binary64)
  | text (s : String)
  | list
  | object
deriving DecidableEq

/-- The exponent of a written number, with its sign. -/
private def exponentChars (exponent : Int) : List Char :=
  'e' :: ((if exponent < 0 then [] else ['+']) ++ (toString exponent).toList)

/-- The text of a float in a document: the shortest digits, positional from `1e-5` to below
`1e+16` and with an exponent beyond, a whole number with `.0`, and a half-way choice even.
-/
def floatText : Binary64 → List Char
  | .nan => ['N', 'a', 'N']
  | .infinite negative => Decimal.sign negative ++ ['i', 'n', 'f']
  | .finite negative units _ =>
    if units = 0 then Decimal.sign negative ++ ['0', '.', '0']
    else
      let (digits, exponent) := Decimal.significant .even units
      let point : Int := digits.length + exponent
      Decimal.sign negative ++
        if 0 ≤ exponent ∧ point ≤ 16 then Decimal.positional digits exponent ++ ['.', '0']
        else if -5 < point ∧ point ≤ 16 then Decimal.positional digits exponent
        else
          let mark := exponentChars (point - 1)
          match digits with
          | [] => mark
          | [d] => d :: mark
          | d :: rest => d :: '.' :: (rest ++ mark)

def Found.message : Found → String
  | .null => "null"
  | .boolean b => "boolean `" ++ (if b then "true" else "false") ++ "`"
  | .integer n => "integer `" ++ toString n ++ "`"
  | .float v => "floating point `" ++ String.ofList (floatText v) ++ "`"
  | .text s => "string " ++ Text.quoted s
  | .list => "sequence"
  | .object => "map"

/-- What is wrong with a document, the first such thing from its start. -/
inductive Problem where
  | malformed (cause : Malformed)
  | invalidType (found : Found) (expected : String)
  | invalidValue (found : Found) (expected : String)
  | invalidLength (length : Nat) (expected : String)
  | missingField (name : String)
  | duplicateField (name : String)
  | unknownVariant (found : String) (expected : List String)
  | badTime (cause : TimeProblem)
deriving DecidableEq

/-- A name between backquotes. -/
private def ticked (name : String) : String := "`" ++ name ++ "`"

def Problem.message : Problem → String
  | .malformed cause => cause.message
  | .invalidType found expected =>
    "invalid type: " ++ found.message ++ ", expected " ++ expected
  | .invalidValue found expected =>
    "invalid value: " ++ found.message ++ ", expected " ++ expected
  | .invalidLength length expected =>
    "invalid length " ++ Nat.repr length ++ ", expected " ++ expected
  | .missingField name => "missing field " ++ ticked name
  | .duplicateField name => "duplicate field " ++ ticked name
  | .unknownVariant found expected =>
    "unknown variant " ++ ticked found ++ ", expected one of " ++
      String.intercalate ", " (expected.map ticked)
  | .badTime cause => cause.message

end Screener.Json
