import Screener.Json.Problem

/-!
Documents as values, and their texts. A value whose members are in canonical order has one
text.
-/

namespace Screener.Json

/-- A number of a document: whole, or a float. -/
inductive Number where
  | integer (n : Int)
  | float (v : Binary64)
deriving DecidableEq

inductive Value where
  | null
  | boolean (b : Bool)
  | number (n : Number)
  | text (s : String)
  | list (elements : List Value)
  | object (members : List (String × Value))

namespace Value

instance : Inhabited Value := ⟨.null⟩

/-- A float as a value; what is not finite has no number. -/
def ofFloat (v : Binary64) : Value := if v.isFinite then .number (.float v) else .null

def ofNat (n : Nat) : Value := .number (.integer n)

def ofWord (n : UInt32) : Value := ofNat n.toNat

/-- An optional value; what is absent is null. -/
def ofOption {α : Type} (f : α → Value) : Option α → Value
  | some a => f a
  | none => .null

-----------------------------------------------------------------------------------------
-- Text
-----------------------------------------------------------------------------------------

/-- How one character stands in a string of a document. -/
def escaped (c : Char) : List Char :=
  if c = '"' then ['\\', '"']
  else if c = '\\' then ['\\', '\\']
  else if c = '\x08' then ['\\', 'b']
  else if c = '\x0c' then ['\\', 'f']
  else if c = '\n' then ['\\', 'n']
  else if c = '\r' then ['\\', 'r']
  else if c = '\t' then ['\\', 't']
  else if c.toNat < 32 then
    ['\\', 'u', '0', '0', Nat.digitChar (c.toNat / 16), Nat.digitChar (c.toNat % 16)]
  else [c]

/-- A string of a document. -/
def textChars (s : String) : List Char := '"' :: (s.toList.flatMap escaped ++ ['"'])

/-- A number of a document; a float that is not finite has none. -/
def numberChars : Number → List Char
  | .integer n => (toString n).toList
  | .float v => if v.isFinite then floatText v else ['n', 'u', 'l', 'l']

mutual

/-- The text of a value without blanks. -/
def chars : Value → List Char
  | .null => ['n', 'u', 'l', 'l']
  | .boolean true => ['t', 'r', 'u', 'e']
  | .boolean false => ['f', 'a', 'l', 's', 'e']
  | .number n => numberChars n
  | .text s => textChars s
  | .list elements => '[' :: (elementChars elements ++ [']'])
  | .object members => '\x7b' :: (memberChars members ++ ['\x7d'])

/-- The elements of a list, separated by commas. -/
def elementChars : List Value → List Char
  | [] => []
  | [v] => chars v
  | v :: rest => chars v ++ ',' :: elementChars rest

/-- The members of an object, separated by commas. -/
def memberChars : List (String × Value) → List Char
  | [] => []
  | [(key, v)] => textChars key ++ ':' :: chars v
  | (key, v) :: rest => textChars key ++ ':' :: (chars v ++ ',' :: memberChars rest)

end

/-- The text of a value on one line. -/
def render (v : Value) : String := String.ofList v.chars

/-- The start of a line at a depth. -/
private def lineStart (depth : Nat) : List Char := '\n' :: List.replicate (2 * depth) ' '

mutual

/-- The text of a value with each element and member on a line of its own. -/
def prettyChars (depth : Nat) : Value → List Char
  | .list [] => ['[', ']']
  | .list elements => '[' :: (prettyElements depth elements ++ lineStart depth ++ [']'])
  | .object [] => ['\x7b', '\x7d']
  | .object members =>
    '\x7b' :: (prettyMembers depth members ++ lineStart depth ++ ['\x7d'])
  | .null => ['n', 'u', 'l', 'l']
  | .boolean b => if b then ['t', 'r', 'u', 'e'] else ['f', 'a', 'l', 's', 'e']
  | .number n => numberChars n
  | .text s => textChars s

def prettyElements (depth : Nat) : List Value → List Char
  | [] => []
  | v :: rest =>
    lineStart (depth + 1) ++ prettyChars (depth + 1) v ++
      (if rest.isEmpty then [] else [',']) ++ prettyElements depth rest

def prettyMembers (depth : Nat) : List (String × Value) → List Char
  | [] => []
  | (key, v) :: rest =>
    lineStart (depth + 1) ++ textChars key ++ ':' :: ' ' :: prettyChars (depth + 1) v ++
      (if rest.isEmpty then [] else [',']) ++ prettyMembers depth rest

end

/-- The text of a value over several lines. -/
def renderLines (v : Value) : String := String.ofList (v.prettyChars 0)

-----------------------------------------------------------------------------------------
-- Members
-----------------------------------------------------------------------------------------

/-- The members with one set, in order of key; a key that is there takes the new value. -/
def insert (key : String) (value : Value) : List (String × Value) → List (String × Value)
  | [] => [(key, value)]
  | (other, v) :: rest =>
    if key < other then (key, value) :: (other, v) :: rest
    else if key = other then (key, value) :: rest
    else (other, v) :: insert key value rest

mutual

/-- The value with the members of every object in order of key. -/
def canonical : Value → Value
  | .list elements => .list (canonicalElements elements)
  | .object members => .object (canonicalMembers [] members)
  | v => v

def canonicalElements : List Value → List Value
  | [] => []
  | v :: rest => canonical v :: canonicalElements rest

/-- The members `done` with the canonical ones of `members` set one after another. -/
def canonicalMembers (done : List (String × Value))
    : List (String × Value) → List (String × Value)
  | [] => done
  | (key, v) :: rest => canonicalMembers (insert key (canonical v) done) rest

end

/-- The member of an object under a key; null where there is none. -/
def member (key : String) : Value → Value
  | .object members => ((members.find? fun m => m.1 == key).map (·.2)).getD .null
  | _ => .null

/-- The string that a value is. -/
def asText? : Value → Option String
  | .text s => some s
  | _ => none

end Value

end Screener.Json
