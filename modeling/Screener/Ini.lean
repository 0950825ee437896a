import Screener.Text.Blank
import Screener.Text.Lowercase

/-!
Configuration texts of keys and values under headings in brackets. Names are kept in
lowercase, comments start with a semicolon or a hash sign, and the last entry of a name
counts.
-/

namespace Screener

/-- An entry under a heading; a key that stands alone has no value. -/
structure IniEntry where
  heading : String
  key : String
  value : Option String
deriving DecidableEq, Repr

/-- The entries of a configuration in the order of its lines. -/
structure Ini where
  entries : List IniEntry
deriving DecidableEq, Repr

/-- Why a configuration cannot be read, with the number of the line. -/
inductive IniProblem where
  | openBracket (line : Nat)
  | emptyKey (line : Nat)
deriving DecidableEq, Repr

def IniProblem.message : IniProblem → String
  | .openBracket line =>
    "line " ++ Nat.repr line ++
      ": Found opening bracket for section name but no closing bracket"
  | .emptyKey line => "line " ++ Nat.repr line ++ ":0: Key cannot be empty"

namespace Ini

/-- The configuration that says nothing. -/
def empty : Ini := ⟨[]⟩

/-- The value of a key under a heading, whatever their case. -/
def get? (ini : Ini) (heading key : String) : Option String :=
  let heading := Text.lowercase heading
  let key := Text.lowercase key
  (ini.entries.reverse.find? fun e => e.heading == heading && e.key == key).bind (·.value)

-----------------------------------------------------------------------------------------
-- Lines
-----------------------------------------------------------------------------------------

/-- The heading of the entries before the first heading. -/
def firstHeading : String := "default"

/-- The character starts a comment. -/
def startsComment (c : Char) : Bool := c == ';' || c == '#'

/-- A line without comment and blanks around it. -/
def content (line : List Char) : List Char :=
  Text.trim ((Text.trim line).takeWhile fun c => !startsComment c)

/-- A name in lowercase without blanks around it. -/
def name (text : List Char) : String :=
  String.ofList (Text.lower (Text.trim text))

/-- What stands before the last closing bracket. -/
def beforeLastBracket? (text : List Char) : Option (List Char) :=
  match text.reverse.dropWhile (· != ']') with
  | [] => none
  | _ :: before => some before.reverse

/-- The character parts a key from its value. -/
def isDelimiter (c : Char) : Bool := c == '=' || c == ':'

/-- What one line does to the heading and the entries so far, the latest first. -/
def readLine (state : String × List IniEntry) (line : List Char × Nat)
    : Except IniProblem (String × List IniEntry) :=
  let (heading, entries) := state
  match content line.1 with
  | [] => .ok (heading, entries)
  | '[' :: rest =>
    match beforeLastBracket? rest with
    | some title => .ok (name title, entries)
    | none => .error (.openBracket line.2)
  | text =>
    let key := name (text.takeWhile fun c => !isDelimiter c)
    match text.dropWhile fun c => !isDelimiter c with
    | [] => .ok (heading, ⟨heading, key, none⟩ :: entries)
    | _ :: value =>
      if key = "" then .error (.emptyKey line.2)
      else .ok (heading, ⟨heading, key, some (String.ofList (Text.trim value))⟩ :: entries)

/-- The configuration in a text. -/
def parse (text : String) : Except IniProblem Ini := do
  let lines := (text.toList.splitOn '\n').zipIdx 1
  let (_, entries) ← lines.foldlM readLine (firstHeading, [])
  return ⟨entries.reverse⟩

end Ini

end Screener
