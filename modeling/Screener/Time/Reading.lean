import Screener.Time.Timestamp
import Screener.Decimal.Basic
import Screener.Text.Blank

/-!
Reading a moment from text: date, `T` or a space, time, and an offset from Coordinated
Universal Time. Blanks may stand between the parts, and a signed year may be of any length.
-/

namespace Screener

/-- Why a text names no moment. -/
inductive TimeProblem where
  | tooShort
  | tooLong
  | invalid
  | outOfRange
  | impossible
deriving DecidableEq, Repr

def TimeProblem.message : TimeProblem → String
  | .tooShort => "premature end of input"
  | .tooLong => "trailing input"
  | .invalid => "input contains invalid characters"
  | .outOfRange => "input is out of range"
  | .impossible => "no possible date and time matching input"

namespace Timestamp

open Text (trimStart)

/-- At least one digit, and at most `width` of them where a width is given. -/
def number (width : Option Nat) (text : List Char)
    : Except TimeProblem (Nat × List Char) :=
  match text with
  | [] => .error .tooShort
  | c :: _ =>
    if Decimal.isDigit c then
      let run := text.takeWhile Decimal.isDigit
      let taken := run.take (width.getD run.length)
      .ok (Decimal.digitsValue taken, text.drop taken.length)
    else .error .invalid

/-- A number of at most two digits between two bounds, after blanks. -/
def bounded (low high : Nat) (text : List Char) : Except TimeProblem (Nat × List Char) := do
  let (n, rest) ← number (some 2) (trimStart text)
  if low ≤ n ∧ n ≤ high then .ok (n, rest) else .error .outOfRange

/-- A year: four digits, or any number of them after a sign. -/
def year (text : List Char) : Except TimeProblem (Int × List Char) := do
  let (value, rest) ←
    match trimStart text with
    | '-' :: rest => (number none rest).map fun (n, rest) => (-(n : Int), rest)
    | '+' :: rest => (number none rest).map fun (n, rest) => ((n : Int), rest)
    | rest => (number (some 4) rest).map fun (n, rest) => ((n : Int), rest)
  if -2147483648 ≤ value ∧ value ≤ 2147483647 then .ok (value, rest)
  else .error .outOfRange

/-- A separating mark, after blanks. -/
def mark (c : Char) (text : List Char) : Except TimeProblem (List Char) :=
  match trimStart text with
  | [] => .error .tooShort
  | d :: rest => if d = c then .ok rest else .error .invalid

/-- The decimals after a second, as nanoseconds; those beyond the ninth are dropped. -/
def fraction : List Char → Except TimeProblem (Nat × List Char)
  | '.' :: text => do
    let (n, rest) ← number (some 9) text
    .ok (n * Nat.pow 10 (9 - (text.length - rest.length)), rest.dropWhile Decimal.isDigit)
  | text => .ok (0, text)

/-- Two digits. A single character is too short unless it takes more than one byte. -/
def twoDigits : List Char → Except TimeProblem (Char × Char × List Char)
  | [] => .error .tooShort
  | [c] => .error (if c.toNat < 128 then .tooShort else .invalid)
  | a :: b :: rest =>
    if Decimal.isDigit a ∧ Decimal.isDigit b then .ok (a, b, rest) else .error .invalid

/-- A signed offset in minutes, the hours and minutes apart or not. -/
def signedOffset (negative : Bool) (text : List Char)
    : Except TimeProblem (Int × List Char) := do
  let (h, h', rest) ← twoDigits text
  let rest := rest.dropWhile fun c => c == ':' || Text.isBlank c
  let (m, m', rest) ← twoDigits rest
  if '5' < m then .error .outOfRange
  else
    let minutes := Decimal.digitsValue [h, h'] * 60 + Decimal.digitsValue [m, m']
    .ok (if negative then -(minutes : Int) else minutes, rest)

/-- The offset from Coordinated Universal Time, in minutes. -/
def offset (text : List Char) : Except TimeProblem (Int × List Char) :=
  match text with
  | [] => .error .tooShort
  | a :: rest =>
    if (text.take 3).map Char.toUpper = ['U', 'T', 'C'] then .ok (0, text.drop 3)
    else if a = 'Z' ∨ a = 'z' then .ok (0, rest)
    else if a = '+' then signedOffset false rest
    else if a = '-' ∨ a = '−' then signedOffset true rest
    else .error .invalid

/-- The moment `minutes` minutes before one, by at most a day. -/
def earlier? (t : Timestamp) (minutes : Int) : Option Timestamp :=
  let second := (t.second : Int) - 60 * minutes
  if second < 0 then t.date.previous?.bind fun d => of? d (second + 86400).toNat t.nanos
  else if second < 86400 then of? t.date second.toNat t.nanos
  else t.date.next?.bind fun d => of? d (second - 86400).toNat t.nanos

/-- The moment that a text names. -/
def parse (text : String) : Except TimeProblem Timestamp := do
  let (year, rest) ← year text.toList
  let rest ← mark '-' rest
  let (month, rest) ← bounded 1 12 rest
  let rest ← mark '-' rest
  let (day, rest) ← bounded 1 31 rest
  let rest ←
    match rest with
    | [] => .error .tooShort
    | c :: rest =>
      if c = 't' ∨ c = 'T' ∨ c = ' ' then .ok rest else .error .invalid
  let (hour, rest) ← bounded 0 23 rest
  let rest ← mark ':' rest
  let (minute, rest) ← bounded 0 59 rest
  let rest ← mark ':' rest
  let (second, rest) ← bounded 0 60 rest
  let (nanos, rest) ← fraction rest
  let (minutes, rest) ← offset (trimStart rest)
  if !(trimStart rest).isEmpty then .error .tooLong
  let local? := (Date.of? year month day).bind fun date =>
    of? date (hour * 3600 + minute * 60 + min second 59)
      (nanos + if second = 60 then 1000000000 else 0)
  match local? with
  | none => .error .outOfRange
  | some t =>
    if 1440 ≤ minutes.natAbs then .error .outOfRange
    else
      match t.earlier? minutes with
      | some t => .ok t
      | none => .error .impossible

end Timestamp

end Screener
