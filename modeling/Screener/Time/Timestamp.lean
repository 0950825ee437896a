import Screener.Time.Date

/-!
Moments in Coordinated Universal Time, to the nanosecond, and their texts. The text with six
decimals has a fixed width, so that the order of texts is the order of times.
-/

namespace Screener

/-- A moment: its day, the second of that day and the nanoseconds since. During a leap
second, which prolongs the second before it, the nanoseconds run on from `10 ^ 9`.
-/
structure Timestamp where
  date : Date
  second : Nat
  nanos : Nat
  second_lt : second < 86400
  nanos_lt : nanos < 2000000000
deriving DecidableEq

namespace Timestamp

/-- The moment named by three numbers, if there is one. -/
def of? (date : Date) (second nanos : Nat) : Option Timestamp :=
  if h : second < 86400 ∧ nanos < 2000000000 then some ⟨date, second, nanos, h.1, h.2⟩
  else none

/-- The moment that lies a number of seconds after the start of 1970. -/
def ofSeconds? (seconds nanos : Nat) : Option Timestamp :=
  (Date.ofDays? (seconds / 86400)).bind fun date => of? date (seconds % 86400) nanos

/-- The moment with what is below a microsecond cut off. -/
def toMicros (t : Timestamp) : Timestamp where
  date := t.date
  second := t.second
  nanos := t.nanos - t.nanos % 1000
  second_lt := t.second_lt
  nanos_lt := by have := t.nanos_lt; omega

-----------------------------------------------------------------------------------------
-- Text
-----------------------------------------------------------------------------------------

/-- A number with zeros in front up to a width. -/
def digits (width n : Nat) : List Char :=
  let text := Nat.toDigits 10 n
  List.replicate (width - text.length) '0' ++ text

/-- A year in four digits, with a sign where four do not hold it. -/
def yearText (year : Int) : List Char :=
  if 0 ≤ year ∧ year ≤ 9999 then digits 4 year.toNat
  else (if year < 0 then '-' else '+') :: digits 4 year.natAbs

/-- The day, as year, month and day. -/
def dateText (d : Date) : List Char :=
  yearText d.year ++ '-' :: (digits 2 d.month ++ '-' :: digits 2 d.day)

/-- Hour and minute. -/
def minuteText (t : Timestamp) : List Char :=
  digits 2 (t.second / 3600) ++ ':' :: digits 2 (t.second / 60 % 60)

/-- Hour, minute and second; a leap second is the sixty-first of its minute. -/
def secondText (t : Timestamp) : List Char :=
  t.minuteText ++ ':' :: digits 2 (t.second % 60 + t.nanos / 1000000000)

/-- The part of a second in 0, 3, 6 or 9 decimals, as many as it needs. -/
def fractionText (nanos : Nat) : List Char :=
  if nanos = 0 then []
  else if nanos % 1000000 = 0 then '.' :: digits 3 (nanos / 1000000)
  else if nanos % 1000 = 0 then '.' :: digits 6 (nanos / 1000)
  else '.' :: digits 9 nanos

/-- The moment in full, as documents hold it. -/
def text (t : Timestamp) : String :=
  String.ofList
    (dateText t.date ++ 'T' :: (t.secondText ++ fractionText (t.nanos % 1000000000) ++ ['Z']))

/-- The moment with six decimals, as stores order it. -/
def microsText (t : Timestamp) : String :=
  String.ofList
    (dateText t.date ++ 'T' ::
      (t.secondText ++ '.' :: (digits 6 (t.nanos % 1000000000 / 1000) ++ ['Z'])))

/-- The moment to the minute, as reports show it. -/
def toMinute (t : Timestamp) : String :=
  String.ofList (dateText t.date ++ ' ' :: t.minuteText)

/-- The moment to the second, as reports show it. -/
def toSecond (t : Timestamp) : String :=
  String.ofList (dateText t.date ++ ' ' :: t.secondText)

end Timestamp

end Screener
