import Screener.Decimal.Fixed
import Screener.Binary64.Basic

/-!
Figures as reports show them: a number with fixed places, a percentage and an amount of
money. What is unknown or not a number is a pair of dashes.
-/

namespace Screener.Figures

/-- What stands for an unknown figure. -/
def unknown : String := "--"

/-- A value with a fixed number of places. Zero has no sign, and infinity keeps its name. -/
def fixed (places : Nat) : Binary64 → Option String
  | .nan => none
  | .infinite negative => some (if negative then "-inf" else "inf")
  | .finite negative units _ =>
    let body := Decimal.fixed places units
    some (String.ofList (if negative && units != 0 then '-' :: body else body))

/-- A figure between what goes before and after it. -/
def framed (places : Nat) (before : Binary64 → String) (after : String)
    (value : Option Binary64)
    : String :=
  match value.bind fun v => (fixed places v).map fun body => before v ++ body ++ after with
  | some text => text
  | none => unknown

/-- The plus sign that an increase is written with. -/
def plus (v : Binary64) : String := if 0 < v then "+" else ""

/-- A plain number. -/
def number (places : Nat) (value : Option Binary64) : String :=
  framed places (fun _ => "") "" value

/-- A signed percentage. -/
def percent (places : Nat) (value : Option Binary64) : String := framed places plus "%" value

/-- A signed amount in hundred millions, with one place. -/
def money (value : Option Binary64) : String := framed 1 plus "亿" value

end Screener.Figures
