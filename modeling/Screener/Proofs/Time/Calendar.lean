import Mathlib.Tactic.IntervalCases
import Screener.Time.Timestamp

/-!
Days of the calendar by their number. The first of January 1970 has the number zero, and each day
has the number after that of the day before, so the order of days is that of their numbers.
-/

namespace Screener

namespace Date

-----------------------------------------------------------------------------------------
-- Years
-----------------------------------------------------------------------------------------

theorem isLeapYear_iff {year : Int}
    : isLeapYear year = true ↔ year % 4 = 0 ∧ (year % 100 ≠ 0 ∨ year % 400 = 0) := by
  simp [isLeapYear]

def daysInYear (year : Int) : Nat := if isLeapYear year then 366 else 365

/-- The number of the first day of a year. -/
def daysBeforeYear (year : Int) : Int :=
  365 * (year - 1) + (year - 1) / 4 - (year - 1) / 100 + (year - 1) / 400 - 719162

theorem daysBeforeYear_succ (year : Int)
    : daysBeforeYear (year + 1) = daysBeforeYear year + daysInYear year := by
  unfold daysBeforeYear daysInYear
  split
  next leap =>
    rw [isLeapYear_iff] at leap
    omega
  next leap =>
    rw [isLeapYear_iff] at leap
    omega

/-- A year is over before a later one starts, by induction on the later one. -/
theorem daysBeforeYear_add_le {year later : Int} (less : year < later)
    : daysBeforeYear year + daysInYear year ≤ daysBeforeYear later := by
  induction later, less using Int.leInduction with
  | base => exact Int.le_of_eq (daysBeforeYear_succ year).symm
  | succ later _ ih =>
      rw [daysBeforeYear_succ]
      omega

-----------------------------------------------------------------------------------------
-- Months
-----------------------------------------------------------------------------------------

/-- The days of a year before a month. -/
def daysBeforeMonth (year : Int) : Nat → Nat
  | 0 | 1 => 0
  | month + 2 => daysBeforeMonth year (month + 1) + daysInMonth year (month + 1)

theorem daysBeforeMonth_succ (year : Int) {month : Nat} (some : 1 ≤ month)
    : daysBeforeMonth year (month + 1) = daysBeforeMonth year month + daysInMonth year month := by
  obtain ⟨before, rfl⟩ := Nat.exists_eq_add_of_le' some
  rfl

/-- A month is over before a later one starts, by induction on the later one. -/
theorem daysBeforeMonth_add_le (year : Int) {month later : Nat} (some : 1 ≤ month)
    (less : month < later)
    : daysBeforeMonth year month + daysInMonth year month ≤ daysBeforeMonth year later := by
  induction later, less using Nat.le_induction with
  | base => exact Nat.le_of_eq (daysBeforeMonth_succ year some).symm
  | succ later before ih =>
      rw [daysBeforeMonth_succ year (by omega)]
      omega

/-- From March on, the months before one have 153 days in five. -/
theorem daysBeforeMonth_add (year : Int) {month : Nat} (few : month ≤ 10)
    : daysBeforeMonth year (month + 3) + 306 = daysInYear year + (153 * month + 2) / 5 := by
  unfold daysInYear
  cases leap : isLeapYear year <;> interval_cases month
  all_goals simp [daysBeforeMonth, daysInMonth, leap]

/-- A year is over after twelve months. -/
theorem daysBeforeMonth_thirteen (year : Int) : daysBeforeMonth year 13 = daysInYear year :=
  Nat.add_right_cancel (daysBeforeMonth_add year (Nat.le_refl 10))

theorem daysBeforeMonth_add_day_le (d : Date)
    : daysBeforeMonth d.year d.month + d.day ≤ daysInYear d.year := by
  obtain ⟨_, _, first, last, _, inside⟩ := d.valid
  have past := daysBeforeMonth_add_le d.year first (Nat.lt_succ_of_le last)
  rw [daysBeforeMonth_thirteen] at past
  omega

-----------------------------------------------------------------------------------------
-- Days
-----------------------------------------------------------------------------------------

/-- The number of days from the first of January 1970 to a day. -/
def number (d : Date) : Int :=
  daysBeforeYear d.year + daysBeforeMonth d.year d.month + (d.day - 1)

/-- A day lies before another in the calendar. -/
def Before (d e : Date) : Prop :=
  d.year < e.year ∨ d.year = e.year ∧
    (d.month < e.month ∨ d.month = e.month ∧ d.day < e.day)

theorem number_lt_number {d e : Date} (before : d.Before e) : d.number < e.number := by
  have dayD := daysBeforeMonth_add_day_le d
  obtain ⟨_, _, firstD, _, _, insideD⟩ := d.valid
  obtain ⟨_, _, _, _, someE, _⟩ := e.valid
  unfold number
  rcases before with year | ⟨year, month | ⟨month, day⟩⟩
  · have past := daysBeforeYear_add_le year
    omega
  · have past := daysBeforeMonth_add_le d.year firstD month
    rw [← year]
    omega
  · rw [← year, ← month]
    omega

theorem before_or_eq_or_before (d e : Date) : d.Before e ∨ d = e ∨ e.Before d := by
  obtain ⟨_, _, _, _⟩ := d
  obtain ⟨_, _, _, _⟩ := e
  simp only [Before, Date.mk.injEq]
  omega

/-- Days are ordered as their numbers. -/
theorem number_lt_iff {d e : Date} : d.number < e.number ↔ d.Before e := by
  refine ⟨fun less => ?_, number_lt_number⟩
  rcases before_or_eq_or_before d e with before | rfl | after
  · exact before
  · exact absurd less (Int.lt_irrefl _)
  · exact absurd (number_lt_number after) (Int.not_lt.2 (Int.le_of_lt less))

theorem number_inj {d e : Date} : d.number = e.number ↔ d = e := by
  refine ⟨fun same => ?_, congrArg number⟩
  rcases before_or_eq_or_before d e with before | equal | after
  · exact absurd same (Int.ne_of_lt (number_lt_number before))
  · exact equal
  · exact absurd same.symm (Int.ne_of_lt (number_lt_number after))

/-- A place in a cycle of 400 years: the century, the leap cycle in it, the year in that and the day
of the year, all counted from a first of March.
-/
structure Place (century cycle year day : Nat) : Prop where
  centuries : century < 4
  cycles : cycle < 25
  years : year < 4
  /-- A leap day ends the last year of a leap cycle, but one century in four ends without. -/
  days : day < 365 ∨ day = 365 ∧ year = 3 ∧ (cycle < 24 ∨ century = 3)

theorem Place.lt {century cycle year rest : Nat} (place : Place century cycle year rest)
    : 100 * century + 4 * cycle + year < 400 := by
  obtain ⟨centuries, cycles, years, _⟩ := place
  omega

example : (⟨1970, 1, 1, by decide⟩ : Date).number = 0 := by decide

end Date

end Screener
