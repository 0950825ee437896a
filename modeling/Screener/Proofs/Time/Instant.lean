import Screener.Proofs.Text.ByteOrder
import Screener.Proofs.Time.Calendar
import Screener.Proofs.Time.Order

/-!
Moments by the time that has passed since the start of 1970. Outside of leap seconds the calendar
and the clock put moments in the order of that time, and so do the bytes of their texts with six
decimals.
-/

namespace Screener

namespace Timestamp

/-- The nanoseconds from the start of 1970 to a moment. -/
def instant (t : Timestamp) : Int :=
  (86400 * t.date.number + t.second) * 1000000000 + t.nanos

variable {t u : Timestamp}

theorem lt_iff
    : t < u ↔ t.date.Before u.date ∨ t.date = u.date ∧
        (t.second < u.second ∨ t.second = u.second ∧ t.nanos < u.nanos) := by
  have parts : t.date = u.date ↔ t.date.year = u.date.year ∧ t.date.month = u.date.month
      ∧ t.date.day = u.date.day := by
    obtain ⟨⟨_, _, _, _⟩, _, _, _, _⟩ := t
    obtain ⟨⟨_, _, _, _⟩, _, _, _, _⟩ := u
    exact iff_of_eq (Date.mk.injEq ..)
  have order : t < u ↔ t.Before u := Iff.rfl
  rw [order, parts, Before, Date.Before]
  tauto

/-- Outside of leap seconds, what is earlier by calendar and clock is earlier in time. -/
theorem instant_lt_iff (steadyT : t.nanos < 1000000000) (steadyU : u.nanos < 1000000000)
    : t.instant < u.instant ↔ t < u := by
  have secondT := t.second_lt
  have secondU := u.second_lt
  rw [lt_iff, ← Date.number_lt_iff, ← Date.number_inj, instant, instant]
  omega

/-- A moment of a year with four digits, to the microsecond and in no leap second. -/
structure Ordinary (t : Timestamp) : Prop where
  low : 0 ≤ t.date.year
  high : t.date.year ≤ 9999
  whole : t.nanos % 1000 = 0
  steady : t.nanos < 1000000000

theorem Ordinary.regular (ordinary : t.Ordinary) : t.Regular :=
  ⟨ordinary.low, ordinary.high, .inl ordinary.steady⟩

theorem Ordinary.toMicros_eq (ordinary : t.Ordinary) : t.toMicros = t := by
  have whole := ordinary.whole
  obtain ⟨date, second, nanos, _, _⟩ := t
  dsimp only at whole
  simp only [toMicros, whole, Nat.sub_zero]

theorem Ordinary.parse_microsText (ordinary : t.Ordinary) : parse t.microsText = .ok t := by
  rw [Timestamp.parse_microsText ordinary.regular, ordinary.toMicros_eq]

theorem Ordinary.microsText_lt_iff (ordinaryT : t.Ordinary) (ordinaryU : u.Ordinary)
    : t.microsText < u.microsText ↔ t.instant < u.instant := by
  rw [Timestamp.microsText_lt_iff ordinaryT.regular ordinaryU.regular, ordinaryT.toMicros_eq,
    ordinaryU.toMicros_eq, instant_lt_iff ordinaryT.steady ordinaryU.steady]

end Timestamp

end Screener
