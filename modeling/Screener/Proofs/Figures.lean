import Screener.Figures
import Screener.Proofs.Decimal.Fixed

/-!
Figures as reports show them. A finite value is shown by a numeral with the places asked for, under
a minus just below zero, and behind a plus just above zero where changes are shown. The numeral is
the value rounded to nearest with halves away from zero, unless the value is a half and the next one
lies a whole place or more away.
-/

namespace Screener.Figures

open Binary64 (finite gap one)
open Decimal (Halfway Nearest Numeral Sign printed roundedPlaces)

-- Arithmetic must not try to evaluate the number of units in one.
attribute [local irreducible] one

/-- The sign that a value is shown under. -/
def signOf (v : Binary64) : Sign := if v < 0 then .minus else .none

/-- The sign that a change is shown behind. -/
def changeOf (v : Binary64) : String := if 0 < v then "+" else ""

/-- The numeral is what reports show of a value, with its sign and its places. -/
structure Shown (places : Nat) (v : Binary64) (n : Numeral) : Prop where
  sign : n.sign = signOf v
  length : n.fraction.length = places
  leading : n.whole = ['0'] ∨ ∀ c ∈ n.whole.head?, c ≠ '0'
  asNumber : number places (some v) = String.ofList n.chars
  asPercent : percent places (some v) = changeOf v ++ String.ofList n.chars ++ "%"
  asMoney : places = 1 → money (some v) = changeOf v ++ String.ofList n.chars ++ "亿"

variable (places : Nat)

theorem fixed_finite (negative : Bool) {units : Nat} (h : Representable units)
    : fixed places (finite negative units h)
      = some (String.ofList
          ((signOf (finite negative units h)).chars ++ Decimal.fixed places units)) := by
  unfold fixed signOf
  simp only [Binary64.finite_lt_zero_iff]
  by_cases below : negative = true ∧ units ≠ 0
  · simp [below, Sign.chars]
  · have same : (negative && units != 0) = false := by simpa using below
    simp [below, same, Sign.chars]

/-- A figure stands between what goes before and after it. -/
theorem framed_of_fixed {v : Binary64} {body : String} (shown : fixed places v = some body)
    (before : Binary64 → String) (after : String)
    : framed places before after (some v) = before v ++ body ++ after := by
  rw [framed, Option.bind_some, shown]
  rfl

theorem shown_of_fixed {v : Binary64} {n : Numeral} {value : Nat} (sign : n.sign = signOf v)
    (placed : n.Placed places value) (text : fixed places v = some (String.ofList n.chars))
    : Shown places v n where
  sign := sign
  length := placed.places
  leading := placed.leading
  asNumber := by
    rw [number, framed_of_fixed places text]
    simp
  asPercent := framed_of_fixed places text plus "%"
  asMoney := by
    rintro rfl
    exact framed_of_fixed 1 text plus "亿"

/-- How a finite value is shown. Its numeral has the places asked for, and its digits count the
multiple of the last place that is nearest to the value, of two that are equally close the one
farther from zero. This fails just for the values half-way between two multiples whose next value
lies a whole place or more away: they are shown as that next value is.
-/
theorem shown_law (negative : Bool) {units : Nat} (h : Representable units)
    : ∃ n, Shown places (finite negative units h) n
        ∧ (Nearest (units * 10 ^ places) one n.digits
            ↔ (Halfway (units * 10 ^ places) one → gap units * 10 ^ places < one))
        ∧ (Halfway (units * 10 ^ places) one →
            Nearest ((units + gap units) * 10 ^ places) one n.digits) := by
  obtain ⟨n, sign, placed, text⟩ := Decimal.exists_placed places
    (signOf (finite negative units h)) (roundedPlaces places (printed places units))
  have shown := fixed_finite places negative h
  rw [Decimal.fixed, ← printed, ← text] at shown
  refine ⟨n, shown_of_fixed places sign placed shown, ?_, fun half => ?_⟩
  · rw [placed.value]
    exact Decimal.nearest_iff_gap places h.2
  · have nearest := Decimal.nearest_printed places h.2
    rwa [← placed.value, printed, if_pos ((Decimal.isHalfway_iff places units).2 half)]
      at nearest

/-- The eighth is half-way between two hundredths, and the next value is close to it. -/
theorem shown_law_eighth
    : ∃ h : Representable (Nat.pow 2 1071), ∃ n, Shown 2 (finite true (Nat.pow 2 1071) h) n
        ∧ Halfway (Nat.pow 2 1071 * 10 ^ 2) one ∧ Nearest (Nat.pow 2 1071 * 10 ^ 2) one n.digits := by
  have h : Representable (Nat.pow 2 1071) := by decide +kernel
  obtain ⟨n, shown, nearest, _⟩ := shown_law 2 true h
  have near : gap (Nat.pow 2 1071) * 10 ^ 2 < one := by decide +kernel
  refine ⟨h, n, shown, ⟨12, by decide +kernel⟩, nearest.2 fun _ => near⟩

namespace QuarterAmount

/-- The amount `562949953421312.25`, with the next value an eighth above it. -/
def units : Nat := (2 ^ 51 + 1) * Nat.pow 2 1072

theorem representable : Representable units := by decide +kernel

/-- The amount is half-way between two tenths. It is not the larger of these that is shown, but the
tenth above it.
-/
theorem number_quarterAmount
    : number 1 (some (finite false units representable)) = "562949953421312.4"
      ∧ Nearest (units * 10 ^ 1) one 5629499534213123
      ∧ ¬Nearest (units * 10 ^ 1) one 5629499534213124 := by
  refine ⟨by decide +kernel, ?_, ?_⟩
  · rw [Decimal.nearest_iff Binary64.one_pos]
    decide +kernel
  · rw [Decimal.nearest_iff Binary64.one_pos]
    decide +kernel

end QuarterAmount

end Screener.Figures
