import Mathlib.Tactic.Ring
import Screener.Binary64.Logarithm
import Screener.Proofs.Binary64.Monotone

/-!
The logarithm does not decrease. Within one octave each step of its series keeps the order, and a
whole octave adds the logarithm of two, which the series of a ratio below two does not exceed. So
the exact sum grows with the magnitude, and rounding keeps that.
-/

namespace Screener.Binary64

-- Arithmetic must not try to evaluate the scales.
attribute [local irreducible] fixedOne logTwo one bound

-----------------------------------------------------------------------------------------
-- The series
-----------------------------------------------------------------------------------------

/-- The series grows with its argument, by induction on the number of its terms. -/
theorem artanhSeries_mono {square square' : Nat} (squares : square ≤ square') (terms : Nat)
    {power power' : Nat} (powers : power ≤ power') (divisor : Nat)
    : artanhSeries square terms power divisor ≤ artanhSeries square' terms power' divisor := by
  induction terms generalizing power power' divisor with
  | zero => exact Nat.le_refl 0
  | succ terms ih =>
      refine Nat.add_le_add (Nat.div_le_div_right powers) (ih ?_ (divisor + 2))
      exact Nat.div_le_div_right (Nat.mul_le_mul powers squares)

/-- A quotient is at most another that is at least as large before both are rounded down. -/
theorem div_le_div_of_mul_le {a b c d : Nat} (positive : 0 < b) (positive' : 0 < d)
    (cross : a * d ≤ c * b)
    : a / b ≤ c / d := by
  rw [Nat.le_div_iff_mul_le positive']
  refine Nat.le_of_mul_le_mul_right (c := b) ?_ positive
  calc a / b * d * b
    _ = a / b * b * d := Nat.mul_right_comm _ _ _
    _ ≤ a * d := Nat.mul_le_mul_right d (Nat.div_mul_le_self a b)
    _ ≤ c * b := cross

/-- The argument of the series for a ratio, in fixed point. -/
def argument (num den : Nat) : Nat := (num - den) * fixedOne / (num + den)

theorem argument_mono {num num' den : Nat} (positive : 0 < den) (least : den ≤ num)
    (le : num ≤ num')
    : argument num den ≤ argument num' den := by
  refine div_le_div_of_mul_le (by omega) (by omega) ?_
  obtain ⟨rest, rfl⟩ := Nat.exists_eq_add_of_le least
  obtain ⟨more, rfl⟩ := Nat.exists_eq_add_of_le le
  have left : den + rest - den = rest := by omega
  have right : den + rest + more - den = rest + more := by omega
  rw [left, right, Nat.mul_right_comm, Nat.mul_right_comm (rest + more)]
  refine Nat.mul_le_mul_right fixedOne ?_
  calc rest * (den + rest + more + den)
    _ ≤ rest * (den + rest + more + den) + more * (den + den) := Nat.le_add_right _ _
    _ = (rest + more) * (den + rest + den) := by ring

theorem logRatio_mono {num num' den : Nat} (positive : 0 < den) (least : den ≤ num)
    (le : num ≤ num')
    : logRatio num den ≤ logRatio num' den := by
  have arguments := argument_mono positive least le
  unfold argument at arguments
  refine Nat.mul_le_mul_left 2 (artanhSeries_mono ?_ 56 arguments 1)
  exact Nat.div_le_div_right (Nat.mul_le_mul arguments arguments)

/-- Twice a number has the logarithm of two above it. -/
theorem logRatio_double {den : Nat} (positive : 0 < den)
    : logRatio (2 * den) den = logRatio 2 1 := by
  have same : (2 * den - den) * fixedOne / (2 * den + den) = (2 - 1) * fixedOne / (2 + 1) := by
    have num : (2 * den - den) * fixedOne = (2 - 1) * fixedOne * den := by
      rw [Nat.mul_right_comm, Nat.mul_comm (2 - 1)]
      congr 1
      omega
    have whole : 2 * den + den = (2 + 1) * den := by omega
    rw [num, whole, Nat.mul_div_mul_right _ _ positive]
  unfold logRatio
  rw [same]

-----------------------------------------------------------------------------------------
-- The exact logarithm
-----------------------------------------------------------------------------------------

/-- The logarithm of a magnitude before it is rounded, in fixed point. -/
def logUnits (units : Nat) : Int :=
  ((units.log2 : Int) - 1074) * logTwo + logRatio units (Nat.pow 2 units.log2)

/-- The logarithm of a magnitude is at most that of the power of two above it. -/
theorem logUnits_le {units : Nat} (some : units ≠ 0)
    : logUnits units ≤ ((units.log2 : Int) + 1 - 1074) * logTwo := by
  have least : Nat.pow 2 units.log2 ≤ units := Nat.log2_self_le some
  have most : units ≤ 2 * Nat.pow 2 units.log2 := by
    have below : units < 2 ^ (units.log2 + 1) := Nat.lt_log2_self
    rw [Nat.pow_succ] at below
    simp only [Nat.pow_eq]
    omega
  have positive : 0 < Nat.pow 2 units.log2 := Nat.two_pow_pos _
  have ratio := logRatio_mono positive least most
  rw [logRatio_double positive] at ratio
  have two : logRatio 2 1 = logTwo := by unfold logTwo; rfl
  rw [two] at ratio
  have split : ((units.log2 : Int) + 1 - 1074) * logTwo
      = ((units.log2 : Int) - 1074) * logTwo + logTwo := by
    rw [show (units.log2 : Int) + 1 - 1074 = units.log2 - 1074 + 1 by omega, Int.add_mul,
      Int.one_mul]
  rw [logUnits, split]
  omega

theorem le_logUnits (units : Nat) : ((units.log2 : Int) - 1074) * logTwo ≤ logUnits units := by
  rw [logUnits]
  omega

/-- The exact logarithm grows with the magnitude: within an octave by its series, from octave to
octave by the power of two between them.
-/
theorem logUnits_mono {m n : Nat} (some : m ≠ 0) (le : m ≤ n) : logUnits m ≤ logUnits n := by
  have some' : n ≠ 0 := by omega
  have logs : m.log2 ≤ n.log2 :=
    (Nat.le_log2 some').2 (Nat.le_trans (Nat.log2_self_le some) le)
  rcases Nat.lt_or_eq_of_le logs with less | same
  · calc logUnits m
      _ ≤ ((m.log2 : Int) + 1 - 1074) * logTwo := logUnits_le some
      _ ≤ ((n.log2 : Int) - 1074) * logTwo :=
          Int.mul_le_mul_of_nonneg_right (by omega) (Int.natCast_nonneg _)
      _ ≤ logUnits n := le_logUnits n
  · have ratio := logRatio_mono (Nat.two_pow_pos m.log2) (Nat.log2_self_le some) le
    rw [logUnits, logUnits, ← same]
    simp only [Nat.pow_eq]
    omega

-----------------------------------------------------------------------------------------
-- The logarithm
-----------------------------------------------------------------------------------------

theorem ln_finite {units : Nat} (some : units ≠ 0) (h : Representable units)
    : ln (finite false units h)
      = round (decide (logUnits units < 0)) ((logUnits units).natAbs * one) fixedOne := by
  simp only [ln, some, ↓reduceIte, Bool.false_eq_true]
  rfl

theorem ln_of_units_zero (negative : Bool) (h : Representable 0)
    : ln (finite negative 0 h) = infinite true := by
  simp only [ln, ↓reduceIte]

/-- The logarithm of a magnitude above zero grows with it, as its rounding keeps the order. -/
theorem ln_le_ln {m n : Nat} (some : m ≠ 0) (le : m ≤ n) (g : Representable m)
    (h : Representable n)
    : ln (finite false m g) ≤ ln (finite false n h) := by
  rw [ln_finite some, ln_finite (by omega), le_iff]
  refine ⟨isNaN_round _ _ _, isNaN_round _ _ _, place_round_mono fixedOne ?_⟩
  rw [signed_mul, signed_mul, signed_natAbs, signed_natAbs]
  exact Int.mul_le_mul_of_nonneg_right (logUnits_mono some le) (Int.natCast_nonneg _)

theorem isNaN_ln {a : Binary64} (ha : 0 ≤ a) : (ln a).isNaN = false := by
  cases a with
  | nan => exact absurd (le_iff.1 ha).2.1 Bool.noConfusion
  | infinite s =>
      obtain rfl := sign_of_nonneg_infinite ha
      rfl
  | finite s m g =>
      by_cases none : m = 0
      · subst none
        rw [ln_of_units_zero]
        rfl
      · obtain rfl := sign_of_nonneg ha none
        rw [ln_finite none]
        exact isNaN_round _ _ _

/-- The logarithm does not decrease, from zero to infinity. -/
theorem ln_mono {a b : Binary64} (ha : 0 ≤ a) (le : a ≤ b) : ln a ≤ ln b := by
  have hb := le_trans ha le
  cases below_of_le le with
  | lowest => exact absurd (sign_of_nonneg_infinite ha) Bool.noConfusion
  | highest => exact le_infinite (isNaN_ln ha)
  | @between s t m n g h places =>
      by_cases none : m = 0
      · subst none
        rw [ln_of_units_zero]
        exact infinite_le (isNaN_ln hb)
      · obtain rfl := sign_of_nonneg ha none
        have most : m ≤ n := by
          cases t <;> simp only [signed, Bool.false_eq_true, ↓reduceIte] at places <;> omega
        obtain rfl := sign_of_nonneg hb (show n ≠ 0 by omega)
        exact ln_le_ln none most g h

theorem isPositive_ln_base : (ln 1.5).isPositive = true := by decide +kernel

end Screener.Binary64
