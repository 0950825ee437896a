import Mathlib.Data.Nat.Dist
import Screener.Proofs.Binary64.Order
import Screener.Proofs.Decimal.ReadBack

/-!
Rounding is to nearest: of all magnitudes with the bits of the format none is closer to a
quotient than the one that it is rounded to. So a value is finite just if the exact magnitude
stays below the middle between the greatest finite one and the bound of the format.
-/

namespace Screener.Binary64

-----------------------------------------------------------------------------------------
-- Closeness
-----------------------------------------------------------------------------------------

/-- No multiple of the divisor is closer to the dividend than the one that the rounded
quotient counts: the multiples next to the dividend are closer than all others, and of these
two the rest decides.
-/
theorem dist_divEven_le (num count : Nat) {den : Nat} (positive : 0 < den)
    : Nat.dist num (divEven num den * den) ≤ Nat.dist num (count * den) := by
  have rest := Nat.mod_lt num positive
  have whole := Nat.div_add_mod num den
  rw [Nat.mul_comm den] at whole
  have outside : count * den ≤ num / den * den ∨ num / den * den + den ≤ count * den := by
    rcases Nat.lt_or_ge (num / den) count with above | below
    · rw [← Nat.succ_mul]
      exact .inr (Nat.mul_le_mul_right den above)
    · exact .inl (Nat.mul_le_mul_right den below)
  unfold divEven Nat.dist
  dsimp only
  split
  · omega
  split
  · rw [Nat.succ_mul]
    omega
  · rcases Nat.mod_two_eq_zero_or_one (num / den) with even | odd
    · rw [even, Nat.add_zero]
      omega
    · rw [odd, Nat.succ_mul]
      omega

/-- A magnitude of the format is a multiple of every gap that is not greater than its own,
and where its own is smaller it lies below the leading power of two.
-/
theorem dvd_or_lt_two_pow {other : Nat} (fits : other % gap other = 0) (units : Nat)
    : gap units ∣ other ∨ other < 2 ^ units.log2 := by
  rcases Nat.lt_or_ge other.log2 units.log2 with less | least
  · refine .inr (Nat.lt_of_lt_of_le Nat.lt_log2_self ?_)
    exact Nat.pow_le_pow_right (by decide) less
  · refine .inl (Nat.dvd_trans ?_ (Nat.dvd_of_mod_eq_zero fits))
    exact Nat.pow_dvd_pow 2 (Nat.sub_le_sub_right least 52)

/-- No magnitude with the bits of the format is closer to a quotient than the rounded one. One
with a smaller gap than the quotient lies below the leading power of two, which is closer and
counted in the gap of the quotient.
-/
theorem dist_nearestUnits_le (num : Nat) {den other : Nat} (positive : 0 < den)
    (fits : other % gap other = 0)
    : Nat.dist num (nearestUnits num den * den) ≤ Nat.dist num (other * den) := by
  have counted (count : Nat)
      : Nat.dist num (nearestUnits num den * den)
        ≤ Nat.dist num (count * gap (num / den) * den) := by
    have closest := dist_divEven_le num count
      (Nat.mul_pos positive (gap_pos (num / den)))
    rw [nearestUnits]
    simpa only [Nat.mul_comm den, Nat.mul_assoc] using closest
  rcases dvd_or_lt_two_pow fits (num / den) with ⟨count, rfl⟩ | below
  · rw [Nat.mul_comm (gap _)]
    exact counted count
  · by_cases none : num / den = 0
    · obtain rfl : other = 0 := by
        rw [none] at below
        exact Nat.lt_one_iff.1 below
      simpa using counted 0
    · have power
          : 2 ^ ((num / den).log2 - ((num / den).log2 - 52)) * gap (num / den)
            = 2 ^ (num / den).log2 := by
        rw [gap, Nat.pow_eq, ← Nat.pow_add]
        congr 1
        omega
      have leading := counted (2 ^ ((num / den).log2 - ((num / den).log2 - 52)))
      rw [power] at leading
      have reached : 2 ^ (num / den).log2 * den ≤ num := by
        rw [← Nat.le_div_iff_mul_le positive]
        exact Nat.log2_self_le none
      have smaller : other * den ≤ 2 ^ (num / den).log2 * den :=
        Nat.mul_le_mul_right den (Nat.le_of_lt below)
      refine Nat.le_trans leading ?_
      unfold Nat.dist
      omega

/-- The value is closest to a magnitude of `num / den` units under a sign. For this the format
goes on beyond its bound, where all is infinite.
-/
def Closest (negative : Bool) (num den : Nat) (v : Binary64) : Prop :=
  ∃ units,
    (∀ other, other % gap other = 0 →
      Nat.dist num (units * den) ≤ Nat.dist num (other * den))
    ∧ ((∃ h, v = .finite negative units h) ∨ bound ≤ units ∧ v = .infinite negative)

theorem closest_round (negative : Bool) (num : Nat) {den : Nat} (positive : 0 < den)
    : Closest negative num den (round negative num den) := by
  refine ⟨nearestUnits num den, fun other => dist_nearestUnits_le num positive, ?_⟩
  unfold round
  split
  next below => exact .inl ⟨representable_nearestUnits below, rfl⟩
  next beyond => exact .inr ⟨Nat.le_of_not_lt beyond, rfl⟩

/-- The value of a decimal is closest to its exact magnitude. -/
theorem closest_ofDecimal (negative : Bool) (digits : Nat) (exponent : Int)
    : Closest negative (digits * 10 ^ exponent.toNat * one) (10 ^ (-exponent).toNat)
        (ofDecimal negative digits exponent) := by
  rw [ofDecimal_eq_round]
  exact closest_round negative _ (Nat.pow_pos (by decide))

-----------------------------------------------------------------------------------------
-- Finite values
-----------------------------------------------------------------------------------------

/-- The least magnitude that is infinite when rounded, the middle between the greatest finite
one and `2^1024`.
-/
def brink : Nat := Nat.pow 2 1024 - Nat.pow 2 970

/-- The greatest finite magnitude, in units. -/
def greatest : Nat := bound - Nat.pow 2 2045

theorem greatest_fits : greatest % gap greatest = 0 := by decide +kernel

theorem greatest_lt_bound : greatest < bound := by decide +kernel

/-- The brink lies in the middle between the greatest magnitude and the bound. -/
theorem two_mul_brink : 2 * (brink * one) = greatest + bound := by decide +kernel

/-- A tie at the brink goes to the bound, which is even. -/
theorem nearestUnits_brink : nearestUnits (brink * one) 1 = bound := by decide +kernel

/-- A magnitude is finite when rounded just if it stays below the brink: there the greatest
finite one is closer than the bound, and from there on rounding reaches the bound.
-/
theorem isFinite_round_iff (negative : Bool) (num : Nat) {den : Nat} (positive : 0 < den)
    : (round negative num den).isFinite = true ↔ num < brink * one * den := by
  have finite : (round negative num den).isFinite = true ↔ nearestUnits num den < bound := by
    unfold round
    split
    next below => exact iff_of_true rfl below
    next beyond => exact iff_of_false Bool.noConfusion beyond
  rw [finite]
  constructor
  · intro below
    refine Nat.lt_of_not_le fun reached => Nat.not_le_of_lt below ?_
    have rounded := nearestUnits_mono den reached
    rwa [nearestUnits_congr positive Nat.one_pos (Nat.mul_one _), nearestUnits_brink] at rounded
  · intro below
    refine Nat.lt_of_not_le fun reached => ?_
    have closest := dist_nearestUnits_le num positive greatest_fits
    have middle : 2 * (brink * one * den) = greatest * den + bound * den := by
      rw [← Nat.mul_assoc, two_mul_brink, Nat.add_mul]
    have between : greatest * den < bound * den :=
      Nat.mul_lt_mul_of_pos_right greatest_lt_bound positive
    have beyond := Nat.mul_le_mul_right den reached
    unfold Nat.dist at closest
    omega

/-- A decimal is finite just if its magnitude stays below the brink. -/
theorem isFinite_ofDecimal_iff (negative : Bool) (digits : Nat) (exponent : Int)
    : (ofDecimal negative digits exponent).isFinite = true
      ↔ digits * 10 ^ exponent.toNat < brink * 10 ^ (-exponent).toNat := by
  rw [ofDecimal_eq_round, isFinite_round_iff negative _ (Nat.pow_pos (by decide)),
    Nat.mul_right_comm brink]
  exact Nat.mul_lt_mul_right one_pos

end Screener.Binary64
