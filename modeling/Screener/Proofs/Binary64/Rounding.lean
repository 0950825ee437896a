import Mathlib.Algebra.Group.Nat.Defs
import Screener.Binary64.Arithmetic

/-!
Laws of rounding to nearest. The result depends on the quotient alone, it is the quotient
where that is a magnitude of the format, and it never decreases when the quotient grows.
-/

namespace Screener.Binary64

-----------------------------------------------------------------------------------------
-- Quotients rounded to whole numbers
-----------------------------------------------------------------------------------------

/-- A common factor leaves the rounded quotient alone, as it leaves quotient and rest. -/
theorem divEven_mul_right (num den : Nat) {factor : Nat} (positive : 0 < factor)
    : divEven (num * factor) (den * factor) = divEven num den := by
  have below : ∀ {a b : Nat}, a * factor < b * factor ↔ a < b :=
    Nat.mul_lt_mul_right positive
  simp only [divEven, Nat.mul_div_mul_right _ _ positive, Nat.mul_mod_mul_right,
    ← Nat.mul_assoc, below]

/-- A whole quotient needs no rounding. -/
theorem divEven_mul_self (quotient : Nat) {den : Nat} (positive : 0 < den)
    : divEven (quotient * den) den = quotient := by
  simp [divEven, Nat.mul_div_cancel _ positive, positive]

/-- Rounding moves a quotient down by less than one. -/
theorem le_divEven (num den : Nat) : num / den ≤ divEven num den := by
  unfold divEven
  dsimp only
  split
  · exact Nat.le_refl _
  split
  · exact Nat.le_succ _
  · exact Nat.le_add_right _ _

/-- The rounded quotient grows with the dividend; where the whole parts agree, the rests
decide.
-/
theorem divEven_mono {num num' : Nat} (den : Nat) (le : num ≤ num')
    : divEven num den ≤ divEven num' den := by
  have quotients : num / den ≤ num' / den := Nat.div_le_div_right le
  rcases Nat.lt_or_eq_of_le quotients with less | same
  · exact Nat.le_trans (divEven_le num den) (Nat.le_trans less (le_divEven num' den))
  · have rests : num % den ≤ num' % den := by
      have left := Nat.div_add_mod num den
      have right := Nat.div_add_mod num' den
      rw [same] at left
      omega
    unfold divEven
    dsimp only
    rw [same]
    have parity := Nat.mod_lt (num' / den) (by decide : 0 < 2)
    split <;> split <;> (try split) <;> (try split) <;> omega

-----------------------------------------------------------------------------------------
-- Magnitudes of the format
-----------------------------------------------------------------------------------------

theorem gap_pos (units : Nat) : 0 < gap units := Nat.two_pow_pos _

/-- A common factor of both sides of a quotient leaves the rounded magnitude alone. -/
theorem nearestUnits_mul_right (num den : Nat) {factor : Nat} (positive : 0 < factor)
    : nearestUnits (num * factor) (den * factor) = nearestUnits num den := by
  unfold nearestUnits
  rw [Nat.mul_div_mul_right _ _ positive, Nat.mul_right_comm den factor,
    divEven_mul_right _ _ positive]

/-- Equal quotients are rounded to equal magnitudes, by reduction to a common divisor. -/
theorem nearestUnits_congr {num den num' den' : Nat} (positive : 0 < den)
    (positive' : 0 < den') (same : num * den' = num' * den)
    : nearestUnits num den = nearestUnits num' den' := by
  rw [← nearestUnits_mul_right num den positive', same, Nat.mul_comm den,
    nearestUnits_mul_right num' den' positive]

/-- A magnitude of the format stays what it is. -/
theorem nearestUnits_self {units : Nat} (h : Representable units)
    : nearestUnits units 1 = units := by
  obtain ⟨count, multiple⟩ := Nat.dvd_of_mod_eq_zero h.2
  have whole : divEven units (gap units) = count := by
    calc divEven units (gap units)
      _ = divEven (count * gap units) (gap units) := by rw [Nat.mul_comm, ← multiple]
      _ = count := divEven_mul_self count (gap_pos units)
  unfold nearestUnits
  rw [Nat.div_one, Nat.one_mul, whole, Nat.mul_comm, ← multiple]

/-- The whole number of gaps below a quotient reaches its leading power of two. -/
theorem two_pow_log2_le_nearestUnits {num den : Nat} (large : num / den ≠ 0)
    : 2 ^ (num / den).log2 ≤ nearestUnits num den := by
  have power
      : 2 ^ ((num / den).log2 - ((num / den).log2 - 52)) * gap (num / den)
        = 2 ^ (num / den).log2 := by
    unfold gap
    rw [Nat.pow_eq, ← Nat.pow_add]
    congr 1
    omega
  unfold nearestUnits
  rw [← power]
  refine Nat.mul_le_mul_right _ (Nat.le_trans ?_ (le_divEven _ _))
  rw [← Nat.div_div_eq_div_mul, Nat.le_div_iff_mul_le (gap_pos _), power]
  exact Nat.log2_self_le large

/-- Rounding goes up to the next power of two at most. -/
theorem nearestUnits_le_two_pow (num den : Nat)
    : nearestUnits num den ≤ 2 ^ ((num / den).log2 + 1) := by
  have power
      : 2 ^ ((num / den).log2 + 1 - ((num / den).log2 - 52)) * gap (num / den)
        = 2 ^ ((num / den).log2 + 1) := by
    unfold gap
    rw [Nat.pow_eq, ← Nat.pow_add]
    congr 1
    omega
  unfold nearestUnits
  rw [← power]
  refine Nat.mul_le_mul_right _ (Nat.le_trans (divEven_le _ _) (Nat.succ_le_of_lt ?_))
  rw [← Nat.div_div_eq_div_mul, Nat.div_lt_iff_lt_mul (gap_pos _), power]
  exact Nat.lt_log2_self

/-- The rounded magnitude grows with the dividend. Within one power of two the gaps agree;
across powers of two the bounds of both sides meet.
-/
theorem nearestUnits_mono {num num' : Nat} (den : Nat) (le : num ≤ num')
    : nearestUnits num den ≤ nearestUnits num' den := by
  have quotients : num / den ≤ num' / den := Nat.div_le_div_right le
  by_cases zero : num / den = 0 ∧ num' / den = 0
  · unfold nearestUnits
    rw [zero.1, zero.2]
    exact Nat.mul_le_mul_right _ (divEven_mono _ le)
  have large : num' / den ≠ 0 := by
    intro none
    exact zero ⟨Nat.le_zero.1 (none ▸ quotients), none⟩
  have logs : (num / den).log2 ≤ (num' / den).log2 := by
    by_cases small : num / den = 0
    · simp [small]
    · exact (Nat.le_log2 large).2 (Nat.le_trans (Nat.log2_self_le small) quotients)
  rcases Nat.lt_or_eq_of_le logs with less | same
  · calc nearestUnits num den
      _ ≤ 2 ^ ((num / den).log2 + 1) := nearestUnits_le_two_pow num den
      _ ≤ 2 ^ (num' / den).log2 := Nat.pow_le_pow_right (by decide) less
      _ ≤ nearestUnits num' den := two_pow_log2_le_nearestUnits large
  · have gaps : gap (num / den) = gap (num' / den) := by
      unfold gap
      rw [same]
    unfold nearestUnits
    rw [gaps]
    exact Nat.mul_le_mul_right _ (divEven_mono _ le)

/-- A power of two that a quotient reaches is reached by the rounded magnitude. -/
theorem two_pow_le_nearestUnits {num den k : Nat} (reached : 2 ^ k ≤ num / den)
    : 2 ^ k ≤ nearestUnits num den := by
  have large : num / den ≠ 0 := Nat.ne_of_gt (Nat.lt_of_lt_of_le (Nat.two_pow_pos k) reached)
  refine Nat.le_trans (Nat.pow_le_pow_right (by decide) ?_) (two_pow_log2_le_nearestUnits large)
  exact (Nat.le_log2 large).2 reached

/-- Less than half a unit is rounded to nothing. -/
theorem nearestUnits_eq_zero {num den : Nat} (small : 2 * num < den)
    : nearestUnits num den = 0 := by
  have none : num / den = 0 := Nat.div_eq_of_lt (by omega)
  have rest : num % den = num := Nat.mod_eq_of_lt (by omega)
  unfold nearestUnits
  rw [none, show gap 0 = 1 by rfl, Nat.mul_one, Nat.mul_one]
  simp [divEven, none, rest, small]

@[simp]
theorem nearestUnits_zero (den : Nat) : nearestUnits 0 den = 0 := by
  simp [nearestUnits, divEven]

-----------------------------------------------------------------------------------------
-- Rounded values
-----------------------------------------------------------------------------------------

/-- Equal quotients are rounded to equal values. -/
theorem round_congr (negative : Bool) {num den num' den' : Nat} (positive : 0 < den)
    (positive' : 0 < den') (same : num * den' = num' * den)
    : round negative num den = round negative num' den' := by
  have units := nearestUnits_congr positive positive' same
  simp only [round, units]

/-- A quotient that is a magnitude of the format is not rounded. -/
theorem round_exact (negative : Bool) {num den units : Nat} (positive : 0 < den)
    (same : num = units * den) (h : Representable units)
    : round negative num den = .finite negative units h := by
  have exact : nearestUnits num den = units := by
    rw [nearestUnits_congr positive Nat.one_pos (show num * 1 = units * den by omega)]
    exact nearestUnits_self h
  simp only [round, exact, h.1, ↓reduceDIte]

/-- A rounded value has the sign that it was rounded under. -/
theorem sign_of_round {negative sign : Bool} {num den units : Nat} {h : Representable units}
    (same : round negative num den = .finite sign units h)
    : sign = negative := by
  by_cases below : nearestUnits num den < bound
  · simp only [round, below, ↓reduceDIte, finite.injEq] at same
    exact same.1.symm
  · simp only [round, below, ↓reduceDIte, reduceCtorEq] at same

/-- The sign goes through rounding as it is. -/
theorem round_finite_sign {negative : Bool} {num den units : Nat} {h : Representable units}
    (same : round false num den = .finite false units h)
    : round negative num den = .finite negative units h := by
  by_cases below : nearestUnits num den < bound
  · simp only [round, below, ↓reduceDIte, finite.injEq, true_and] at same ⊢
    exact same
  · simp only [round, below, ↓reduceDIte, reduceCtorEq] at same

end Screener.Binary64
