import Screener.Proofs.Binary64.Order

/-!
More operations that keep the order of values, or turn it round: differences, sums of values from
zero up, quotients by a growing divisor, values held between two others, and whole numbers.
-/

namespace Screener.Binary64

variable {a b c : Binary64}

-----------------------------------------------------------------------------------------
-- Differences
-----------------------------------------------------------------------------------------

theorem place_neg (a : Binary64) : (neg a).place = -a.place := by
  cases a with
  | nan => rfl
  | infinite s | finite s _ _ =>
      cases s <;> simp only [neg, place, signed, Bool.not_true, Bool.not_false, if_true, if_false,
        Bool.false_eq_true, Int.neg_neg]

theorem isNaN_neg (a : Binary64) : (neg a).isNaN = a.isNaN := by
  cases a <;> rfl

/-- The other signs turn the order round. -/
theorem neg_le_neg (le : a ≤ b) : neg b ≤ neg a := by
  rw [le_iff] at le ⊢
  rw [isNaN_neg, isNaN_neg, place_neg, place_neg]
  exact ⟨le.2.1, le.1, Int.neg_le_neg le.2.2⟩

/-- What is taken away from a finite value turns the order round. -/
theorem sub_le_sub_left (hc : c.isFinite = true) (le : a ≤ b) : c - b ≤ c - a :=
  add_le_add_left hc (neg_le_neg le)

-----------------------------------------------------------------------------------------
-- Values from zero up
-----------------------------------------------------------------------------------------

/-- A value from zero up has a sum with every other: there is no infinity of the other sign. -/
theorem add_le_add_left_of_nonneg (ha : 0 ≤ a) (hb : 0 ≤ b) (le : b ≤ c) : a + b ≤ a + c := by
  have numbers := le_iff.1 ha
  cases a with
  | nan => exact absurd numbers.2.1 Bool.noConfusion
  | finite s m g => exact add_le_add_left rfl le
  | infinite s =>
      obtain rfl := sign_of_nonneg_infinite ha
      have all {v : Binary64} (hv : 0 ≤ v) : infinite false + v = infinite false := by
        cases v with
        | nan => exact absurd (le_iff.1 hv).2.1 Bool.noConfusion
        | finite t n h => rfl
        | infinite t =>
            obtain rfl := sign_of_nonneg_infinite hv
            rfl
      rw [all hb, all (le_trans hb le)]
      exact le_refl rfl

/-- Sums of values from zero up grow with both of them. -/
theorem add_le_add_of_nonneg {d : Binary64} (ha : 0 ≤ a) (hc : 0 ≤ c) (left : a ≤ b)
    (right : c ≤ d)
    : a + c ≤ b + d := by
  refine le_trans (add_le_add_left_of_nonneg ha hc right) ?_
  rw [add_comm a, add_comm b]
  exact add_le_add_left_of_nonneg (le_trans hc right) ha left

theorem representable_zero : Representable 0 := ⟨bound_pos, Nat.zero_mod _⟩

theorem zero_eq : (0 : Binary64) = finite false 0 representable_zero := by
  change ofNat 0 = _
  rw [ofNat]
  exact round_exact false Nat.one_pos (by rw [Nat.zero_mul, Nat.zero_mul]) representable_zero

theorem zero_add_zero : (0 : Binary64) + 0 = 0 := by
  rw [zero_eq]
  change add _ _ = _
  rw [add, if_pos rfl]
  exact round_exact false Nat.one_pos rfl representable_zero

theorem add_nonneg (ha : 0 ≤ a) (hb : 0 ≤ b) : 0 ≤ a + b := by
  have zero : (0 : Binary64) ≤ 0 := le_refl isNaN_zero
  have sums := add_le_add_of_nonneg zero zero ha hb
  rwa [zero_add_zero] at sums

/-- Scaling keeps values from zero up, as zero stays zero. -/
theorem scaled_nonneg {num : Nat → Nat} (den : Nat) (zero : num 0 = 0)
    (mono : ∀ {m n : Nat}, m ≤ n → num m ≤ num n) (ha : 0 ≤ a)
    : 0 ≤ scaled num den a := by
  refine le_trans ?_ (scaled_mono den zero mono ha)
  rw [le_iff, place_zero, isNaN_scaled, zero_eq]
  refine ⟨rfl, rfl, Int.le_of_eq ?_⟩
  rw [scaled, place_round, zero, nearestUnits_zero]
  simp [held, signed]

theorem mul_nonneg (positive : c.isPositive = true) (ha : 0 ≤ a) : 0 ≤ a * c := by
  obtain ⟨k, h, some, rfl⟩ := exists_of_isPositive positive
  rw [mul_finite_eq some (le_iff.1 ha).2.1]
  exact scaled_nonneg one (by simp only [Nat.zero_mul]) (fun le => Nat.mul_le_mul_right k le) ha

theorem div_nonneg (positive : c.isPositive = true) (ha : 0 ≤ a) : 0 ≤ a / c := by
  obtain ⟨k, h, some, rfl⟩ := exists_of_isPositive positive
  rw [div_finite_eq some (le_iff.1 ha).2.1]
  exact scaled_nonneg k (by simp only [Nat.zero_mul]) (fun le => Nat.mul_le_mul_right one le) ha

theorem isNaN_abs (a : Binary64) : a.abs.isNaN = a.isNaN := by
  cases a <;> rfl

theorem abs_nonneg (number : a.isNaN = false) : 0 ≤ a.abs := by
  rw [le_iff, place_zero, isNaN_abs]
  refine ⟨isNaN_zero, number, ?_⟩
  cases a with
  | nan => contradiction
  | infinite s | finite s _ _ => exact Int.natCast_nonneg _

-----------------------------------------------------------------------------------------
-- Whole numbers and their quotients
-----------------------------------------------------------------------------------------

theorem ofNat_mono {m n : Nat} (le : m ≤ n) : ofNat m ≤ ofNat n := by
  rw [ofNat, ofNat, le_iff]
  exact ⟨isNaN_round _ _ _, isNaN_round _ _ _,
    place_round_mono 1 (Int.ofNat_le.2 (Nat.mul_le_mul_right one le))⟩

theorem ofNat_nonneg (n : Nat) : 0 ≤ ofNat n := ofNat_mono (Nat.zero_le n)

theorem room_mul_one : 2 ^ 53 * one ≤ bound := by decide +kernel

theorem toNat_lt_mantissa (word : UInt32) : word.toNat < 2 ^ 53 :=
  Nat.lt_trans word.toNat_lt (by decide)

/-- Whole numbers with 53 bits are values of the format. -/
theorem representable_mul_one {n : Nat} (small : n < 2 ^ 53) : Representable (n * one) := by
  have below : n * one < bound :=
    Nat.lt_of_lt_of_le (Nat.mul_lt_mul_of_pos_right small one_pos) room_mul_one
  unfold one at below ⊢
  generalize 1074 = s at below ⊢
  exact representable_mul_two_pow (Nat.le_of_lt small) below

theorem ofNat_eq_finite {n : Nat} (h : Representable (n * one))
    : ofNat n = .finite false (n * one) h :=
  round_exact false Nat.one_pos (Nat.mul_one _).symm h

theorem isFinite_ofNat {n : Nat} (small : n < 2 ^ 53) : (ofNat n).isFinite = true := by
  rw [ofNat_eq_finite (representable_mul_one small)]
  rfl

theorem isPositive_ofNat {n : Nat} (small : n < 2 ^ 53) (positive : 0 < n)
    : (ofNat n).isPositive = true := by
  rw [ofNat_eq_finite (representable_mul_one small), isPositive, bne_iff_ne]
  exact Nat.ne_of_gt (Nat.mul_pos positive one_pos)

/-- The rounded magnitude falls when the divisor grows, by reduction to a common divisor. -/
theorem nearestUnits_anti (num : Nat) {den den' : Nat} (positive : 0 < den) (le : den ≤ den')
    : nearestUnits num den' ≤ nearestUnits num den := by
  have positive' := Nat.lt_of_lt_of_le positive le
  rw [← nearestUnits_mul_right num den' positive, ← nearestUnits_mul_right num den positive',
    Nat.mul_comm den' den]
  exact nearestUnits_mono (den * den') (Nat.mul_le_mul_left num le)

/-- A quotient of values from zero up falls when the divisor grows. -/
theorem div_le_div_left {m k k' : Nat} {g : Representable m} {h : Representable k}
    {h' : Representable k'} (positive : k ≠ 0) (le : k ≤ k')
    : finite false m g / finite false k' h' ≤ finite false m g / finite false k h := by
  have positive' : k' ≠ 0 := Nat.ne_of_gt (Nat.lt_of_lt_of_le (Nat.pos_of_ne_zero positive) le)
  have rounded := nearestUnits_anti (m * one) (Nat.pos_of_ne_zero positive) le
  rw [div_finite_eq positive rfl, div_finite_eq positive' rfl, le_iff]
  refine ⟨isNaN_scaled _ _ _, isNaN_scaled _ _ _, ?_⟩
  rw [scaled, scaled, place_round, place_round]
  simp only [signed, Bool.false_eq_true, ↓reduceIte, held]
  omega

-----------------------------------------------------------------------------------------
-- Values held between bounds
-----------------------------------------------------------------------------------------

section Clamp

variable {low high : Binary64}

theorem le_of_not_lt (left : a.isNaN = false) (right : b.isNaN = false) (other : ¬a < b)
    : b ≤ a := by
  rw [lt_iff] at other
  rw [le_iff]
  refine ⟨right, left, Int.not_lt.1 fun less => other ⟨left, right, less⟩⟩

theorem le_of_lt (lt : a < b) : a ≤ b := by
  rw [lt_iff] at lt
  exact le_iff.2 ⟨lt.1, lt.2.1, Int.le_of_lt lt.2.2⟩

theorem lt_of_le_of_lt (le : a ≤ b) (lt : b < c) : a < c := by
  rw [le_iff] at le
  rw [lt_iff] at lt ⊢
  exact ⟨le.1, lt.2.1, Int.lt_of_le_of_lt le.2.2 lt.2.2⟩

/-- A number is held between the bounds. -/
theorem clamp_bounds (ordered : low ≤ high) (number : a.isNaN = false)
    : low ≤ a.clamp low high ∧ a.clamp low high ≤ high := by
  have bounds := le_iff.1 ordered
  unfold clamp
  split
  next => exact ⟨le_refl bounds.1, ordered⟩
  next least =>
    split
    next => exact ⟨ordered, le_refl bounds.2.1⟩
    next most =>
      exact ⟨le_of_not_lt number bounds.1 least, le_of_not_lt bounds.2.1 number most⟩

/-- Holding numbers between bounds keeps their order. -/
theorem clamp_mono (ordered : low ≤ high) (le : a ≤ b) : a.clamp low high ≤ b.clamp low high := by
  have numbers := le_iff.1 le
  have bounds := le_iff.1 ordered
  have above := (clamp_bounds ordered numbers.2.1).1
  have below := (clamp_bounds ordered numbers.1).2
  by_cases under : a < low
  · rwa [clamp.eq_1 a, if_pos under]
  by_cases beyond : high < b
  · have top : b.clamp low high = high := by
      rw [clamp, if_neg (not_lt_of_le (le_trans ordered (le_of_lt beyond))), if_pos beyond]
    rwa [top]
  · have inside : a.clamp low high = a := by
      have most := le_trans le (le_of_not_lt bounds.2.1 numbers.2.1 beyond)
      rw [clamp, if_neg under, if_neg (not_lt_of_le most)]
    have inside' : b.clamp low high = b := by
      have least := le_trans (le_of_not_lt numbers.1 bounds.1 under) le
      rw [clamp, if_neg (not_lt_of_le least), if_neg beyond]
    rwa [inside, inside']

end Clamp

section Whole

variable {low high : Nat}

/-- The whole number of a value is held between the bounds; what is not a number counts as zero. -/
theorem toWhole_bounds (ordered : low ≤ high) (number : a.isNaN = false)
    : low ≤ a.toWhole low high ∧ a.toWhole low high ≤ high := by
  cases a with
  | nan => contradiction
  | infinite s => cases s <;> simp [toWhole, ordered]
  | finite s m g =>
      cases s with
      | true => simp [toWhole, ordered]
      | false =>
          simp only [toWhole, Bool.false_eq_true, ↓reduceIte]
          omega

theorem toWhole_le (ordered : low ≤ high) (a : Binary64) : a.toWhole low high ≤ high := by
  cases a with
  | nan => exact Nat.zero_le _
  | infinite _ | finite _ _ _ => exact (toWhole_bounds ordered rfl).2

theorem wholeUnits_mono {m n : Nat} (le : m ≤ n) : wholeUnits m ≤ wholeUnits n := by
  unfold wholeUnits
  generalize one = unit
  exact Nat.div_le_div_right (by omega)

theorem wholeUnits_zero : wholeUnits 0 = 0 := by
  have positive := one_pos
  unfold wholeUnits
  generalize one = unit at positive ⊢
  exact Nat.div_eq_of_lt (by omega)

/-- The nearest whole number grows with the value. Negative values go to the lower bound, and a
negative zero goes where the other one does.
-/
theorem toWhole_mono (ordered : low ≤ high) (le : a ≤ b)
    : a.toWhole low high ≤ b.toWhole low high := by
  obtain ⟨numberA, numberB, _⟩ := le_iff.1 le
  have least := (toWhole_bounds ordered numberB).1
  have most := (toWhole_bounds ordered numberA).2
  cases below_of_le le with
  | lowest => exact least
  | highest => exact most
  | @between s t m n g h places =>
      cases s with
      | true => exact least
      | false =>
          cases t with
          | true =>
              simp only [signed, Bool.false_eq_true, ↓reduceIte] at places
              obtain rfl : m = 0 := by omega
              simp only [toWhole, Bool.false_eq_true, ↓reduceIte, wholeUnits_zero]
              omega
          | false =>
              have rounded := wholeUnits_mono (Int.ofNat_le.1 places)
              simp only [toWhole, Bool.false_eq_true, ↓reduceIte]
              generalize wholeUnits m = nearest at rounded
              generalize wholeUnits n = nearest' at rounded
              omega

end Whole

end Screener.Binary64
