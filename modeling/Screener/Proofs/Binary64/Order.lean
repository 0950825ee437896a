import Screener.Proofs.Binary64.Rounding

/-!
The order of binary64 values, and the operations that keep it. Every number has a place on
the line of whole units, with the infinities at the bound of the format; numbers are compared
by their places, and the place of a result is the place of the exact one, rounded.
-/

namespace Screener.Binary64

-----------------------------------------------------------------------------------------
-- Places
-----------------------------------------------------------------------------------------

/-- The place of a number on the line of units. What is not a number has none, and gets that
of zero.
-/
def place : Binary64 → Int
  | .nan => 0
  | .infinite negative => signed negative bound
  | .finite negative units _ => signed negative units

theorem bound_pos : 0 < bound := by
  unfold bound
  generalize 2098 = bits
  exact Nat.two_pow_pos bits

theorem one_pos : 0 < one := by
  unfold one
  generalize 1074 = bits
  exact Nat.two_pow_pos bits

/-- A finite place lies strictly between those of the infinities. -/
theorem place_finite_bounds (negative : Bool) {units : Nat} (h : Representable units)
    : -(bound : Int) < (finite negative units h).place
      ∧ (finite negative units h).place < bound := by
  have below := h.1
  cases negative <;> simp only [place, signed, Bool.false_eq_true, ↓reduceIte] <;> omega

/-- Every place lies between those of the infinities. -/
theorem place_bounds (a : Binary64) : -(bound : Int) ≤ a.place ∧ a.place ≤ bound := by
  have positive := bound_pos
  cases a with
  | nan => simp only [place]; omega
  | infinite negative =>
      cases negative <;> simp only [place, signed, Bool.false_eq_true, ↓reduceIte] <;> omega
  | finite negative units h =>
      have inside := place_finite_bounds negative h
      omega

/-- One value is at most another if both are numbers and their places say so. -/
theorem le_iff {a b : Binary64}
    : a ≤ b ↔ a.isNaN = false ∧ b.isNaN = false ∧ a.place ≤ b.place := by
  change le a b = true ↔ _
  have positive := bound_pos
  cases a with
  | nan => cases b <;> simp [le, isNaN]
  | infinite s =>
      cases b with
      | nan => simp [le, isNaN]
      | infinite t =>
          cases s <;> cases t <;>
            simp only [le, isNaN, place, signed, Bool.not_true, Bool.not_false, Bool.or_true,
              Bool.or_false, Bool.false_eq_true, ↓reduceIte, true_and, true_iff, false_iff] <;>
            omega
      | finite t n h =>
          have below := h.1
          cases s <;> cases t <;>
            simp only [le, isNaN, place, signed, Bool.false_eq_true, ↓reduceIte, true_and,
              true_iff, false_iff] <;>
            omega
  | finite s m g =>
      have left := g.1
      cases b with
      | nan => simp [le, isNaN]
      | infinite t =>
          cases s <;> cases t <;>
            simp only [le, isNaN, place, signed, Bool.not_true, Bool.not_false,
              Bool.false_eq_true, ↓reduceIte, true_and, true_iff, false_iff] <;>
            omega
      | finite t n h => simp [le, isNaN, place]

/-- The order is transitive, as that of places is. -/
theorem le_trans {a b c : Binary64} (left : a ≤ b) (right : b ≤ c) : a ≤ c := by
  rw [le_iff] at left right ⊢
  exact ⟨left.1, right.2.1, Int.le_trans left.2.2 right.2.2⟩

/-- What is at most a value is not above it. -/
theorem not_lt_of_le {a b : Binary64} (h : a ≤ b) : ¬b < a := by
  change ¬lt b a = true
  have holds : le a b = true := h
  simp [lt, holds]

/-- One value is below another if both are numbers and their places say so. -/
theorem lt_iff {a b : Binary64}
    : a < b ↔ a.isNaN = false ∧ b.isNaN = false ∧ a.place < b.place := by
  have strict : a < b ↔ a ≤ b ∧ ¬b ≤ a := by
    change lt a b = true ↔ le a b = true ∧ ¬le b a = true
    simp [lt]
  rw [strict, le_iff, le_iff]
  constructor
  · rintro ⟨⟨left, right, places⟩, other⟩
    refine ⟨left, right, Int.lt_of_not_ge fun back => other ⟨right, left, back⟩⟩
  · rintro ⟨left, right, places⟩
    exact ⟨⟨left, right, Int.le_of_lt places⟩, fun back => Int.not_le_of_gt places back.2.2⟩

/-- A number is at most itself. -/
theorem le_refl {a : Binary64} (number : a.isNaN = false) : a ≤ a :=
  le_iff.2 ⟨number, number, Int.le_refl _⟩

/-- Of two numbers one is at most the other. -/
theorem le_of_not_le {a b : Binary64} (left : a.isNaN = false) (right : b.isNaN = false)
    (other : ¬a ≤ b)
    : b ≤ a := by
  rw [le_iff] at other ⊢
  refine ⟨right, left, ?_⟩
  rcases Int.le_total a.place b.place with less | more
  · exact absurd ⟨left, right, less⟩ other
  · exact more

theorem isNaN_of_isFinite {a : Binary64} (finite : a.isFinite = true) : a.isNaN = false := by
  cases a with
  | nan => contradiction
  | infinite _ | finite _ _ _ => rfl

/-- The negative infinity is at most every number. -/
theorem infinite_le {a : Binary64} (number : a.isNaN = false) : infinite true ≤ a :=
  le_iff.2 ⟨rfl, number, (place_bounds a).1⟩

/-- Every number is at most the positive infinity. -/
theorem le_infinite {a : Binary64} (number : a.isNaN = false) : a ≤ infinite false :=
  le_iff.2 ⟨number, rfl, (place_bounds a).2⟩

theorem not_infinite_le_finite (negative : Bool) {units : Nat} (h : Representable units)
    : ¬infinite false ≤ finite negative units h := by
  have inside := (place_finite_bounds negative h).2
  rw [le_iff]
  rintro ⟨_, _, places⟩
  exact Int.not_le_of_gt inside places

/-- The ways in which one number is at most another: from the negative infinity on, up to the
positive one, or between finite values by their places.
-/
inductive Below : Binary64 → Binary64 → Prop where
  | lowest {b : Binary64} (number : b.isNaN = false) : Below (infinite true) b
  | highest {a : Binary64} (number : a.isNaN = false) : Below a (infinite false)
  | between {s t : Bool} {m n : Nat} {g : Representable m} {h : Representable n}
    (places : signed s m ≤ signed t n) : Below (finite s m g) (finite t n h)

/-- Nothing but the negative infinity is at most the negative infinity. -/
theorem eq_of_le_infinite {a : Binary64} (le : a ≤ infinite true) : a = infinite true := by
  obtain ⟨number, _, places⟩ := le_iff.1 le
  cases a with
  | nan => contradiction
  | infinite s =>
      cases s with
      | true => rfl
      | false =>
          have positive := bound_pos
          simp only [place, signed, Bool.false_eq_true, ↓reduceIte] at places
          omega
  | finite s m g => exact absurd (place_finite_bounds s g).1 (Int.not_lt.2 places)

theorem below_of_le {a b : Binary64} (le : a ≤ b) : Below a b := by
  obtain ⟨numberA, numberB, places⟩ := le_iff.1 le
  cases b with
  | nan => contradiction
  | infinite t =>
      cases t with
      | true =>
          obtain rfl := eq_of_le_infinite le
          exact .lowest rfl
      | false => exact .highest numberA
  | finite t n h =>
      cases a with
      | nan => contradiction
      | infinite s =>
          cases s with
          | true => exact .lowest rfl
          | false => exact absurd le (not_infinite_le_finite t h)
      | finite s m g => exact .between places

/-- What lies between finite values is finite. -/
theorem isFinite_of_le_of_le {a b c : Binary64} (low : a ≤ b) (high : b ≤ c)
    (finite : a.isFinite = true) (finite' : c.isFinite = true)
    : b.isFinite = true := by
  cases below_of_le low with
  | lowest => contradiction
  | highest =>
      cases below_of_le high with
      | highest => contradiction
  | between => rfl

theorem signed_mul (negative : Bool) (m n : Nat)
    : signed negative (m * n) = signed negative m * n := by
  cases negative with
  | false => rfl
  | true => exact (Int.neg_mul m n).symm

-----------------------------------------------------------------------------------------
-- Rounding keeps places in order
-----------------------------------------------------------------------------------------

/-- A magnitude as it is held: what is beyond the format goes to its bound. -/
def held (units : Nat) : Nat := min units bound

theorem place_round (negative : Bool) (num den : Nat)
    : (round negative num den).place = signed negative (held (nearestUnits num den)) := by
  unfold round held
  split
  · rw [Nat.min_eq_left (by omega)]
    rfl
  · rw [Nat.min_eq_right (by omega)]
    rfl

theorem isNaN_round (negative : Bool) (num den : Nat)
    : (round negative num den).isNaN = false := by
  unfold round
  split <;> rfl

theorem isNaN_zero : (0 : Binary64).isNaN = false := by
  change (ofNat 0).isNaN = false
  rw [ofNat]
  exact isNaN_round _ _ _

theorem place_zero : (0 : Binary64).place = 0 := by
  change (ofNat 0).place = 0
  rw [ofNat, place_round, Nat.zero_mul, nearestUnits_zero, held, Nat.zero_min]
  rfl

/-- A value from zero up has no minus, unless it is a zero. -/
theorem sign_of_nonneg {negative : Bool} {units : Nat} {h : Representable units}
    (nonneg : 0 ≤ finite negative units h) (some : units ≠ 0)
    : negative = false := by
  have places := (le_iff.1 nonneg).2.2
  rw [place_zero] at places
  cases negative with
  | false => rfl
  | true => simp only [place, signed, ↓reduceIte] at places; omega

theorem sign_of_nonneg_infinite {negative : Bool} (nonneg : 0 ≤ infinite negative)
    : negative = false := by
  have places := (le_iff.1 nonneg).2.2
  have positive := bound_pos
  rw [place_zero] at places
  cases negative with
  | false => rfl
  | true => simp only [place, signed, ↓reduceIte] at places; omega

/-- A finite value is below zero if it has a minus and is not zero. -/
theorem finite_lt_zero_iff (negative : Bool) {units : Nat} (h : Representable units)
    : finite negative units h < 0 ↔ negative = true ∧ units ≠ 0 := by
  rw [lt_iff, place_zero, isNaN_zero]
  cases negative <;> simp [isNaN, place, signed, Nat.pos_iff_ne_zero]

/-- A smaller quotient is finite where a larger one is. -/
theorem isFinite_round_mono {num num' den : Nat} (le : num ≤ num') {sign : Bool}
    (finite : (round sign num' den).isFinite = true) (negative : Bool)
    : (round negative num den).isFinite = true := by
  have below : nearestUnits num' den < bound := by
    refine Decidable.byContradiction fun beyond => ?_
    rw [round, dif_neg beyond] at finite
    contradiction
  rw [round, dif_pos (Nat.lt_of_le_of_lt (nearestUnits_mono den le) below)]
  rfl

/-- A monotone map of magnitudes that keeps zero is monotone under signs. -/
theorem signed_mono {f : Nat → Nat} (zero : f 0 = 0)
    (mono : ∀ {m n : Nat}, m ≤ n → f m ≤ f n) {s t : Bool} {m n : Nat}
    (le : signed s m ≤ signed t n)
    : signed s (f m) ≤ signed t (f n) := by
  cases s <;> cases t <;> simp only [signed, Bool.false_eq_true, ↓reduceIte] at le ⊢
  · exact Int.ofNat_le.2 (mono (Int.ofNat_le.1 le))
  · obtain ⟨rfl, rfl⟩ : m = 0 ∧ n = 0 := by omega
    simp [zero]
  · omega
  · have magnitudes := mono (show n ≤ m by omega)
    omega

/-- The held magnitude of a rounded quotient, as a map of the dividend. -/
theorem held_nearestUnits_mono (den : Nat) {m n : Nat} (le : m ≤ n)
    : held (nearestUnits m den) ≤ held (nearestUnits n den) := by
  have rounded := nearestUnits_mono den le
  unfold held
  omega

/-- Rounding under a sign keeps places in order. -/
theorem place_round_mono {s t : Bool} {m n : Nat} (den : Nat)
    (le : signed s m ≤ signed t n)
    : (round s m den).place ≤ (round t n den).place := by
  rw [place_round, place_round]
  exact signed_mono (f := fun m => held (nearestUnits m den)) (by simp [held])
    (held_nearestUnits_mono den) le

/-- The place of an exact sum, rounded. -/
def heldPlace (exact : Int) : Int := (round (decide (exact < 0)) exact.natAbs 1).place

theorem signed_natAbs (exact : Int) : signed (decide (exact < 0)) exact.natAbs = exact := by
  by_cases negative : exact < 0
  · simp only [signed, negative, decide_true, ↓reduceIte]
    omega
  · simp only [signed, negative, decide_false, Bool.false_eq_true, ↓reduceIte]
    omega

theorem heldPlace_mono {exact exact' : Int} (le : exact ≤ exact')
    : heldPlace exact ≤ heldPlace exact' := by
  apply place_round_mono
  rwa [signed_natAbs, signed_natAbs]

/-- A value rounded under a sign has the place of the exact one, rounded; both zeros count. -/
theorem place_round_one (negative : Bool) (units : Nat)
    : (round negative units 1).place = heldPlace (signed negative units) :=
  Int.le_antisymm (place_round_mono 1 (Int.le_of_eq (signed_natAbs _).symm))
    (place_round_mono 1 (Int.le_of_eq (signed_natAbs _)))

-----------------------------------------------------------------------------------------
-- Sums
-----------------------------------------------------------------------------------------

/-- The sum of two finite values has the place of the exact sum, rounded. Like signs add
their magnitudes, unlike ones leave the difference under the sign of the larger.
-/
theorem place_add_finite (s t : Bool) {m n : Nat} (g : Representable m)
    (h : Representable n)
    : (finite s m g + finite t n h).place = heldPlace (signed s m + signed t n) := by
  change (add _ _).place = _
  simp only [add]
  split
  case isTrue same =>
    subst same
    rw [place_round_one]
    congr 1
    cases s <;> simp only [signed, Bool.false_eq_true, ↓reduceIte] <;> omega
  case isFalse unlike =>
    have other : t = !s := by cases s <;> cases t <;> simp_all
    subst other
    split
    case isTrue larger =>
      rw [place_round_one]
      congr 1
      cases s <;> simp [signed] <;> omega
    case isFalse =>
      split
      · rw [place_round_one]
        congr 1
        cases s <;> simp [signed] <;> omega
      · rw [place_round_one]
        congr 1
        cases s <;> simp [signed] <;> omega

/-- A finite value and a number have a number for their sum. -/
theorem isNaN_add {a b : Binary64} (ha : a.isFinite = true) (hb : b.isNaN = false)
    : (a + b).isNaN = false := by
  change (add a b).isNaN = false
  cases a with
  | nan | infinite s => simp [isFinite] at ha
  | finite s m g =>
      cases b with
      | nan => simp [isNaN] at hb
      | infinite t => rfl
      | finite t n h =>
          simp only [add]
          split
          · exact isNaN_round _ _ _
          split
          · exact isNaN_round _ _ _
          split <;> exact isNaN_round _ _ _

/-- Adding a finite value keeps the order: places of finite values are rounded alike, and an
infinite summand outweighs every place.
-/
theorem add_le_add_left {a b c : Binary64} (hc : c.isFinite = true) (le : a ≤ b)
    : c + a ≤ c + b := by
  obtain ⟨numberA, numberB, _⟩ := le_iff.1 le
  have sumA := isNaN_add hc numberA
  have sumB := isNaN_add hc numberB
  cases c with
  | nan | infinite _ => contradiction
  | finite u k i =>
      cases below_of_le le with
      | lowest => exact infinite_le sumB
      | highest => exact le_infinite sumA
      | between places =>
          refine le_iff.2 ⟨sumA, sumB, ?_⟩
          rw [place_add_finite, place_add_finite]
          exact heldPlace_mono (Int.add_le_add_left places _)

/-- The sum does not depend on the order of its summands. -/
theorem add_comm (a b : Binary64) : a + b = b + a := by
  change add a b = add b a
  cases a with
  | nan => cases b <;> rfl
  | infinite s =>
      cases b with
      | nan | finite _ _ _ => rfl
      | infinite t => cases s <;> cases t <;> rfl
  | finite s m g =>
      cases b with
      | nan | infinite _ => rfl
      | finite t n h =>
          simp only [add]
          by_cases same : s = t
          · subst same
            simp [Nat.add_comm]
          · have other : t ≠ s := Ne.symm same
            simp only [same, other, ↓reduceIte]
            rcases Nat.lt_trichotomy m n with less | equal | greater
            · simp only [less, Nat.lt_asymm less, ↓reduceIte]
            · simp only [equal, Nat.lt_irrefl, ↓reduceIte]
            · simp only [greater, Nat.lt_asymm greater, ↓reduceIte]

theorem isFinite_neg (a : Binary64) : (neg a).isFinite = a.isFinite := by
  cases a <;> rfl

/-- Taking a finite value away keeps the order. -/
theorem sub_le_sub_right {a b c : Binary64} (hc : c.isFinite = true) (le : a ≤ b)
    : a - c ≤ b - c := by
  change a + neg c ≤ b + neg c
  rw [add_comm a, add_comm b]
  exact add_le_add_left ((isFinite_neg c).trans hc) le

-----------------------------------------------------------------------------------------
-- Products and quotients
-----------------------------------------------------------------------------------------

/-- A number with its magnitude scaled and rounded: the sign stays, and infinity stays what it
is.
-/
def scaled (num : Nat → Nat) (den : Nat) : Binary64 → Binary64
  | .finite s m _ => round s (num m) den
  | a => a

theorem isNaN_scaled (num : Nat → Nat) (den : Nat) (a : Binary64)
    : (scaled num den a).isNaN = a.isNaN := by
  cases a with
  | nan | infinite _ => rfl
  | finite s m g => exact isNaN_round _ _ _

/-- Scaling that keeps zero and the order of magnitudes keeps the order of numbers: magnitudes
are scaled alike under their signs.
-/
theorem scaled_mono {num : Nat → Nat} (den : Nat) (zero : num 0 = 0)
    (mono : ∀ {m n : Nat}, m ≤ n → num m ≤ num n) {a b : Binary64} (le : a ≤ b)
    : scaled num den a ≤ scaled num den b := by
  obtain ⟨numberA, numberB, _⟩ := le_iff.1 le
  rw [← isNaN_scaled num den] at numberA numberB
  cases below_of_le le with
  | lowest => exact infinite_le numberB
  | highest => exact le_infinite numberA
  | between places =>
      refine le_iff.2 ⟨numberA, numberB, ?_⟩
      dsimp only [scaled]
      rw [place_round, place_round]
      exact signed_mono (f := fun m => held (nearestUnits (num m) den))
        (by simp [held, zero]) (fun le => held_nearestUnits_mono den (mono le)) places

/-- A number times a positive finite value is scaled by it. -/
theorem mul_finite_eq {a : Binary64} {k : Nat} {h : Representable k} (positive : k ≠ 0)
    (number : a.isNaN = false)
    : a * finite false k h = scaled (· * k) one a := by
  change mul a _ = _
  cases a with
  | nan => simp [isNaN] at number
  | infinite s => cases s <;> simp only [mul, positive, ↓reduceIte] <;> rfl
  | finite s m g => cases s <;> rfl

/-- A number over a positive finite value is scaled by it. -/
theorem div_finite_eq {a : Binary64} {k : Nat} {h : Representable k} (positive : k ≠ 0)
    (number : a.isNaN = false)
    : a / finite false k h = scaled (· * one) k a := by
  change div a _ = _
  cases a with
  | nan => simp [isNaN] at number
  | infinite s => cases s <;> rfl
  | finite s m g => cases s <;> simp only [div, positive, ↓reduceIte] <;> rfl

/-- The value is finite and above zero. -/
def isPositive : Binary64 → Bool
  | .finite false units _ => units != 0
  | _ => false

theorem exists_of_isPositive {a : Binary64} (positive : a.isPositive = true)
    : ∃ k h, k ≠ 0 ∧ a = finite false k h := by
  cases a with
  | nan | infinite _ => contradiction
  | finite negative units h =>
      cases negative with
      | true => contradiction
      | false => exact ⟨units, h, bne_iff_ne.1 positive, rfl⟩

/-- Multiplying by a positive finite value keeps the order. -/
theorem mul_le_mul_of_isPositive {a b c : Binary64} (positive : c.isPositive = true)
    (le : a ≤ b)
    : a * c ≤ b * c := by
  obtain ⟨k, h, some, rfl⟩ := exists_of_isPositive positive
  have numbers := le_iff.1 le
  rw [mul_finite_eq some numbers.1, mul_finite_eq some numbers.2.1]
  exact scaled_mono one (by simp only [Nat.zero_mul]) (fun le => Nat.mul_le_mul_right k le) le

/-- Dividing by a positive finite value keeps the order. -/
theorem div_le_div_of_isPositive {a b c : Binary64} (positive : c.isPositive = true)
    (le : a ≤ b)
    : a / c ≤ b / c := by
  obtain ⟨k, h, some, rfl⟩ := exists_of_isPositive positive
  have numbers := le_iff.1 le
  rw [div_finite_eq some numbers.1, div_finite_eq some numbers.2.1]
  exact scaled_mono k (by simp only [Nat.zero_mul]) (fun le => Nat.mul_le_mul_right one le) le

end Screener.Binary64
