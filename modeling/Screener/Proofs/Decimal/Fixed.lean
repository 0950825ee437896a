import Screener.Decimal.Fixed
import Screener.Proofs.Decimal.Spelling

/-!
Magnitudes with a fixed number of places. The text is a numeral with that many digits behind its
point, and its digits count the multiple of the last place that is nearest, halves going up. A
half is printed as the next magnitude above it, which has the same nearest multiple only where it
lies less than one place away.
-/

namespace Screener.Decimal

open Binary64

-- Arithmetic must not try to evaluate the number of units in one.
attribute [local irreducible] one

-----------------------------------------------------------------------------------------
-- The nearest multiple
-----------------------------------------------------------------------------------------

variable {num den count : Nat}

/-- Of all multiples of a divisor none is closer to a number, and of two that are equally close
this is the larger.
-/
structure Nearest (num den count : Nat) : Prop where
  closest : ∀ other, Nat.dist num (count * den) ≤ Nat.dist num (other * den)
  larger : ∀ other, Nat.dist num (other * den) = Nat.dist num (count * den) → other ≤ count

/-- The number lies in the middle between two multiples. -/
def Halfway (num den : Nat) : Prop := ∃ below, 2 * num = 2 * (below * den) + den

/-- A closest multiple is at most half a divisor away, as its neighbours are not closer. -/
theorem bounds_of_closest (positive : 0 < den)
    (closest : ∀ other, Nat.dist num (count * den) ≤ Nat.dist num (other * den))
    : 2 * (count * den) ≤ 2 * num + den ∧ 2 * num ≤ 2 * (count * den) + den := by
  constructor
  · cases count with
    | zero => omega
    | succ count =>
        have previous := closest count
        rw [Nat.succ_mul count den] at previous ⊢
        unfold Nat.dist at previous
        omega
  · have next := closest (count + 1)
    rw [Nat.succ_mul count den] at next
    unfold Nat.dist at next
    omega

/-- The nearest multiple is at most half a divisor above the number, and less than that below. -/
theorem nearest_iff (positive : 0 < den)
    : Nearest num den count
      ↔ 2 * (count * den) ≤ 2 * num + den ∧ 2 * num < 2 * (count * den) + den := by
  have higher {other : Nat} (more : count < other) : count * den + den ≤ other * den :=
    Nat.succ_mul count den ▸ Nat.mul_le_mul_right den more
  constructor
  · intro nearest
    have bounds := bounds_of_closest positive nearest.closest
    refine ⟨bounds.1, Nat.lt_of_le_of_ne bounds.2 fun tie => ?_⟩
    have upper := nearest.larger (count + 1)
    rw [Nat.succ_mul count den] at upper
    unfold Nat.dist at upper
    omega
  · rintro ⟨above, below⟩
    constructor
    · intro other
      rcases Nat.lt_trichotomy other count with less | rfl | more
      · have lower : other * den + den ≤ count * den :=
          Nat.succ_mul other den ▸ Nat.mul_le_mul_right den less
        unfold Nat.dist
        omega
      · exact Nat.le_refl _
      · have upper := higher more
        unfold Nat.dist
        omega
    · intro other same
      refine Nat.le_of_not_lt fun more => ?_
      have upper := higher more
      unfold Nat.dist at same
      omega

/-- Half-way between two multiples, the nearest one is the upper. -/
theorem nearest_iff_of_halfway (positive : 0 < den) {below : Nat}
    (half : 2 * num = 2 * (below * den) + den)
    : Nearest num den count ↔ count = below + 1 := by
  rw [nearest_iff positive]
  constructor
  · rintro ⟨above, under⟩
    have least : below < count := by
      refine Nat.lt_of_mul_lt_mul_right (a := den) ?_
      omega
    have most : count ≤ below + 1 := by
      refine Nat.le_of_mul_le_mul_right (c := den) ?_ positive
      rw [Nat.succ_mul below den]
      omega
    omega
  · rintro rfl
    rw [Nat.succ_mul below den]
    omega

/-- Where there is no tie, the rounded quotient counts the nearest multiple. -/
theorem nearest_divEven (positive : 0 < den) (clear : ¬Halfway num den)
    : Nearest num den (divEven num den) := by
  have bounds := bounds_of_closest positive fun other => dist_divEven_le num other positive
  refine (nearest_iff positive).2 ⟨bounds.1, Nat.lt_of_le_of_ne bounds.2 fun tie => ?_⟩
  exact clear ⟨_, tie⟩

/-- A number above a half has the same nearest multiple, when rounded, just if it lies less than
a divisor above. At a whole divisor both are ties.
-/
theorem nearest_divEven_add_iff (positive : 0 < den) (half : Halfway num den) {step : Nat}
    (some : 0 < step) (other : step ≠ den)
    : Nearest num den (divEven (num + step) den) ↔ step < den := by
  obtain ⟨below, half⟩ := half
  have bounds := bounds_of_closest positive fun other => dist_divEven_le (num + step) other positive
  rw [nearest_iff_of_halfway positive half]
  constructor
  · intro same
    rw [same, Nat.succ_mul below den] at bounds
    omega
  · intro near
    have least : below < divEven (num + step) den := by
      refine Nat.lt_of_mul_lt_mul_right (a := den) ?_
      omega
    have most : divEven (num + step) den < below + 2 := by
      refine Nat.lt_of_mul_lt_mul_right (a := den) ?_
      rw [Nat.add_mul]
      omega
    omega

-----------------------------------------------------------------------------------------
-- Rounding to places
-----------------------------------------------------------------------------------------

variable (places : Nat) {units : Nat}

theorem isHalfway_iff (units : Nat)
    : isHalfway places units = true ↔ Halfway (units * 10 ^ places) one := by
  have whole := Nat.div_add_mod (units * 10 ^ places) one
  have rest := Nat.mod_lt (units * 10 ^ places) Binary64.one_pos
  rw [Nat.mul_comm one] at whole
  rw [isHalfway, Nat.pow_eq, beq_iff_eq]
  constructor
  · intro tie
    exact ⟨units * 10 ^ places / one, by omega⟩
  · rintro ⟨below, half⟩
    have same : units * 10 ^ places / one = below := by
      refine Nat.div_eq_of_lt_le ?_ ?_
      · omega
      · rw [Nat.succ_mul]
        omega
    rw [same] at whole
    omega

/-- At a half the gap is no multiple of the last place, since the magnitude is one of the gap. -/
theorem not_dvd_gap_of_halfway (fits : units % gap units = 0)
    (half : Halfway (units * 10 ^ places) one)
    : ¬one ∣ gap units * 10 ^ places := by
  intro multiple
  have whole : one ∣ units * 10 ^ places :=
    Nat.dvd_trans multiple (Nat.mul_dvd_mul_right (Nat.dvd_of_mod_eq_zero fits) _)
  have tie := (isHalfway_iff places units).2 half
  rw [isHalfway, Nat.pow_eq, Nat.mod_eq_zero_of_dvd whole, beq_iff_eq] at tie
  exact Nat.ne_of_lt Binary64.one_pos tie

/-- The magnitude that is printed for another. -/
def printed (units : Nat) : Nat := if isHalfway places units then nextAbove units else units

/-- The printed magnitude is never half-way, so its nearest multiple is printed. -/
theorem nearest_printed (fits : units % gap units = 0)
    : Nearest (printed places units * 10 ^ places) one
        (roundedPlaces places (printed places units)) := by
  refine nearest_divEven Binary64.one_pos ?_
  unfold printed
  split
  next tie =>
    have half := (isHalfway_iff places units).1 tie
    rintro ⟨above, half'⟩
    refine not_dvd_gap_of_halfway places fits half ?_
    obtain ⟨below, half⟩ := half
    rw [nextAbove, Nat.add_mul] at half'
    refine ⟨above - below, ?_⟩
    rw [Nat.mul_comm one, Nat.sub_mul]
    omega
  next clear => exact fun half => clear ((isHalfway_iff places units).2 half)

/-- What is printed is the nearest multiple of the last place, unless the magnitude is half-way
and the next one is a whole place or more away.
-/
theorem nearest_iff_gap (fits : units % gap units = 0)
    : Nearest (units * 10 ^ places) one (roundedPlaces places (printed places units))
      ↔ (Halfway (units * 10 ^ places) one → gap units * 10 ^ places < one) := by
  by_cases half : Halfway (units * 10 ^ places) one
  · have apart : gap units * 10 ^ places ≠ one := fun same =>
      not_dvd_gap_of_halfway places fits half (same ▸ Nat.dvd_refl _)
    have some : 0 < gap units * 10 ^ places :=
      Nat.mul_pos (gap_pos units) (Nat.pow_pos (by decide))
    rw [printed, if_pos ((isHalfway_iff places units).2 half), roundedPlaces, nextAbove,
      Nat.pow_eq, Nat.add_mul, nearest_divEven_add_iff Binary64.one_pos half some apart]
    exact ⟨fun near _ => near, fun near => near half⟩
  · have clear : ¬isHalfway places units = true := fun tie =>
      half ((isHalfway_iff places units).1 tie)
    rw [printed, if_neg clear]
    exact iff_of_true (nearest_divEven Binary64.one_pos half) fun tie => absurd tie half

-----------------------------------------------------------------------------------------
-- Text
-----------------------------------------------------------------------------------------

/-- The digits of a whole number, with zeros in front that make them one more than the places. -/
def padded (value : Nat) : List Char :=
  List.replicate (places + 1 - (natural value).length) '0' ++ natural value

theorem places_lt_length_padded (value : Nat) : places < (padded places value).length := by
  rw [padded, List.length_append, List.length_replicate]
  omega

theorem isDigit_of_mem_padded {value : Nat} {c : Char} (member : c ∈ padded places value)
    : isDigit c = true := by
  rcases List.mem_append.1 member with zero | own
  · exact isDigit_of_mem_zeros zero
  · exact isDigit_of_mem_natural own

/-- The point stands before the last digits, as many as there are places. -/
theorem withPlaces_eq (value : Nat)
    : withPlaces places value
      = pointed ((padded places value).take ((padded places value).length - places))
          ((padded places value).drop ((padded places value).length - places)) := by
  have long := places_lt_length_padded places value
  unfold withPlaces pointed
  dsimp only
  rw [← padded]
  split
  next none => simp [none]
  next some =>
    have filled : (padded places value).drop ((padded places value).length - places) ≠ [] := by
      rw [ne_eq, List.drop_eq_nil_iff]
      omega
    rw [if_neg filled]

/-- Before the point there is no zero too much: where zeros fill up the places, one of them stands
there alone.
-/
theorem leading_padded (value : Nat)
    : (padded places value).take ((padded places value).length - places) = ['0']
      ∨ ∀ c ∈ ((padded places value).take ((padded places value).length - places)).head?,
          c ≠ '0' := by
  by_cases short : (natural value).length ≤ places
  · have long : (padded places value).length = places + 1 := by
      rw [padded, List.length_append, List.length_replicate]
      omega
    have zeros : places + 1 - (natural value).length = places - (natural value).length + 1 := by
      omega
    refine .inl ?_
    rw [long, Nat.add_sub_cancel_left, padded, zeros, List.replicate_succ]
    rfl
  · have whole : padded places value = natural value := by
      have zeros : places + 1 - (natural value).length = 0 := by omega
      rw [padded, zeros]
      rfl
    rw [whole]
    rcases Nat.eq_zero_or_pos value with rfl | positive
    · have digits : natural 0 = ['0'] := rfl
      rw [digits] at short ⊢
      have none : places = 0 := by simpa using short
      rw [none]
      exact .inl rfl
    · obtain ⟨c, digits, front, other⟩ := natural_head positive
      rw [front] at short ⊢
      obtain ⟨some, left⟩ : ∃ some, (c :: digits).length - places = some + 1 :=
        ⟨(c :: digits).length - places - 1, by omega⟩
      rw [left]
      simpa using Or.inr other

/-- The numeral writes a whole number of `10 ^ -places` with exactly that many places, and no
zero too much in front.
-/
structure Numeral.Placed (n : Numeral) (places value : Nat) : Prop where
  places : n.fraction.length = places
  value : n.digits = value
  leading : n.whole = ['0'] ∨ ∀ c ∈ n.whole.head?, c ≠ '0'

/-- A whole number of `10 ^ -places` is written by a numeral, under any sign. -/
theorem exists_placed (sign : Sign) (value : Nat)
    : ∃ n : Numeral, n.sign = sign ∧ n.Placed places value
        ∧ n.chars = sign.chars ++ withPlaces places value := by
  have long := places_lt_length_padded places value
  let n : Numeral :=
    { sign
      whole := (padded places value).take ((padded places value).length - places)
      fraction := (padded places value).drop ((padded places value).length - places)
      wholeDigits := by
        refine ⟨List.ne_nil_of_length_pos ?_, fun c member =>
          isDigit_of_mem_padded places (List.mem_of_mem_take member)⟩
        rw [List.length_take]
        omega
      fractionDigits := fun c member =>
        isDigit_of_mem_padded places (List.mem_of_mem_drop member) }
  refine ⟨n, rfl, ⟨?_, ?_, leading_padded places value⟩, ?_⟩
  · simp only [n, List.length_drop]
    omega
  · simp only [n, Numeral.digits, List.take_append_drop, padded]
    rw [digitsValue_zeros_append, digitsValue_natural]
  · rw [Numeral.chars, withPlaces_eq]

end Screener.Decimal
