import Screener.Decimal.Shortest
import Screener.Proofs.Binary64.Rounding

/-!
Decimals read back as the values that they were written for. The value of a decimal is its
exact magnitude, rounded once, so trailing zeros can move between digits and exponent; the
plain text of a finite value only does that to a decimal that reads back.
-/

namespace Screener.Binary64

-----------------------------------------------------------------------------------------
-- The value of a decimal
-----------------------------------------------------------------------------------------

theorem two_pow_three_mul_le (k : Nat) : 2 ^ (3 * k) ≤ 10 ^ k := by
  rw [Nat.pow_mul]
  exact Nat.pow_le_pow_left (by decide) k

theorem two_mul_one : 2 * one = 2 ^ 1075 := by decide +kernel

theorem two_pow_mul_one : 2 ^ 1024 * one = 2 ^ 2098 := by decide +kernel

theorem bound_eq : bound = 2 ^ 2098 := by decide +kernel

theorem five_pow_mul_one : Nat.pow 5 1074 * one = 10 ^ 1074 := by decide +kernel

theorem two_pow_le_mul_ten_pow {digits k exponent : Nat} (some : digits ≠ 0)
    (large : k ≤ 3 * exponent)
    : 2 ^ k ≤ digits * 10 ^ exponent :=
  calc 2 ^ k
    _ ≤ 2 ^ (3 * exponent) := Nat.pow_le_pow_right (by decide) large
    _ ≤ 10 ^ exponent := two_pow_three_mul_le exponent
    _ ≤ digits * 10 ^ exponent := Nat.le_mul_of_pos_left _ (Nat.pos_of_ne_zero some)

/-- A decimal beyond the exponents of the format reaches its bound. -/
theorem bound_le_nearestUnits_of_large {digits : Nat} (exponent : Nat) (some : digits ≠ 0)
    (large : 400 < exponent)
    : bound ≤ nearestUnits (digits * 10 ^ exponent * one) 1 := by
  rw [bound_eq]
  refine two_pow_le_nearestUnits (k := 2098) ?_
  rw [Nat.div_one, ← two_pow_mul_one]
  refine Nat.mul_le_mul_right one ?_
  exact two_pow_le_mul_ten_pow some (by omega)

/-- A decimal below the exponents of the format is less than half a unit. -/
theorem two_mul_lt_of_small (digits exponent : Nat)
    (small : digits.log2 + 1 + 1075 < 3 * exponent)
    : 2 * (digits * one) < 10 ^ exponent := by
  have below (bits : Nat) : digits * 2 ^ bits < 2 ^ (digits.log2 + 1 + bits) := by
    rw [Nat.pow_add]
    exact Nat.mul_lt_mul_of_pos_right Nat.lt_log2_self (Nat.two_pow_pos bits)
  calc 2 * (digits * one)
    _ = digits * (2 * one) := Nat.mul_left_comm _ _ _
    _ = digits * 2 ^ 1075 := by rw [two_mul_one]
    _ < 2 ^ (digits.log2 + 1 + 1075) := below 1075
    _ ≤ 2 ^ (3 * exponent) := Nat.pow_le_pow_right (by decide) (by omega)
    _ ≤ 10 ^ exponent := two_pow_three_mul_le exponent

/-- The value of a decimal is its exact magnitude, rounded once. The exponents that are
settled without building the power are settled as rounding would.
-/
theorem ofDecimal_eq_round (negative : Bool) (digits : Nat) (exponent : Int)
    : ofDecimal negative digits exponent
      = round negative (digits * 10 ^ exponent.toNat * one) (10 ^ (-exponent).toNat) := by
  unfold ofDecimal
  split
  case isTrue zero =>
    refine round_congr negative Nat.one_pos (Nat.pow_pos (by decide)) ?_
    simp [zero]
  case isFalse some =>
  split
  case isTrue large =>
    have whole : (-exponent).toNat = 0 := by omega
    have beyond := bound_le_nearestUnits_of_large exponent.toNat some (by omega)
    rw [whole, Nat.pow_zero, round, dif_neg (by omega)]
  case isFalse =>
  split
  case isTrue small =>
    have none : exponent.toNat = 0 := by omega
    have below := two_mul_lt_of_small digits (-exponent).toNat (by omega)
    rw [none, Nat.pow_zero, Nat.mul_one]
    simp only [round, nearestUnits_zero, nearestUnits_eq_zero below]
  case isFalse =>
  split
  case isTrue whole =>
    have none : (-exponent).toNat = 0 := by omega
    rw [none, Nat.pow_zero, Nat.pow_eq]
  case isFalse =>
    have none : exponent.toNat = 0 := by omega
    rw [none, Nat.pow_zero, Nat.mul_one, Nat.pow_eq]

/-- Powers of ten move freely between digits and exponent. -/
theorem ofDecimal_mul_ten_pow (negative : Bool) (digits k : Nat) (exponent : Int)
    : ofDecimal negative (digits * 10 ^ k) exponent
      = ofDecimal negative digits (exponent + k) := by
  rw [ofDecimal_eq_round, ofDecimal_eq_round]
  refine round_congr negative (Nat.pow_pos (by decide)) (Nat.pow_pos (by decide)) ?_
  have powers
      : 10 ^ k * 10 ^ exponent.toNat * 10 ^ (-(exponent + k)).toNat
        = 10 ^ (exponent + k).toNat * 10 ^ (-exponent).toNat := by
    rw [← Nat.pow_add, ← Nat.pow_add, ← Nat.pow_add]
    congr 1
    omega
  calc digits * 10 ^ k * 10 ^ exponent.toNat * one * 10 ^ (-(exponent + k)).toNat
    _ = digits * one * (10 ^ k * 10 ^ exponent.toNat * 10 ^ (-(exponent + k)).toNat) := by
        simp only [Nat.mul_assoc, Nat.mul_left_comm, Nat.mul_comm]
    _ = digits * one * (10 ^ (exponent + k).toNat * 10 ^ (-exponent).toNat) := by
        rw [powers]
    _ = digits * 10 ^ (exponent + k).toNat * one * 10 ^ (-exponent).toNat := by
        simp only [Nat.mul_assoc, Nat.mul_left_comm, Nat.mul_comm]

/-- A decimal without digits is a zero. -/
theorem ofDecimal_zero (negative : Bool) (exponent : Int)
    : ofDecimal negative 0 exponent = round negative 0 1 :=
  if_pos rfl

/-- The exact decimal of a magnitude in units reads back. -/
theorem ofDecimal_units {units : Nat} (h : Representable units)
    : ofDecimal false (units * Nat.pow 5 1074) (-1074) = finite false units h := by
  rw [ofDecimal_eq_round]
  refine round_exact false (Nat.pow_pos (by decide)) ?_ h
  rw [show (-1074 : Int).toNat = 0 from rfl, show (-(-1074) : Int).toNat = 1074 from rfl,
    Nat.pow_zero, Nat.mul_one, Nat.mul_assoc, five_pow_mul_one]

/-- The sign goes through reading as it is. -/
theorem ofDecimal_finite_sign {negative : Bool} {digits units : Nat} {exponent : Int}
    {h : Representable units}
    (same : ofDecimal false digits exponent = finite false units h)
    : ofDecimal negative digits exponent = finite negative units h := by
  rw [ofDecimal_eq_round] at same ⊢
  exact round_finite_sign same

end Screener.Binary64

namespace Screener.Decimal

open Binary64

-- Unification must not try to evaluate magnitudes.
attribute [local irreducible] ofDecimal

-----------------------------------------------------------------------------------------
-- Digits
-----------------------------------------------------------------------------------------

theorem isDigit_eq (c : Char) : isDigit c = c.isDigit := rfl

theorem digitsValue_eq (digits : List Char) : digitsValue digits = Nat.ofDigitChars 10 digits 0 :=
  rfl

/-- Zeros at the end multiply by a power of ten. -/
theorem digitsValue_append_zeros (digits : List Char) (count : Nat)
    : digitsValue (digits ++ List.replicate count '0') = digitsValue digits * 10 ^ count := by
  rw [digitsValue_eq, digitsValue_eq, Nat.ofDigitChars_append,
    Nat.ofDigitChars_replicate_zero, Nat.mul_comm]

/-- Zeros at the front do not count. -/
theorem digitsValue_zeros_append (count : Nat) (digits : List Char)
    : digitsValue (List.replicate count '0' ++ digits) = digitsValue digits := by
  rw [digitsValue_eq, digitsValue_eq, Nat.ofDigitChars_append,
    Nat.ofDigitChars_replicate_zero, Nat.mul_zero]

theorem digitsValue_natural (n : Nat) : digitsValue (natural n) = n :=
  Nat.ofDigitChars_ten_toDigits

theorem natural_inj {n m : Nat} : natural n = natural m ↔ n = m := by
  refine ⟨fun same => ?_, fun same => same ▸ rfl⟩
  rw [← digitsValue_natural n, same, digitsValue_natural]

theorem isDigit_of_mem_natural {n : Nat} {c : Char} (member : c ∈ natural n)
    : isDigit c = true :=
  (isDigit_eq c).trans (Nat.isDigit_of_mem_toDigits (by decide) (by decide) member)

theorem natural_ne_nil (n : Nat) : natural n ≠ [] := Nat.toDigits_ne_nil

/-- A natural number above zero does not start with a zero, by induction on its digits. -/
theorem natural_head {n : Nat} (positive : 0 < n)
    : ∃ c digits, natural n = c :: digits ∧ c ≠ '0' := by
  induction n using Nat.strongRecOn with
  | ind n ih =>
      unfold natural
      rw [Nat.toDigits_eq_if (by decide)]
      split
      next => exact ⟨n.digitChar, [], rfl, by simp; omega⟩
      next large =>
        obtain ⟨c, digits, front, other⟩ := ih (n / 10) (by omega) (by omega)
        exact ⟨c, digits ++ [(n % 10).digitChar], by rw [← natural, front]; rfl, other⟩

-----------------------------------------------------------------------------------------
-- The shortest decimal
-----------------------------------------------------------------------------------------

/-- A decimal reads back if its value is the magnitude. -/
theorem readsBack_iff {units digits : Nat} {exponent : Int} (h : Representable units)
    : readsBack units digits exponent = true
      ↔ ofDecimal false digits exponent = finite false units h := by
  unfold readsBack
  cases read : ofDecimal false digits exponent with
  | nan | infinite _ => simp
  | finite sign found g =>
      have plus : sign = false := by
        rw [ofDecimal_eq_round] at read
        exact sign_of_round read
      simp [plus]

/-- A choice between two decimals reads back, whichever of them it is. -/
theorem readsBack_of_choice {units below digits : Nat} {place exponent : Int} {up : Bool}
    (found : choice units below place up = some (digits, exponent))
    : readsBack units digits exponent = true := by
  unfold choice at found
  cases under : readsBack units below place with
  | true =>
      cases above : readsBack units (below + 1) place with
      | true =>
          rw [under, above] at found
          obtain ⟨rfl, rfl⟩ := Prod.mk.inj (Option.some.inj found)
          cases up
          · exact under
          · exact above
      | false =>
          rw [under, above] at found
          obtain ⟨rfl, rfl⟩ := Prod.mk.inj (Option.some.inj found)
          exact under
  | false =>
      cases above : readsBack units (below + 1) place with
      | true =>
          rw [under, above] at found
          obtain ⟨rfl, rfl⟩ := Prod.mk.inj (Option.some.inj found)
          exact above
      | false =>
          rw [under, above] at found
          cases found

/-- The shortest decimal reads back: it is a candidate, or the exact decimal behind them. -/
theorem ofDecimal_shortest (tie : Tie) {units : Nat} (h : Representable units)
    : ofDecimal false (shortest tie units).1 (shortest tie units).2 = finite false units h := by
  unfold shortest
  cases found : (List.range 17).findSome? fun i => candidate tie units (i + 1) with
  | none =>
      rw [Option.getD_none]
      exact ofDecimal_units h
  | some decimal =>
      rw [Option.getD_some]
      obtain ⟨count, _, found⟩ := List.exists_of_findSome?_eq_some found
      exact (readsBack_iff h).1 (readsBack_of_choice found)

/-- A text of digits ends in its zeros; what stands before them is kept. -/
theorem kept_append_zeros (digits : List Char)
    : (digits.reverse.dropWhile (· == '0')).reverse
        ++ List.replicate
            (digits.length - (digits.reverse.dropWhile (· == '0')).reverse.length) '0'
      = digits := by
  have whole := List.takeWhile_append_dropWhile (p := (· == '0')) (l := digits.reverse)
  have zeros : ∀ c ∈ digits.reverse.takeWhile (· == '0'), c = '0' := by
    intro c member
    simpa using List.all_eq_true.1 List.all_takeWhile c member
  generalize digits.reverse.takeWhile (· == '0') = trailing at whole zeros
  generalize digits.reverse.dropWhile (· == '0') = kept at whole
  have turned : digits = kept.reverse ++ trailing.reverse := by
    rw [← List.reverse_append, whole, List.reverse_reverse]
  have same : trailing.reverse = List.replicate trailing.length '0' := by
    rw [List.eq_replicate_iff]
    simpa using zeros
  rw [turned, same]
  simp

/-- Stripping a decimal of its zeros does not change its value. -/
theorem ofDecimal_stripped (negative : Bool) (value : Nat) (exponent : Int)
    : ofDecimal negative (digitsValue (stripped value exponent).1) (stripped value exponent).2
      = ofDecimal negative value exponent := by
  unfold stripped
  dsimp only
  rw [← ofDecimal_mul_ten_pow, ← digitsValue_append_zeros, kept_append_zeros,
    digitsValue_natural]

theorem isDigit_of_mem_stripped {value : Nat} {exponent : Int} {c : Char}
    (member : c ∈ (stripped value exponent).1)
    : isDigit c = true := by
  unfold stripped at member
  have kept := List.mem_reverse.1 member
  exact isDigit_of_mem_natural (List.mem_reverse.1 ((List.dropWhile_sublist _).mem kept))

/-- The significant digits and their exponent read back as the magnitude under any sign. -/
theorem ofDecimal_significant (negative : Bool) (tie : Tie) {units : Nat}
    (h : Representable units)
    : ofDecimal negative (digitsValue (significant tie units).1) (significant tie units).2
      = finite negative units h := by
  unfold significant
  rw [ofDecimal_stripped]
  exact ofDecimal_finite_sign (ofDecimal_shortest tie h)

/-- There is a significant digit unless the magnitude is zero. -/
theorem significant_ne_nil {tie : Tie} {units : Nat} (h : Representable units)
    (some : units ≠ 0)
    : (significant tie units).1 ≠ [] := by
  intro none
  have value := ofDecimal_significant false tie h
  have zero : Representable 0 := by decide +kernel
  have plain := round_exact false Nat.one_pos (show 0 = 0 * 1 from rfl) zero
  rw [none, show digitsValue [] = 0 from rfl, ofDecimal_zero, plain] at value
  simp only [finite.injEq, true_and] at value
  exact some value.symm

theorem spanDigits_append {digits rest : List Char} (all : ∀ c ∈ digits, isDigit c = true)
    (next : ∀ c ∈ rest.head?, isDigit c = false)
    : spanDigits (digits ++ rest) = (digits, rest) := by
  rw [spanDigits, List.takeWhile_append_of_pos all, List.dropWhile_append_of_pos all]
  cases rest with
  | nil => simp
  | cons c rest =>
      have stop := next c rfl
      simp [stop]

-----------------------------------------------------------------------------------------
-- Plain text
-----------------------------------------------------------------------------------------

/-- Digits with a point behind them if more digits follow it. -/
def pointed (whole fraction : List Char) : List Char :=
  whole ++ if fraction = [] then [] else '.' :: fraction

/-- The digits before and after a point spell a value under a sign. There is a digit before
the point.
-/
structure Spells (negative : Bool) (whole fraction : List Char) (v : Binary64) : Prop where
  some : whole ≠ []
  wholeDigits : ∀ c ∈ whole, isDigit c = true
  fractionDigits : ∀ c ∈ fraction, isDigit c = true
  value
    : ofDecimal negative (digitsValue (whole ++ fraction)) (-(fraction.length : Int)) = v

theorem isDigit_of_mem_zeros {count : Nat} {c : Char} (member : c ∈ List.replicate count '0')
    : isDigit c = true := by
  rw [List.eq_of_mem_replicate member]
  decide

section Positional

variable (negative : Bool) {digits : List Char} {exponent : Int}

/-- An exponent from zero up is spelled by zeros behind the digits. -/
theorem spells_zeros_behind (some : digits ≠ []) (all : ∀ c ∈ digits, isDigit c = true)
    (above : 0 ≤ exponent)
    : Spells negative (digits ++ List.replicate exponent.toNat '0') []
        (ofDecimal negative (digitsValue digits) exponent) := by
  constructor
  case some => simp [some]
  case wholeDigits =>
    intro c member
    exact (List.mem_append.1 member).elim (all c) isDigit_of_mem_zeros
  case fractionDigits => simp
  case value =>
    rw [List.append_nil, digitsValue_append_zeros, ofDecimal_mul_ten_pow]
    congr 1
    simp only [List.length_nil]
    omega

/-- An exponent below zero is spelled by a point among the digits where there are more of them. -/
theorem spells_point_among (some : digits ≠ []) (all : ∀ c ∈ digits, isDigit c = true)
    (below : exponent < 0) (inside : (-exponent).toNat < digits.length)
    : Spells negative (digits.take (digits.length - (-exponent).toNat))
        (digits.drop (digits.length - (-exponent).toNat))
        (ofDecimal negative (digitsValue digits) exponent) := by
  constructor
  case some =>
    simp only [ne_eq, List.take_eq_nil_iff, not_or]
    exact ⟨by omega, some⟩
  case wholeDigits => exact fun c member => all c (List.mem_of_mem_take member)
  case fractionDigits => exact fun c member => all c (List.mem_of_mem_drop member)
  case value =>
    rw [List.take_append_drop, List.length_drop]
    congr 1
    omega

/-- An exponent below zero is spelled by zeros before the digits where these are too few. -/
theorem spells_zeros_before (all : ∀ c ∈ digits, isDigit c = true) (below : exponent < 0)
    (before : ¬(-exponent).toNat < digits.length)
    : Spells negative ['0'] (List.replicate ((-exponent).toNat - digits.length) '0' ++ digits)
        (ofDecimal negative (digitsValue digits) exponent) := by
  constructor
  case some => simp
  case wholeDigits => simp [isDigit]
  case fractionDigits =>
    intro c member
    exact (List.mem_append.1 member).elim isDigit_of_mem_zeros (all c)
  case value =>
    rw [← List.append_assoc, show ['0'] = List.replicate 1 '0' from rfl,
      List.replicate_append_replicate, digitsValue_zeros_append]
    congr 1
    simp only [List.length_append, List.length_replicate]
    omega

/-- Digits written without an exponent spell the decimal, with the exponent as zeros or as the
place of a point.
-/
theorem spells_positional (exponent : Int) (some : digits ≠ [])
    (all : ∀ c ∈ digits, isDigit c = true)
    : ∃ whole fraction,
        Spells negative whole fraction (ofDecimal negative (digitsValue digits) exponent)
        ∧ positional digits exponent = pointed whole fraction := by
  unfold positional
  split
  next above => exact ⟨_, _, spells_zeros_behind negative some all above, by simp [pointed]⟩
  next above =>
    have below : exponent < 0 := Int.not_le.1 above
    dsimp only
    split
    next inside =>
      have more : digits.drop (digits.length - (-exponent).toNat) ≠ [] := by
        simp only [ne_eq, List.drop_eq_nil_iff]
        omega
      exact ⟨_, _, spells_point_among negative some all below inside, by simp [pointed, more]⟩
    next before =>
      exact ⟨_, _, spells_zeros_before negative all below before, by simp [pointed, some]⟩

end Positional

/-- The plain text of a finite value spells it behind its sign. -/
theorem spells_plain (negative : Bool) {units : Nat} (h : Representable units)
    : ∃ whole fraction,
        Spells negative whole fraction (finite negative units h)
        ∧ (plain (finite negative units h)).toList
          = sign negative ++ pointed whole fraction := by
  unfold plain
  by_cases zero : units = 0
  · subst zero
    refine ⟨['0'], [], ⟨by simp, by simp [isDigit], by simp, ?_⟩, ?_⟩
    · rw [show digitsValue (['0'] ++ []) = 0 from rfl, ofDecimal_zero]
      exact round_exact negative Nat.one_pos rfl h
    · simp [pointed]
  · obtain ⟨whole, fraction, spells, text⟩ := spells_positional negative
      (significant .up units).2 (significant_ne_nil h zero)
      (fun c member => isDigit_of_mem_stripped member)
    rw [ofDecimal_significant negative .up h] at spells
    refine ⟨whole, fraction, spells, ?_⟩
    simp only [zero, ↓reduceIte, String.toList_ofList]
    rw [text]

end Screener.Decimal
