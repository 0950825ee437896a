import Screener.Proofs.Time.ReadBack

/-!
The order of moments is the order of their texts with six decimals: texts of one width are
compared as the numbers that they are made of.
-/

namespace Screener

-----------------------------------------------------------------------------------------
-- Texts of one width
-----------------------------------------------------------------------------------------

/-- Behind beginnings of one length, the rest decides where they are equal. -/
theorem Text.append_lt_append_iff {a b : List Char} (same : a.length = b.length)
    (s t : List Char)
    : a ++ s < b ++ t ↔ a < b ∨ a = b ∧ s < t := by
  induction a generalizing b with
  | nil =>
      obtain rfl := List.eq_nil_of_length_eq_zero same.symm
      simp
  | cons c a ih =>
      cases b with
      | nil => contradiction
      | cons d b =>
          simp only [List.cons_append, List.cons_lt_cons_iff, ih (Nat.succ.inj same),
            List.cons.injEq]
          constructor
          · rintro (less | ⟨rfl, less | ⟨rfl, less⟩⟩)
            · exact .inl (.inl less)
            · exact .inl (.inr ⟨rfl, less⟩)
            · exact .inr ⟨⟨rfl, rfl⟩, less⟩
          · rintro ((less | ⟨rfl, less⟩) | ⟨⟨rfl, rfl⟩, less⟩)
            · exact .inl less
            · exact .inr ⟨rfl, .inl less⟩
            · exact .inr ⟨rfl, .inr ⟨rfl, less⟩⟩

namespace Timestamp

open Decimal (isDigit digitsValue)

/-- The value of digits behind digits of a value. -/
def valueFrom (start : Nat) (digits : List Char) : Nat :=
  digits.foldl (fun value c => 10 * value + (c.toNat - '0'.toNat)) start

theorem valueFrom_cons (start : Nat) (c : Char) (digits : List Char)
    : valueFrom start (c :: digits) = valueFrom (10 * start + (c.toNat - 48)) digits := by
  rfl

/-- A smaller value stays smaller behind as many digits. -/
theorem valueFrom_lt_valueFrom {a b : List Char} (same : a.length = b.length)
    (digitsA : ∀ c ∈ a, isDigit c = true) (digitsB : ∀ c ∈ b, isDigit c = true) {x y : Nat}
    (less : x < y)
    : valueFrom x a < valueFrom y b := by
  induction a generalizing b x y with
  | nil =>
      obtain rfl := List.eq_nil_of_length_eq_zero same.symm
      exact less
  | cons c a ih =>
      cases b with
      | nil => contradiction
      | cons d b =>
          obtain ⟨digit, othersA⟩ := List.forall_mem_cons.1 digitsA
          obtain ⟨_, othersB⟩ := List.forall_mem_cons.1 digitsB
          have bounds := digit_bounds digit
          rw [valueFrom_cons, valueFrom_cons]
          exact ih (Nat.succ.inj same) othersA othersB (by omega)

/-- Digits of one length are ordered as their values, by induction along what is common. -/
theorem valueFrom_lt_of_lt {a b : List Char} (same : a.length = b.length)
    (digitsA : ∀ c ∈ a, isDigit c = true) (digitsB : ∀ c ∈ b, isDigit c = true) (x : Nat)
    (less : a < b)
    : valueFrom x a < valueFrom x b := by
  induction a generalizing b x with
  | nil =>
      obtain rfl := List.eq_nil_of_length_eq_zero same.symm
      exact absurd less (List.lt_irrefl _)
  | cons c a ih =>
      cases b with
      | nil => contradiction
      | cons d b =>
          obtain ⟨digitC, othersA⟩ := List.forall_mem_cons.1 digitsA
          obtain ⟨digitD, othersB⟩ := List.forall_mem_cons.1 digitsB
          have length := Nat.succ.inj same
          rw [valueFrom_cons, valueFrom_cons]
          rcases List.cons_lt_cons_iff.1 less with first | ⟨rfl, later⟩
          · have boundsC := digit_bounds digitC
            have boundsD := digit_bounds digitD
            have order : c.toNat < d.toNat := first
            exact valueFrom_lt_valueFrom length othersA othersB (by omega)
          · exact ih length othersA othersB _ later

theorem digits_lt_digits_iff {width n m : Nat} (some : 0 < width) (smallN : n < 10 ^ width)
    (smallM : m < 10 ^ width)
    : digits width n < digits width m ↔ n < m := by
  have same : (digits width n).length = (digits width m).length :=
    (length_digits some smallN).trans (length_digits some smallM).symm
  have value {k : Nat} : valueFrom 0 (digits width k) = k := digitsValue_digits width k
  have forward {n m : Nat} (same : (digits width n).length = (digits width m).length)
      (less : digits width n < digits width m) : n < m := by
    have order := valueFrom_lt_of_lt same (fun c member => isDigit_of_mem_digits member)
      (fun c member => isDigit_of_mem_digits member) 0 less
    rwa [value, value] at order
  refine ⟨forward same, fun less => ?_⟩
  refine Decidable.byContradiction fun above => ?_
  rcases Decidable.em (digits width m < digits width n) with below | below
  · exact absurd (forward same.symm below) (Nat.lt_asymm less)
  · have equal := List.le_antisymm (List.not_lt.1 above) (List.not_lt.1 below)
    have values := congrArg (valueFrom 0) equal
    rw [value, value] at values
    omega

theorem digits_inj {width n m : Nat} : digits width n = digits width m ↔ n = m := by
  refine ⟨fun same => ?_, fun same => same ▸ rfl⟩
  rw [← digitsValue_digits width n, same, digitsValue_digits]

-----------------------------------------------------------------------------------------
-- Moments
-----------------------------------------------------------------------------------------

/-- A moment lies before another. -/
def Before (t u : Timestamp) : Prop :=
  t.date.year < u.date.year ∨ t.date.year = u.date.year ∧
    (t.date.month < u.date.month ∨ t.date.month = u.date.month ∧
      (t.date.day < u.date.day ∨ t.date.day = u.date.day ∧
        (t.second < u.second ∨ t.second = u.second ∧ t.nanos < u.nanos)))

instance : LT Timestamp := ⟨Before⟩

instance (t u : Timestamp) : Decidable (t < u) := by
  unfold LT.lt instLT Before; infer_instance

theorem digits_append_lt_iff {width n m : Nat} (some : 0 < width) (smallN : n < 10 ^ width)
    (smallM : m < 10 ^ width) (s t : List Char)
    : digits width n ++ s < digits width m ++ t ↔ n < m ∨ n = m ∧ s < t := by
  have same : (digits width n).length = (digits width m).length :=
    (length_digits some smallN).trans (length_digits some smallM).symm
  rw [Text.append_lt_append_iff same, digits_lt_digits_iff some smallN smallM, digits_inj]

theorem cons_lt_cons_iff (c : Char) (s t : List Char) : c :: s < c :: t ↔ s < t := by
  simp

/-- Days of years with four digits come first in the order of their texts. -/
theorem dateText_append_lt_iff {d e : Date} (yearD : 0 ≤ d.year ∧ d.year ≤ 9999)
    (yearE : 0 ≤ e.year ∧ e.year ≤ 9999) (s t : List Char)
    : dateText d ++ s < dateText e ++ t
      ↔ d.year < e.year ∨ d.year = e.year ∧
          (d.month < e.month ∨ d.month = e.month ∧
            (d.day < e.day ∨ d.day = e.day ∧ s < t)) := by
  have narrow (f : Date) : f.month < 10 ^ 2 ∧ f.day < 10 ^ 2 := by
    obtain ⟨_, _, _, month, _, day⟩ := f.valid
    have days := Date.daysInMonth_le f.year f.month
    omega
  have smallD : d.year.toNat < 10 ^ 4 := by omega
  have smallE : e.year.toNat < 10 ^ 4 := by omega
  have less : d.year.toNat < e.year.toNat ↔ d.year < e.year := by omega
  have equal : d.year.toNat = e.year.toNat ↔ d.year = e.year := by omega
  simp only [dateText, yearText, yearD, yearE, and_self, ↓reduceIte, List.append_assoc,
    List.cons_append, cons_lt_cons_iff, digits_append_lt_iff (by decide) smallD smallE,
    digits_append_lt_iff (by decide) (narrow d).1 (narrow e).1,
    digits_append_lt_iff (by decide) (narrow d).2 (narrow e).2, less, equal]

/-- Hour, minute, second and microseconds are ordered as the second of the day and what is
above a microsecond.
-/
theorem parts_lt_iff {t u : Timestamp} (leapT : t.nanos < 1000000000 ∨ t.second % 60 = 59)
    (leapU : u.nanos < 1000000000 ∨ u.second % 60 = 59)
    : (t.second / 3600 < u.second / 3600 ∨ t.second / 3600 = u.second / 3600 ∧
        (t.second / 60 % 60 < u.second / 60 % 60 ∨ t.second / 60 % 60 = u.second / 60 % 60 ∧
          (t.second % 60 + t.nanos / 1000000000 < u.second % 60 + u.nanos / 1000000000
            ∨ t.second % 60 + t.nanos / 1000000000 = u.second % 60 + u.nanos / 1000000000 ∧
              t.nanos % 1000000000 / 1000 < u.nanos % 1000000000 / 1000)))
      ↔ t.second < u.second ∨ t.second = u.second ∧
          t.nanos - t.nanos % 1000 < u.nanos - u.nanos % 1000 := by
  have highT := t.nanos_lt
  have highU := u.nanos_lt
  omega

/-- The texts of stores are ordered as the moments that they name. -/
theorem microsText_lt_iff {t u : Timestamp} (regularT : t.Regular) (regularU : u.Regular)
    : t.microsText < u.microsText ↔ t.toMicros < u.toMicros := by
  have hours (v : Timestamp) : v.second / 3600 < 10 ^ 2 := by
    have := v.second_lt
    omega
  have minutes (v : Timestamp) : v.second / 60 % 60 < 10 ^ 2 := by omega
  have seconds (v : Timestamp) : v.second % 60 + v.nanos / 1000000000 < 10 ^ 2 := by
    have := v.nanos_lt
    omega
  have micros (v : Timestamp) : v.nanos % 1000000000 / 1000 < 10 ^ 6 := by omega
  have parts := parts_lt_iff regularT.leap regularU.leap
  rw [String.lt_iff, microsText, microsText, String.toList_ofList,
    String.toList_ofList,
    dateText_append_lt_iff ⟨regularT.low, regularT.high⟩ ⟨regularU.low, regularU.high⟩]
  simp only [secondText, minuteText, List.append_assoc, List.cons_append, cons_lt_cons_iff,
    digits_append_lt_iff (by decide) (hours t) (hours u),
    digits_append_lt_iff (by decide) (minutes t) (minutes u),
    digits_append_lt_iff (by decide) (seconds t) (seconds u),
    digits_append_lt_iff (by decide) (micros t) (micros u), List.lt_irrefl, and_false,
    or_false]
  rw [parts]
  exact Iff.rfl

end Timestamp

end Screener
