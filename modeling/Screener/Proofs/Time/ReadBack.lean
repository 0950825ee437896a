import Screener.Proofs.Decimal.ReadBack
import Screener.Proofs.Text.Lowercase
import Screener.Time.Reading

/-!
Moments are read back from their texts. Every part of a text has a fixed width, up to the
decimals of a second, so each is read up to the next mark.
-/

namespace Screener

theorem Date.daysInMonth_le (year : Int) (month : Nat) : daysInMonth year month ≤ 31 := by
  unfold daysInMonth
  split
  · split <;> decide
  · split <;> decide

namespace Timestamp

open Decimal (isDigit digitsValue natural)

-----------------------------------------------------------------------------------------
-- Numbers of a fixed width
-----------------------------------------------------------------------------------------

theorem length_digits {width n : Nat} (some : 0 < width) (small : n < 10 ^ width)
    : (digits width n).length = width := by
  have fits := (Nat.length_toDigits_le_iff (b := 10) (by decide) some).2 small
  simp only [digits, List.length_append, List.length_replicate]
  omega

theorem isDigit_of_mem_digits {width n : Nat} {c : Char} (member : c ∈ digits width n)
    : isDigit c = true := by
  rcases List.mem_append.1 member with zero | member
  · exact Decimal.isDigit_of_mem_zeros zero
  · exact Decimal.isDigit_of_mem_natural member

theorem digitsValue_digits (width n : Nat) : digitsValue (digits width n) = n := by
  rw [digits, Decimal.digitsValue_zeros_append]
  exact Decimal.digitsValue_natural n

theorem digits_cons (width n : Nat)
    : ∃ c rest, digits width n = c :: rest ∧ isDigit c = true := by
  cases text : digits width n with
  | nil => exact absurd (List.append_eq_nil_iff.1 text).2 Nat.toDigits_ne_nil
  | cons c rest => exact ⟨c, rest, rfl, isDigit_of_mem_digits (text ▸ List.mem_cons_self)⟩

/-- The digits of a number end where the next character is none. -/
theorem takeWhile_digits (width n : Nat) {rest : List Char}
    (stop : ∀ c ∈ rest.head?, isDigit c = false)
    : (digits width n ++ rest).takeWhile isDigit = digits width n := by
  have none : rest.takeWhile isDigit = [] := by
    cases rest with
    | nil => rfl
    | cons c rest =>
        have other := stop c rfl
        simp [other]
  rw [List.takeWhile_append_of_pos fun c member => isDigit_of_mem_digits member, none,
    List.append_nil]

/-- A number is read whose digits are those that are taken. -/
theorem number_of_taken {most : Option Nat} {width n : Nat} {rest : List Char}
    (taken : ((digits width n ++ rest).takeWhile isDigit).take
        (most.getD ((digits width n ++ rest).takeWhile isDigit).length) = digits width n)
    : number most (digits width n ++ rest) = .ok (n, rest) := by
  obtain ⟨c, others, text, digit⟩ := digits_cons width n
  have value := digitsValue_digits width n
  rw [number.eq_def]
  rw [text, List.cons_append] at taken ⊢
  simp only [digit, ↓reduceIte, taken]
  rw [← text, value, ← List.cons_append, ← text, List.drop_left]

/-- A number of at most the width that is read is taken whole. -/
theorem number_digits {width most n : Nat} (some : 0 < width) (small : n < 10 ^ width)
    (room : width ≤ most) (rest : List Char)
    (stop : width = most ∨ ∀ c ∈ rest.head?, isDigit c = false)
    : number most (digits width n ++ rest) = .ok (n, rest) := by
  have full := length_digits some small
  refine number_of_taken ?_
  rw [Option.getD_some]
  rcases stop with rfl | stop
  · rw [List.takeWhile_append_of_pos fun c member => isDigit_of_mem_digits member,
      List.take_append_of_le_length (Nat.le_of_eq full.symm),
      List.take_of_length_le (Nat.le_of_eq full)]
  · rw [takeWhile_digits width n stop, List.take_of_length_le (by omega)]

/-- Where no width is given, all digits are read. -/
theorem number_none_digits (width n : Nat) {rest : List Char}
    (stop : ∀ c ∈ rest.head?, isDigit c = false)
    : number none (digits width n ++ rest) = .ok (n, rest) := by
  refine number_of_taken ?_
  rw [Option.getD_none, List.take_length, takeWhile_digits width n stop]

-----------------------------------------------------------------------------------------
-- Parts of a text
-----------------------------------------------------------------------------------------

theorem digit_bounds {c : Char} (digit : isDigit c = true) : 48 ≤ c.toNat ∧ c.toNat ≤ 57 := by
  simp only [isDigit, Bool.and_eq_true, decide_eq_true_eq, Char.le_def,
    UInt32.le_iff_toNat_le] at digit
  exact digit

theorem isBlank_of_isDigit {c : Char} (digit : isDigit c = true) : Text.isBlank c = false := by
  have bounds := digit_bounds digit
  simp [Text.isBlank]
  omega

theorem trimStart_digits (width n : Nat) (rest : List Char)
    : Text.trimStart (digits width n ++ rest) = digits width n ++ rest := by
  obtain ⟨c, others, text, digit⟩ := digits_cons width n
  rw [text, List.cons_append, Text.trimStart_cons (isBlank_of_isDigit digit)]

theorem bounded_digits {low high n : Nat} (above : low ≤ n) (below : n ≤ high)
    (narrow : high < 100) (rest : List Char)
    : bounded low high (digits 2 n ++ rest) = .ok (n, rest) := by
  have small : n < 10 ^ 2 := by omega
  have read := number_digits (by decide) small (Nat.le_refl 2) rest (.inl rfl)
  rw [bounded, trimStart_digits, read]
  simp [bind, Except.bind, above, below]

theorem mark_cons {c : Char} (solid : Text.isBlank c = false) (rest : List Char)
    : mark c (c :: rest) = .ok rest := by
  rw [mark, Text.trimStart_cons solid]
  exact if_pos rfl

/-- A year is read from its text, in four digits or behind a sign. -/
theorem year_yearText {y : Int} (low : -262143 ≤ y) (high : y ≤ 262142) {rest : List Char}
    (stop : ∀ c ∈ rest.head?, isDigit c = false)
    : year (yearText y ++ rest) = .ok (y, rest) := by
  have within : -2147483648 ≤ y ∧ y ≤ 2147483647 := ⟨by omega, by omega⟩
  by_cases four : 0 ≤ y ∧ y ≤ 9999
  · have small : y.toNat < 10 ^ 4 := by omega
    have read := number_digits (by decide) small (Nat.le_refl 4) rest (.inl rfl)
    obtain ⟨c, others, text, digit⟩ := digits_cons 4 y.toNat
    have whole : ((y.toNat : Nat) : Int) = y := Int.toNat_of_nonneg four.1
    have minus : c ≠ '-' := by
      rintro rfl
      contradiction
    have plus : c ≠ '+' := by
      rintro rfl
      contradiction
    rw [yearText, if_pos four, year, trimStart_digits]
    rw [text, List.cons_append] at read ⊢
    split
    next same => exact absurd (List.cons.inj same).1 minus
    next same => exact absurd (List.cons.inj same).1 plus
    next =>
      simp only [read, Except.map, bind, Except.bind, whole]
      exact if_pos within
  · have read := number_none_digits 4 y.natAbs stop
    rw [yearText, if_neg four, year]
    by_cases below : y < 0
    · have value : -((y.natAbs : Nat) : Int) = y := by omega
      rw [if_pos below, List.cons_append, Text.trimStart_cons (by decide)]
      simp only [read, Except.map, bind, Except.bind, value]
      exact if_pos within
    · have value : ((y.natAbs : Nat) : Int) = y := by omega
      rw [if_neg below, List.cons_append, Text.trimStart_cons (by decide)]
      simp only [read, Except.map, bind, Except.bind, value]
      exact if_pos within

theorem fraction_digits {width n : Nat} (some : 0 < width) (most : width ≤ 9)
    (small : n < 10 ^ width)
    : fraction ('.' :: digits width n ++ ['Z']) = .ok (n * 10 ^ (9 - width), ['Z']) := by
  have read := number_digits some small most ['Z'] (.inr (by simp [isDigit]))
  have taken : (digits width n ++ ['Z']).length - ['Z'].length = width := by
    rw [List.length_append, length_digits some small, Nat.add_sub_cancel]
  rw [List.cons_append, fraction, read]
  simp only [bind, Except.bind, taken]
  rfl

/-- The decimals that a part of a second needs are read as it. -/
theorem fraction_fractionText {nanos : Nat} (small : nanos < 1000000000)
    : fraction (fractionText nanos ++ ['Z']) = .ok (nanos, ['Z']) := by
  have exact' {width n : Nat} (some : 0 < width) (most : width ≤ 9) (small : n < 10 ^ width)
      (value : n * 10 ^ (9 - width) = nanos)
      : fraction ('.' :: digits width n ++ ['Z']) = .ok (nanos, ['Z']) :=
    value ▸ fraction_digits some most small
  unfold fractionText
  split
  next zero => rw [zero]; rfl
  split
  next => exact exact' (by decide) (by decide) (by omega) (by omega)
  split
  next => exact exact' (by decide) (by decide) (by omega) (by omega)
  next => exact exact' (by decide) (by decide) small (by omega)

theorem offset_zulu : offset ['Z'] = .ok (0, []) := by
  rfl

-----------------------------------------------------------------------------------------
-- Whole texts
-----------------------------------------------------------------------------------------

/-- The text of the moment names it: its year has four digits, and only the last second of a
minute is prolonged.
-/
structure Regular (t : Timestamp) : Prop where
  low : 0 ≤ t.date.year
  high : t.date.year ≤ 9999
  leap : t.nanos < 1000000000 ∨ t.second % 60 = 59

/-- The moment within the same second whose nanoseconds are others. -/
def withNanos (t : Timestamp) (nanos : Nat) (small : nanos < 1000000000) : Timestamp where
  date := t.date
  second := t.second
  nanos := t.nanos / 1000000000 * 1000000000 + nanos
  second_lt := t.second_lt
  nanos_lt := by have := t.nanos_lt; omega

/-- Without an offset, a moment stays what it is. -/
theorem earlier?_zero (t : Timestamp) : t.earlier? 0 = some t := by
  have before : ¬ (t.second : Int) - 60 * 0 < 0 := by omega
  have within : (t.second : Int) - 60 * 0 < 86400 := by
    have := t.second_lt
    omega
  have second : ((t.second : Int) - 60 * 0).toNat = t.second := by omega
  rw [earlier?]
  simp only [before, within, second, ↓reduceIte]
  exact dif_pos ⟨t.second_lt, t.nanos_lt⟩

/-- A text with any decimals that are read is the moment with their nanoseconds. -/
theorem parse_decimals {t : Timestamp} (leap : t.nanos < 1000000000 ∨ t.second % 60 = 59)
    {decimals : List Char}
    {nanos : Nat} (small : nanos < 1000000000)
    (read : fraction (decimals ++ ['Z']) = .ok (nanos, ['Z']))
    : parse (String.ofList (dateText t.date ++ 'T' :: (t.secondText ++ decimals ++ ['Z'])))
      = .ok (t.withNanos nanos small) := by
  obtain ⟨date, second, ns, second_lt, nanos_lt⟩ := t
  obtain ⟨y, month, day, valid⟩ := date
  dsimp only at leap
  have days : day ≤ 31 := Nat.le_trans valid.2.2.2.2.2 (Date.daysInMonth_le y month)
  have year' (rest : List Char)
      : year (yearText y ++ '-' :: rest) = .ok (y, '-' :: rest) := by
    refine year_yearText valid.1 valid.2.1 ?_
    simp [isDigit]
  have dash := mark_cons (show Text.isBlank '-' = false by decide)
  have colon := mark_cons (show Text.isBlank ':' = false by decide)
  have month' := bounded_digits valid.2.2.1 valid.2.2.2.1 (by decide)
  have day' := bounded_digits valid.2.2.2.2.1 days (by decide)
  have hour := bounded_digits (Nat.zero_le (second / 3600))
    (show second / 3600 ≤ 23 by omega) (by decide)
  have minute := bounded_digits (Nat.zero_le (second / 60 % 60))
    (show second / 60 % 60 ≤ 59 by omega) (by decide)
  have seconds := bounded_digits (Nat.zero_le (second % 60 + ns / 1000000000))
    (show second % 60 + ns / 1000000000 ≤ 60 by omega) (by decide)
  unfold parse
  rw [String.toList_ofList]
  simp only [dateText, secondText, minuteText, List.append_assoc, List.cons_append,
    year', bind, Except.bind, dash, month', day', true_or, or_true, ↓reduceIte,
    hour, colon, minute, seconds]
  have blank : Text.trimStart ['Z'] = ['Z'] := by decide
  have whole : second / 3600 * 3600 + second / 60 % 60 * 60
      + min (second % 60 + ns / 1000000000) 59 = second := by omega
  have parts : nanos + (if second % 60 + ns / 1000000000 = 60 then 1000000000 else 0)
      = ns / 1000000000 * 1000000000 + nanos := by
    split <;> omega
  have fits : ns / 1000000000 * 1000000000 + nanos < 2000000000 := by omega
  simp only [read, blank, offset_zulu, whole, parts, Date.of?, valid, of?, second_lt, fits,
    ↓reduceDIte, and_self, Option.bind_some, earlier?_zero]
  rfl

/-- The moment that the text of a moment names. A leap second that ends no minute is written as
the second after it.
-/
def readBack (t : Timestamp) : Timestamp :=
  if leap : t.nanos < 1000000000 ∨ t.second % 60 = 59 then t
  else
    { t with
      second := t.second + 1
      nanos := t.nanos - 1000000000
      second_lt := by have := t.second_lt; omega
      nanos_lt := by have := t.nanos_lt; omega }

theorem Regular.readBack_eq {t : Timestamp} (regular : t.Regular) : t.readBack = t :=
  dif_pos regular.leap

theorem leap_readBack (t : Timestamp)
    : t.readBack.nanos < 1000000000 ∨ t.readBack.second % 60 = 59 := by
  have := t.nanos_lt
  unfold readBack
  split
  next leap => exact leap
  next => exact .inl (by dsimp only; omega)

theorem text_readBack (t : Timestamp) : t.readBack.text = t.text := by
  unfold readBack
  split
  next => rfl
  next leap =>
    have := t.nanos_lt
    have hour : (t.second + 1) / 3600 = t.second / 3600 := by omega
    have minute : (t.second + 1) / 60 % 60 = t.second / 60 % 60 := by omega
    have second : (t.second + 1) % 60 + (t.nanos - 1000000000) / 1000000000
        = t.second % 60 + t.nanos / 1000000000 := by omega
    have fraction : (t.nanos - 1000000000) % 1000000000 = t.nanos % 1000000000 := by omega
    simp only [text, secondText, minuteText, hour, minute, second, fraction]

/-- Every moment has a text that is read. -/
theorem parse_text (t : Timestamp) : parse t.text = .ok t.readBack := by
  rw [← text_readBack]
  generalize t.readBack = t, t.leap_readBack = leap
  have small : t.nanos % 1000000000 < 1000000000 := Nat.mod_lt _ (by decide)
  have same : t.withNanos (t.nanos % 1000000000) small = t := by
    obtain ⟨date, second, nanos, _, _⟩ := t
    have whole : nanos / 1000000000 * 1000000000 + nanos % 1000000000 = nanos := by omega
    simp only [withNanos, whole]
  rw [text, parse_decimals leap small (fraction_fractionText small), same]

/-- The text of a store is read to the microsecond. -/
theorem parse_microsText {t : Timestamp} (regular : t.Regular)
    : parse t.microsText = .ok t.toMicros := by
  have few : t.nanos % 1000000000 / 1000 < 10 ^ 6 := by omega
  have small : t.nanos % 1000000000 / 1000 * 1000 < 1000000000 := by omega
  have read := parse_decimals regular.leap small (fraction_digits (by decide) (by decide) few)
  have same : t.withNanos (t.nanos % 1000000000 / 1000 * 1000) small = t.toMicros := by
    obtain ⟨date, second, nanos, _, _⟩ := t
    have whole : nanos / 1000000000 * 1000000000 + nanos % 1000000000 / 1000 * 1000
        = nanos - nanos % 1000 := by omega
    simp only [withNanos, toMicros, whole]
  rw [same] at read
  rw [← read, microsText]
  simp only [List.append_assoc, List.cons_append]

theorem regular_toMicros {t : Timestamp} (regular : t.Regular) : t.toMicros.Regular := by
  obtain ⟨low, high, leap⟩ := regular
  refine ⟨low, high, ?_⟩
  simp only [toMicros]
  omega

theorem toMicros_toMicros (t : Timestamp) : t.toMicros.toMicros = t.toMicros := by
  have whole : t.nanos - t.nanos % 1000 - (t.nanos - t.nanos % 1000) % 1000
      = t.nanos - t.nanos % 1000 := by omega
  simp only [toMicros, whole]

end Timestamp

end Screener
