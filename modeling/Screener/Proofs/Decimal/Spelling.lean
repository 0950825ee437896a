import Screener.Decimal.Integer
import Screener.Decimal.Literal
import Screener.Proofs.Binary64.Nearest

/-!
Numbers as texts spell them: a sign or none, digits, and perhaps a point with digits behind it.
Whole numbers of 64 bits are read from just such texts without a point; a text with one is a
literal, whose value is the closest to the decimal that it spells.
-/

namespace Screener.Decimal

open Binary64

-- Unification must not try to evaluate magnitudes.
attribute [local irreducible] ofDecimal

-----------------------------------------------------------------------------------------
-- Signs and digits
-----------------------------------------------------------------------------------------

/-- What stands in front of the digits of a number. -/
inductive Sign where
  | none
  | plus
  | minus
deriving DecidableEq, Repr

namespace Sign

def chars : Sign → List Char
  | none => []
  | plus => ['+']
  | minus => ['-']

def isNegative : Sign → Bool
  | none | plus => false
  | minus => true

/-- The whole number with a magnitude under the sign. -/
def apply (sign : Sign) (magnitude : Nat) : Int :=
  if sign.isNegative then -(magnitude : Int) else magnitude

end Sign

/-- A text of digits only, one at least. -/
structure AllDigits (text : List Char) : Prop where
  some : text ≠ []
  all : ∀ c ∈ text, isDigit c = true

theorem AllDigits.head {text : List Char} (digits : AllDigits text)
    : ∃ c rest, text = c :: rest ∧ isDigit c = true := by
  cases text with
  | nil => exact absurd rfl digits.some
  | cons c rest => exact ⟨c, rest, rfl, digits.all c List.mem_cons_self⟩

/-- A digit is no sign. -/
theorem ne_of_isDigit {c : Char} (digit : isDigit c = true) : c ≠ '+' ∧ c ≠ '-' := by
  constructor
  · rintro rfl
    exact absurd digit (by decide)
  · rintro rfl
    exact absurd digit (by decide)

/-- A sign is told apart from the digit behind it. -/
theorem Sign.unique {sign other : Sign} {c d : Char} {rest after : List Char}
    (left : isDigit c = true) (right : isDigit d = true)
    (same : sign.chars ++ c :: rest = other.chars ++ d :: after)
    : sign = other ∧ c :: rest = d :: after := by
  cases sign with
  | none =>
      cases other with
      | none => exact ⟨rfl, same⟩
      | plus => exact absurd (List.cons.inj same).1 (ne_of_isDigit left).1
      | minus => exact absurd (List.cons.inj same).1 (ne_of_isDigit left).2
  | plus =>
      cases other with
      | none => exact absurd (List.cons.inj same).1.symm (ne_of_isDigit right).1
      | plus => exact ⟨rfl, (List.cons.inj same).2⟩
      | minus => exact absurd (List.cons.inj same).1 (by decide)
  | minus =>
      cases other with
      | none => exact absurd (List.cons.inj same).1.symm (ne_of_isDigit right).2
      | plus => exact absurd (List.cons.inj same).1 (by decide)
      | minus => exact ⟨rfl, (List.cons.inj same).2⟩

theorem digits?_eq_some_iff {text : List Char} {n : Nat}
    : digits? text = some n ↔ AllDigits text ∧ digitsValue text = n := by
  unfold digits?
  by_cases none : text = []
  · subst none
    exact iff_of_false nofun fun both => both.1.some rfl
  by_cases all : ∀ c ∈ text, isDigit c = true
  · have holds : (text.isEmpty || !text.all isDigit) = false := by simpa [none] using all
    rw [holds]
    simp only [Bool.false_eq_true, ↓reduceIte, Option.some.injEq]
    exact ⟨fun same => ⟨⟨none, all⟩, same⟩, fun both => both.2⟩
  · have fails : (text.isEmpty || !text.all isDigit) = true := by simpa [none] using all
    rw [if_pos fails]
    exact iff_of_false nofun fun both => all both.1.all

-----------------------------------------------------------------------------------------
-- Whole numbers
-----------------------------------------------------------------------------------------

/-- The text spells the whole number. -/
def SpellsInteger (text : List Char) (n : Int) : Prop :=
  ∃ sign digits,
    text = Sign.chars sign ++ digits ∧ AllDigits digits ∧ n = sign.apply (digitsValue digits)

/-- The whole numbers of 64 bits. -/
def FitsInteger (n : Int) : Prop := -9223372036854775808 ≤ n ∧ n ≤ 9223372036854775807

instance (n : Int) : Decidable (FitsInteger n) := by
  unfold FitsInteger; infer_instance

theorem fitsInteger_iff (n : Int)
    : Int64.minValue.toInt ≤ n ∧ n ≤ Int64.maxValue.toInt ↔ FitsInteger n := by
  have least : Int64.minValue.toInt = -9223372036854775808 := by decide
  have most : Int64.maxValue.toInt = 9223372036854775807 := by decide
  rw [least, most, FitsInteger]

/-- Digits behind a sign are read as the number that they spell, if 64 bits hold it. -/
theorem integer64?_append {sign : Sign} {digits : List Char} (valid : AllDigits digits)
    : integer64? (sign.chars ++ digits)
      = if FitsInteger (sign.apply (digitsValue digits))
        then some (sign.apply (digitsValue digits)) else none := by
  have read : digits? digits = some (digitsValue digits) := digits?_eq_some_iff.2 ⟨valid, rfl⟩
  unfold integer64?
  simp only [fitsInteger_iff]
  cases sign with
  | plus | minus => simp [Sign.chars, Sign.apply, Sign.isNegative, read]
  | none =>
      obtain ⟨c, rest, rfl, first⟩ := valid.head
      rw [Sign.chars, List.nil_append]
      split
      next same => exact absurd (List.cons.inj same).1 (ne_of_isDigit first).2
      next same => exact absurd (List.cons.inj same).1 (ne_of_isDigit first).1
      next => simp [Sign.apply, Sign.isNegative, read]

/-- Where a whole number is read there are digits, behind a sign or none. -/
theorem exists_digits_of_integer64? {text : List Char} {n : Int}
    (read : integer64? text = some n)
    : ∃ sign digits, text = Sign.chars sign ++ digits ∧ AllDigits digits := by
  have valid {digits : List Char} (found : digits? digits ≠ none) : AllDigits digits := by
    obtain ⟨magnitude, found⟩ := Option.ne_none_iff_exists'.1 found
    exact (digits?_eq_some_iff.1 found).1
  obtain ⟨m, found, _⟩ := Option.bind_eq_some_iff.1 read
  split at found
  next digits => exact ⟨.minus, digits, rfl, valid fun none => by simp [none] at found⟩
  next digits => exact ⟨.plus, digits, rfl, valid fun none => by simp [none] at found⟩
  next => exact ⟨.none, text, rfl, valid fun none => by simp [none] at found⟩

/-- A whole number is read from a text just if the text spells it and 64 bits hold it. -/
theorem integer64?_eq_some_iff {text : List Char} {n : Int}
    : integer64? text = some n ↔ SpellsInteger text n ∧ FitsInteger n := by
  constructor
  · intro read
    obtain ⟨sign, digits, rfl, valid⟩ := exists_digits_of_integer64? read
    rw [integer64?_append valid] at read
    split at read
    next fits =>
      obtain rfl := Option.some.inj read
      exact ⟨⟨sign, digits, rfl, valid, rfl⟩, fits⟩
    next => contradiction
  · rintro ⟨⟨sign, digits, rfl, valid, rfl⟩, fits⟩
    rw [integer64?_append valid, if_pos fits]

-----------------------------------------------------------------------------------------
-- Decimals
-----------------------------------------------------------------------------------------

/-- A decimal as texts spell it: a sign or none, digits, and perhaps a point with more digits
behind it.
-/
structure Numeral where
  sign : Sign
  whole : List Char
  fraction : List Char
  wholeDigits : AllDigits whole
  fractionDigits : ∀ c ∈ fraction, isDigit c = true

namespace Numeral

/-- The numeral as it is written. -/
def chars (n : Numeral) : List Char := n.sign.chars ++ pointed n.whole n.fraction

/-- The number that all digits make together. -/
def digits (n : Numeral) : Nat := digitsValue (n.whole ++ n.fraction)

def value (n : Numeral) : Binary64 :=
  ofDecimal n.sign.isNegative n.digits (-(n.fraction.length : Int))

theorem spells (n : Numeral) : Spells n.sign.isNegative n.whole n.fraction n.value :=
  ⟨n.wholeDigits.some, n.wholeDigits.all, n.fractionDigits, rfl⟩

/-- A numeral starts with a digit behind its sign. -/
theorem exists_head (n : Numeral)
    : ∃ c rest, pointed n.whole n.fraction = c :: rest ∧ isDigit c = true := by
  obtain ⟨c, rest, whole, digit⟩ := n.wholeDigits.head
  exact ⟨c, rest ++ _, by rw [pointed, whole, List.cons_append], digit⟩

theorem unsignedLiteral_pointed (n : Numeral)
    : unsignedLiteral (pointed n.whole n.fraction)
      = some (n.digits, -(n.fraction.length : Int)) := by
  have filled := n.wholeDigits.some
  have stop : ∀ c ∈ ([] : List Char).head?, isDigit c = false := by simp
  have fraction := spanDigits_append n.fractionDigits stop
  unfold unsignedLiteral pointed
  by_cases none : n.fraction = []
  · have whole := spanDigits_append n.wholeDigits.all stop
    rw [List.append_nil] at whole
    simp [none, whole, filled, literalExponent, digits]
  · have point : ∀ c ∈ ('.' :: n.fraction).head?, isDigit c = false := by
      simp [isDigit]
    rw [List.append_nil] at fraction
    rw [if_neg none, spanDigits_append n.wholeDigits.all point]
    simp [fraction, filled, literalExponent, digits]

/-- A numeral is a literal of its value. -/
theorem literal_chars (n : Numeral) : literal n.chars = .ok n.value := by
  have read := n.unsignedLiteral_pointed
  obtain ⟨c, rest, front, first⟩ := n.exists_head
  unfold literal chars
  rw [front] at read ⊢
  cases sign : n.sign with
  | plus | minus => simp [Sign.chars, read, value, sign, Sign.isNegative]
  | none =>
      rw [Sign.chars, List.nil_append]
      have other := ne_of_isDigit first
      simp [read, value, sign, Sign.isNegative, other]

/-- The plain text of a finite value is a numeral of it. -/
theorem exists_of_plain (negative : Bool) {units : Nat} (h : Representable units)
    : ∃ n : Numeral, (plain (finite negative units h)).toList = n.chars
      ∧ n.value = finite negative units h := by
  obtain ⟨whole, fraction, spells, text⟩ := spells_plain negative h
  refine ⟨⟨if negative then .minus else .none, whole, fraction, ⟨spells.some, spells.wholeDigits⟩,
    spells.fractionDigits⟩, ?_, ?_⟩
  · rw [text]
    cases negative <;> rfl
  · refine Eq.trans ?_ spells.value
    cases negative <;> rfl

theorem closest_value (n : Numeral)
    : Closest n.sign.isNegative (n.digits * one) (10 ^ n.fraction.length) n.value := by
  have closest := closest_ofDecimal n.sign.isNegative n.digits (-(n.fraction.length : Int))
  have whole : (-(n.fraction.length : Int)).toNat = 0 := by omega
  have places : (-(-(n.fraction.length : Int))).toNat = n.fraction.length := by omega
  rwa [whole, places, Nat.pow_zero, Nat.mul_one] at closest

theorem isFinite_value_iff (n : Numeral)
    : n.value.isFinite = true ↔ n.digits < brink * 10 ^ n.fraction.length := by
  have finite := isFinite_ofDecimal_iff n.sign.isNegative n.digits (-(n.fraction.length : Int))
  have whole : (-(n.fraction.length : Int)).toNat = 0 := by omega
  have places : (-(-(n.fraction.length : Int))).toNat = n.fraction.length := by omega
  rwa [whole, places, Nat.pow_zero, Nat.mul_one] at finite

/-- The text goes on with nothing that belongs to the numeral: no digit, and behind a numeral
without a point no point with a digit.
-/
structure Stops (n : Numeral) (rest : List Char) : Prop where
  digit : ∀ c ∈ rest.head?, isDigit c = false
  point : n.fraction = [] → ∀ c after, rest = '.' :: c :: after → isDigit c = false

/-- The digits before the point are all that the text starts with. -/
theorem Stops.takeWhile_eq {n : Numeral} {rest : List Char} (stops : n.Stops rest)
    : (pointed n.whole n.fraction ++ rest).takeWhile isDigit = n.whole := by
  have next : ∀ c ∈ ((if n.fraction = [] then [] else '.' :: n.fraction) ++ rest).head?,
      isDigit c = false := by
    split
    · simpa using stops.digit
    · simp [isDigit]
  rw [pointed, List.append_assoc]
  exact congrArg Prod.fst (spanDigits_append n.wholeDigits.all next)

/-- Where a numeral stops no other one that starts there is longer. The digits before the point
are all there are. If the other has a point behind the same digits, so has this one, and its
digits behind the point are all there are.
-/
theorem Stops.length_pointed_le {n m : Numeral} {rest after : List Char} (stops : n.Stops rest)
    (same : pointed n.whole n.fraction ++ rest = pointed m.whole m.fraction ++ after)
    : (pointed m.whole m.fraction).length ≤ (pointed n.whole n.fraction).length := by
  have taken := stops.takeWhile_eq
  rw [same, pointed, List.append_assoc, List.takeWhile_append_of_pos m.wholeDigits.all] at taken
  by_cases other : m.fraction = []
  · have shorter := congrArg List.length taken
    simp only [pointed, other, ↓reduceIte, List.append_nil, List.length_append] at shorter ⊢
    omega
  obtain ⟨c, places, some⟩ := List.exists_cons_of_ne_nil other
  have more := m.fractionDigits c (by simp [some])
  have whole : m.whole = n.whole := by simpa [other, isDigit] using taken
  simp only [pointed, other, ↓reduceIte, whole, List.append_assoc, List.append_cancel_left_eq,
    List.cons_append] at same ⊢
  by_cases none : n.fraction = []
  · rw [if_pos none, List.nil_append, some, List.cons_append] at same
    exact absurd more (by simp [stops.point none c _ same])
  · rw [if_neg none, List.cons_append, List.cons.injEq] at same
    have all := congrArg Prod.fst (spanDigits_append n.fractionDigits stops.digit)
    have shorter : (m.fraction ++ after.takeWhile isDigit).length = n.fraction.length := by
      rw [← List.takeWhile_append_of_pos m.fractionDigits, ← same.2]
      exact congrArg List.length all
    simp only [none, ↓reduceIte, List.length_append, List.length_cons] at shorter ⊢
    omega

/-- Where a numeral stops no other one that starts there is longer. -/
theorem Stops.longest {n m : Numeral} {rest after : List Char} (stops : n.Stops rest)
    (same : n.chars ++ rest = m.chars ++ after)
    : m.chars.length ≤ n.chars.length := by
  obtain ⟨c, front, start, first⟩ := n.exists_head
  obtain ⟨d, back, begin, second⟩ := m.exists_head
  unfold chars at same ⊢
  rw [List.append_assoc, List.append_assoc, start, begin, List.cons_append,
    List.cons_append] at same
  obtain ⟨signs, bodies⟩ := Sign.unique first second same
  rw [← List.cons_append, ← List.cons_append, ← start, ← begin] at bodies
  rw [signs, List.length_append, List.length_append]
  exact Nat.add_le_add_left (stops.length_pointed_le bodies) _

end Numeral

/-- The plain text of every value is a literal of it, of the values without digits too. -/
theorem literal_plain (v : Binary64) : literal (plain v).toList = .ok v := by
  cases v with
  | nan => rfl
  | infinite negative => cases negative <;> rfl
  | finite negative units h =>
      obtain ⟨n, text, value⟩ := Numeral.exists_of_plain negative h
      rw [text, n.literal_chars, value]

end Screener.Decimal
