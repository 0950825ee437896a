import Screener.Json.Reading
import Screener.Proofs.Decimal.ReadBack

/-!
Numbers of documents are read back as they were written. A written number is a numeral, in
which sign, digits, fraction and exponent can be told apart; a whole number and a float give
different numerals.
-/

namespace Screener

open Decimal

-----------------------------------------------------------------------------------------
-- Leading digits
-----------------------------------------------------------------------------------------

/-- Significant digits do not start with a zero. -/
theorem Decimal.significant_head (tie : Tie) {units : Nat} (h : Representable units)
    (some : units ≠ 0)
    : ∃ c digits, (significant tie units).1 = c :: digits ∧ c ≠ '0' := by
  have left : (significant tie units).1 ≠ [] := significant_ne_nil h some
  unfold significant stripped at left ⊢
  dsimp only at left ⊢
  generalize (shortest tie units).1 = value at left ⊢
  have whole := kept_append_zeros (natural value)
  rcases Nat.eq_zero_or_pos value with rfl | positive
  · exact absurd rfl left
  · obtain ⟨c, digits, front, other⟩ := natural_head positive
    cases kept : ((natural value).reverse.dropWhile (· == '0')).reverse with
    | nil => exact absurd kept left
    | cons d others =>
        rw [kept, front] at whole
        obtain ⟨rfl, _⟩ := List.cons.inj whole
        exact ⟨d, others, rfl, other⟩

namespace Json

-----------------------------------------------------------------------------------------
-- Numerals
-----------------------------------------------------------------------------------------

/-- Nothing that a number could go on with follows. -/
def Stops (rest : List Char) : Prop :=
  ∀ c ∈ rest.head?, isDigit c = false ∧ c ≠ '.' ∧ c ≠ 'e' ∧ c ≠ 'E'

/-- The exponent of a number as it is written, with a sign always. -/
def exponentText (e : Int) : List Char :=
  'e' :: ((if e < 0 then [] else ['+']) ++ (toString e).toList)

/-- An integer is written as its digits, behind a minus if it is below zero. -/
theorem toList_toString (n : Int)
    : (toString n).toList = sign (decide (n < 0)) ++ natural n.natAbs := by
  rw [Int.toString_eq_repr, Int.repr_eq_if]
  unfold natural sign
  by_cases below : n < 0
  · have magnitude : (-n).toNat = n.natAbs := by omega
    simp [below, Int.not_le.2 below, Nat.toList_repr, magnitude]
  · have magnitude : n.toNat = n.natAbs := by omega
    simp [below, Int.not_lt.1 below, Nat.toList_repr, magnitude]

namespace Numeral

/-- The numeral as it is written. -/
def chars (n : Numeral) : List Char :=
  sign n.negative ++ (n.whole ++ ((n.fraction.map ('.' :: ·)).getD []
    ++ (n.exponent.map exponentText).getD []))

/-- The numeral can be written: it has digits, and more digits behind a point. Only a zero that
stands alone comes first.
-/
structure Proper (n : Numeral) : Prop where
  leads : n.whole = ['0'] ∨ ∃ c digits, n.whole = c :: digits ∧ c ≠ '0'
  wholeDigits : ∀ c ∈ n.whole, isDigit c = true
  fractionDigits : ∀ f, n.fraction = some f → f ≠ [] ∧ ∀ c ∈ f, isDigit c = true

end Numeral

theorem wholePart_append {whole rest : List Char}
    (leads : whole = ['0'] ∨ ∃ c digits, whole = c :: digits ∧ c ≠ '0')
    (all : ∀ c ∈ whole, isDigit c = true) (next : ∀ c ∈ rest.head?, isDigit c = false)
    : wholePart (whole ++ rest) = .ok (whole, rest) := by
  rcases leads with rfl | ⟨c, digits, rfl, other⟩
  · cases rest with
    | nil => rfl
    | cons c rest => simp [wholePart, next c rfl]
  · have first := all c List.mem_cons_self
    have span := spanDigits_append all next
    rw [List.cons_append] at span ⊢
    rw [wholePart.eq_def]
    simp [first, span]

theorem fractionPart_some {fraction rest : List Char} (some : fraction ≠ [])
    (all : ∀ c ∈ fraction, isDigit c = true) (next : ∀ c ∈ rest.head?, isDigit c = false)
    : fractionPart ('.' :: (fraction ++ rest)) = .ok (fraction, rest) := by
  rw [fractionPart, spanDigits_append all next]
  cases fraction with
  | nil => contradiction
  | cons c fraction => rfl

theorem fractionPart_none {rest : List Char} (next : ∀ c ∈ rest.head?, c ≠ '.')
    : fractionPart rest = .ok (none, rest) := by
  cases rest with
  | nil => rfl
  | cons c rest =>
      have other := next c rfl
      simp [fractionPart, other]

theorem exponentPart_none {rest : List Char} (next : ∀ c ∈ rest.head?, c ≠ 'e' ∧ c ≠ 'E')
    : exponentPart rest = .ok (none, rest) := by
  cases rest with
  | nil => rfl
  | cons c rest =>
      obtain ⟨small, large⟩ := next c rfl
      simp [exponentPart, small, large]

/-- The signs that may stand before the digits of an exponent, and what they say. -/
def powerSigns : List (List Char × Bool) := [([], false), (['+'], false), (['-'], true)]

/-- The text of an exponent: a mark in either case, maybe a sign, and digits. -/
inductive Powers : Option Int → List Char → Prop
  | none : Powers none []
  | some {mark : Char} {sign digits : List Char} {negative : Bool}
    (marked : mark = 'e' ∨ mark = 'E') (signed : (sign, negative) ∈ powerSigns)
    (some : digits ≠ []) (all : ∀ c ∈ digits, isDigit c = true)
    : Powers (.some (if negative then -(digitsValue digits : Int) else digitsValue digits))
        (mark :: (sign ++ digits))

/-- The digits of an exponent behind its sign. -/
def powerDigits (negative : Bool) (text : List Char) : Except Malformed (Int × List Char) :=
  match spanDigits text with
  | ([], []) => .error .endInValue
  | ([], _ :: _) => .error .invalidNumber
  | (digits, rest) =>
    .ok (if negative then -(digitsValue digits : Int) else digitsValue digits, rest)

theorem exponentDigits_plain {text : List Char} (next : ∀ c ∈ text.head?, c ≠ '-' ∧ c ≠ '+')
    : exponentDigits text = powerDigits false text := by
  unfold exponentDigits
  split
  next negative text' same =>
    split at same
    next => exact absurd rfl (next '-' rfl).1
    next => exact absurd rfl (next '+' rfl).2
    next =>
      obtain ⟨rfl, rfl⟩ := Prod.mk.inj same
      rfl

theorem exponentDigits_sign {sign text : List Char} {negative : Bool}
    (signed : (sign, negative) ∈ powerSigns) (next : ∀ c ∈ text.head?, c ≠ '-' ∧ c ≠ '+')
    : exponentDigits (sign ++ text) = powerDigits negative text := by
  simp only [powerSigns, List.mem_cons, Prod.mk.injEq, List.not_mem_nil, or_false] at signed
  rcases signed with ⟨rfl, rfl⟩ | ⟨rfl, rfl⟩ | ⟨rfl, rfl⟩
  · exact exponentDigits_plain next
  · rfl
  · rfl

theorem exponentDigits_append {sign digits : List Char} {negative : Bool}
    (signed : (sign, negative) ∈ powerSigns) (some : digits ≠ [])
    (all : ∀ c ∈ digits, isDigit c = true) {rest : List Char}
    (next : ∀ c ∈ rest.head?, isDigit c = false)
    : exponentDigits (sign ++ digits ++ rest)
      = .ok (if negative then -(digitsValue digits : Int) else digitsValue digits, rest) := by
  cases digits with
  | nil => contradiction
  | cons d digits =>
      have front : ∀ c ∈ (d :: digits ++ rest).head?, c ≠ '-' ∧ c ≠ '+' := by
        intro c head
        obtain rfl := Option.some.inj head
        have digit := all d List.mem_cons_self
        constructor <;> (rintro rfl; contradiction)
      rw [List.append_assoc, exponentDigits_sign signed front, powerDigits,
        spanDigits_append all next]

/-- The text of an exponent, which may be absent, is read back. -/
theorem exponentPart_append {exponent : Option Int} {power : List Char}
    (powers : Powers exponent power) {rest : List Char} (stops : Stops rest)
    : exponentPart (power ++ rest) = .ok (exponent, rest) := by
  cases powers with
  | none => exact exponentPart_none fun c head => (stops c head).2.2
  | some marked signed some all =>
      have read := exponentDigits_append signed some all fun c head => (stops c head).1
      rw [List.cons_append, exponentPart, if_pos marked, read]
      rfl

theorem power_head {exponent : Option Int} {power : List Char} (powers : Powers exponent power)
    {rest : List Char} (stops : Stops rest)
    : ∀ c ∈ (power ++ rest).head?, isDigit c = false ∧ c ≠ '.' := by
  intro c head
  cases powers with
  | none => exact ⟨(stops c head).1, (stops c head).2.1⟩
  | some marked _ _ _ =>
      obtain rfl := Option.some.inj head
      rcases marked with rfl | rfl <;> decide

/-- An exponent is written with a sign always. -/
theorem powers_exponentText (exponent : Option Int)
    : Powers exponent ((exponent.map exponentText).getD []) := by
  cases exponent with
  | none => exact .none
  | some e =>
      have all : ∀ c ∈ natural e.natAbs, isDigit c = true := fun _ member =>
        isDigit_of_mem_natural member
      by_cases below : e < 0
      · have magnitude : -(e.natAbs : Int) = e := by omega
        have text : exponentText e = 'e' :: (['-'] ++ natural e.natAbs) := by
          rw [exponentText, if_pos below, toList_toString, decide_eq_true below]
          rfl
        have powers : Powers _ ('e' :: (['-'] ++ natural e.natAbs)) :=
          .some (.inl rfl) (show (['-'], true) ∈ powerSigns by simp [powerSigns])
            (natural_ne_nil _) all
        rw [digitsValue_natural, if_pos rfl, magnitude, ← text] at powers
        exact powers
      · have magnitude : (e.natAbs : Int) = e := by omega
        have text : exponentText e = 'e' :: (['+'] ++ natural e.natAbs) := by
          rw [exponentText, if_neg below, toList_toString, decide_eq_false below]
          rfl
        have powers : Powers _ ('e' :: (['+'] ++ natural e.natAbs)) :=
          .some (.inl rfl) (show (['+'], false) ∈ powerSigns by simp [powerSigns])
            (natural_ne_nil _) all
        rw [digitsValue_natural, if_neg (by decide), magnitude, ← text] at powers
        exact powers

/-- The text of a fraction, which may be absent, is read back. -/
theorem fractionPart_append {fraction : Option (List Char)}
    (digits : ∀ f, fraction = some f → f ≠ [] ∧ ∀ c ∈ f, isDigit c = true) {rest : List Char}
    (next : ∀ c ∈ rest.head?, isDigit c = false ∧ c ≠ '.')
    : fractionPart ((fraction.map ('.' :: ·)).getD [] ++ rest) = .ok (fraction, rest) := by
  cases fraction with
  | none => exact fractionPart_none fun c head => (next c head).2
  | some f =>
      obtain ⟨some, all⟩ := digits f rfl
      exact fractionPart_some some all fun c head => (next c head).1

theorem fraction_head (fraction : Option (List Char)) {rest : List Char}
    (next : ∀ c ∈ rest.head?, isDigit c = false ∧ c ≠ '.')
    : ∀ c ∈ ((fraction.map ('.' :: ·)).getD [] ++ rest).head?, isDigit c = false := by
  intro c head
  cases fraction with
  | none => exact (next c head).1
  | some f =>
      obtain rfl : '.' = c := Option.some.inj head
      decide

/-- A numeral behind its sign. -/
def unsignedNumeral (negative : Bool) (text : List Char)
    : Except Malformed (Numeral × List Char) :=
  wholePart text >>= fun whole =>
  fractionPart whole.2 >>= fun fraction =>
  exponentPart fraction.2 >>= fun exponent =>
  .ok (⟨negative, whole.1, fraction.1, exponent.1⟩, exponent.2)

/-- A minus is read as the sign, and what starts with another character has none. -/
theorem numeral_sign (negative : Bool) {text : List Char} (next : ∀ c ∈ text.head?, c ≠ '-')
    : numeral (sign negative ++ text) = unsignedNumeral negative text := by
  cases negative with
  | true => rfl
  | false =>
      rw [sign, if_neg (by decide), List.nil_append]
      unfold numeral
      split
      next negative text' same =>
        split at same
        next rest => exact absurd rfl (next '-' rfl)
        next =>
          obtain ⟨rfl, rfl⟩ := Prod.mk.inj same
          rfl

/-- The numeral with a given text for its exponent. -/
def Numeral.withPower (n : Numeral) (power : List Char) : List Char :=
  sign n.negative ++ (n.whole ++ ((n.fraction.map ('.' :: ·)).getD [] ++ power))

/-- A written numeral is read, up to where it stops. -/
theorem numeral_withPower {n : Numeral} (proper : n.Proper) {power : List Char}
    (powers : Powers n.exponent power) {rest : List Char} (stops : Stops rest)
    : numeral (n.withPower power ++ rest) = .ok (n, rest) := by
  obtain ⟨negative, whole, fraction, exponent⟩ := n
  obtain ⟨leads, wholeDigits, fractionDigits⟩ := proper
  dsimp only at leads wholeDigits fractionDigits powers
  -- The parts are read from the last to the first, each up to the start of the next.
  have last := exponentPart_append powers stops
  have marked := power_head powers stops
  have middle := fractionPart_append fractionDigits marked
  have pointed := fraction_head fraction marked
  have first := wholePart_append leads wholeDigits pointed
  have digit : ∀ c ∈ (whole ++ ((fraction.map ('.' :: ·)).getD []
      ++ (power ++ rest))).head?, c ≠ '-' := by
    rintro c head rfl
    rcases leads with rfl | ⟨d, digits, rfl, _⟩
    · exact absurd (Option.some.inj head) (by decide)
    · obtain rfl : d = '-' := Option.some.inj head
      exact absurd (wholeDigits '-' List.mem_cons_self) (by decide)
  simp only [Numeral.withPower, List.append_assoc]
  rw [numeral_sign negative digit, unsignedNumeral, first]
  simp only [bind, Except.bind, middle, last]

/-- A numeral is read back from the text that is written for it. -/
theorem numeral_chars {n : Numeral} (proper : n.Proper) {rest : List Char}
    (stops : Stops rest)
    : numeral (n.chars ++ rest) = .ok (n, rest) :=
  numeral_withPower proper (powers_exponentText n.exponent) stops

-----------------------------------------------------------------------------------------
-- Numbers
-----------------------------------------------------------------------------------------

/-- The number has a numeral: 64 bits hold a whole number, and a float is finite. -/
def Number.Fits : Number → Prop
  | .integer n => Int64.minValue.toInt ≤ n ∧ n < UInt64.size
  | .float v => v.isFinite = true

theorem leads_natural (n : Nat)
    : natural n = ['0'] ∨ ∃ c digits, natural n = c :: digits ∧ c ≠ '0' := by
  rcases Nat.eq_zero_or_pos n with rfl | positive
  · exact .inl rfl
  · exact .inr (natural_head positive)

theorem exists_numeral_integer {n : Int} (low : Int64.minValue.toInt ≤ n)
    (high : n < UInt64.size)
    : ∃ numeral : Numeral, numeral.Proper ∧ (toString n).toList = numeral.chars
      ∧ numeral.number = .integer n := by
  refine ⟨⟨decide (n < 0), natural n.natAbs, none, none⟩, ⟨leads_natural _, ?_, ?_⟩, ?_, ?_⟩
  · exact fun c member => isDigit_of_mem_natural member
  · intro f same
    contradiction
  · rw [toList_toString]
    simp [Numeral.chars]
  · simp only [Numeral.number, digitsValue_natural]
    by_cases below : n < 0
    · have magnitude : -(n.natAbs : Int) = n := by omega
      rw [decide_eq_true below, if_pos rfl, if_pos ⟨by omega, by rwa [magnitude]⟩, magnitude]
    · have magnitude : (n.natAbs : Int) = n := by omega
      rw [decide_eq_false below, if_neg (by decide), if_pos (by omega), magnitude]

-- Unification must not try to evaluate magnitudes.
attribute [local irreducible] Binary64.ofDecimal

/-- Below one, digits without an exponent stand behind `0.`, or have a point among them. -/
theorem positional_head {c : Char} {digits : List Char} {exponent : Int}
    (below : exponent < 0)
    : '.' ∈ positional (c :: digits) exponent
      ∧ ((∃ rest, positional (c :: digits) exponent = '0' :: '.' :: rest)
        ∨ ∃ rest, positional (c :: digits) exponent = c :: rest) := by
  unfold positional
  rw [if_neg (Int.not_le.2 below)]
  dsimp only
  split
  next inside =>
    refine ⟨by simp, .inr ?_⟩
    obtain ⟨count, first⟩ : ∃ count, (c :: digits).length - (-exponent).toNat = count + 1 :=
      ⟨(c :: digits).length - (-exponent).toNat - 1, by omega⟩
    rw [first]
    exact ⟨_, rfl⟩
  next => exact ⟨by simp, .inl ⟨_, rfl⟩⟩

/-- Digits with a point among or before them are a numeral with a fraction. -/
theorem exists_numeral_positional (negative : Bool) {c : Char} {digits : List Char}
    {exponent : Int} (below : exponent < 0) (other : c ≠ '0')
    (all : ∀ d ∈ c :: digits, isDigit d = true)
    : ∃ numeral : Numeral, numeral.Proper
      ∧ sign negative ++ positional (c :: digits) exponent = numeral.chars
      ∧ numeral.number
        = .float (Binary64.ofDecimal negative (digitsValue (c :: digits)) exponent) := by
  obtain ⟨whole, fraction, spells, text⟩ :=
    spells_positional negative exponent (List.cons_ne_nil c digits) all
  obtain ⟨point, first⟩ := @positional_head c digits exponent below
  have some : fraction ≠ [] := by
    rintro rfl
    rw [text, pointed, if_pos rfl, List.append_nil] at point
    exact absurd (spells.wholeDigits '.' point) (by decide)
  rw [text, pointed, if_neg some] at first
  have leads : whole = ['0'] ∨ ∃ c digits, whole = c :: digits ∧ c ≠ '0' := by
    cases whole with
    | nil => exact absurd rfl spells.some
    | cons d whole =>
        rcases first with ⟨rest, same⟩ | ⟨rest, same⟩
        · obtain ⟨rfl, behind⟩ := List.cons.inj same
          cases whole with
          | nil => exact .inl rfl
          | cons e whole =>
              obtain ⟨rfl, _⟩ := List.cons.inj behind
              exact absurd (spells.wholeDigits '.' (by simp)) (by decide)
        · obtain ⟨rfl, _⟩ := List.cons.inj same
          exact .inr ⟨d, whole, rfl, other⟩
  refine ⟨⟨negative, whole, fraction, none⟩, ⟨leads, spells.wholeDigits, ?_⟩, ?_, ?_⟩
  · intro f same
    obtain rfl := Option.some.inj same
    exact ⟨some, spells.fractionDigits⟩
  · rw [text, pointed, if_neg some]
    simp [Numeral.chars]
  · rw [← spells.value]
    simp [Numeral.number, Numeral.float]

/-- A whole number with a zero behind its point is a numeral with a fraction. -/
theorem exists_numeral_whole (negative : Bool) {c : Char} {digits : List Char} {exponent : Int}
    (above : 0 ≤ exponent) (other : c ≠ '0') (all : ∀ d ∈ c :: digits, isDigit d = true)
    : ∃ numeral : Numeral, numeral.Proper
      ∧ sign negative ++ (positional (c :: digits) exponent ++ ['.', '0']) = numeral.chars
      ∧ numeral.number
        = .float (Binary64.ofDecimal negative (digitsValue (c :: digits)) exponent) := by
  have zeros : c :: digits ++ List.replicate exponent.toNat '0' ++ ['0']
      = c :: digits ++ List.replicate (exponent.toNat + 1) '0' := by
    rw [List.append_assoc, ← List.replicate_succ']
  refine ⟨⟨negative, c :: digits ++ List.replicate exponent.toNat '0', some ['0'], none⟩,
    ⟨.inr ⟨c, _, rfl, other⟩, ?_, ?_⟩, ?_, ?_⟩
  · intro d member
    rcases List.mem_append.1 member with member | member
    · exact all d member
    · exact isDigit_of_mem_zeros member
  · intro f same
    obtain rfl := Option.some.inj same
    exact ⟨List.cons_ne_nil _ _, by simp [isDigit]⟩
  · rw [positional, if_pos above]
    simp [Numeral.chars]
  · have place : (0 : Int) - (1 : Nat) + (exponent.toNat + 1 : Nat) = exponent := by omega
    simp only [Numeral.number, Numeral.float, Option.getD_some, Option.getD_none, zeros,
      digitsValue_append_zeros, List.length_cons, List.length_nil, Nat.zero_add,
      Binary64.ofDecimal_mul_ten_pow, place]

/-- Digits with a point behind the first of them, and an exponent, are a numeral. -/
theorem exists_numeral_scientific (negative : Bool) {c : Char} {digits : List Char} (e : Int)
    (other : c ≠ '0') (all : ∀ d ∈ c :: digits, isDigit d = true)
    : ∃ numeral : Numeral, numeral.Proper
      ∧ sign negative ++ (c :: (if digits = [] then [] else '.' :: digits) ++ exponentText e)
        = numeral.chars
      ∧ numeral.number
        = .float (Binary64.ofDecimal negative (digitsValue (c :: digits))
            (e - digits.length)) := by
  have first : ∀ d ∈ [c], isDigit d = true := by
    intro d member
    exact all d (by simp_all)
  by_cases none : digits = []
  · subst none
    refine ⟨⟨negative, [c], none, some e⟩, ⟨.inr ⟨c, [], rfl, other⟩, first, ?_⟩, ?_, ?_⟩
    · intro f same
      contradiction
    · simp [Numeral.chars]
    · simp [Numeral.number, Numeral.float]
  · refine ⟨⟨negative, [c], some digits, some e⟩, ⟨.inr ⟨c, [], rfl, other⟩, first, ?_⟩, ?_, ?_⟩
    · intro f same
      obtain rfl := Option.some.inj same
      exact ⟨none, fun d member => all d (List.mem_cons_of_mem c member)⟩
    · simp [Numeral.chars, none]
    · simp [Numeral.number, Numeral.float]

theorem exists_numeral_zero (negative : Bool) (h : Representable 0)
    : ∃ numeral : Numeral, numeral.Proper
      ∧ sign negative ++ ['0', '.', '0'] = numeral.chars
      ∧ numeral.number = .float (.finite negative 0 h) := by
  refine ⟨⟨negative, ['0'], some ['0'], none⟩, ⟨.inl rfl, ?_, ?_⟩, ?_, ?_⟩
  · intro c member
    obtain rfl := List.mem_singleton.1 member
    decide
  · intro f same
    obtain rfl := Option.some.inj same
    exact ⟨List.cons_ne_nil _ _, by simp [isDigit]⟩
  · simp [Numeral.chars]
  · simp only [Numeral.number, Numeral.float, Option.getD_some, Option.getD_none]
    rw [show digitsValue (['0'] ++ ['0']) = 0 from rfl, Binary64.ofDecimal_zero,
      Binary64.round_exact negative Nat.one_pos rfl h]

/-- Significant digits with their exponent as a document has them: positionally in a middle
range, and with an exponent beyond.
-/
def significandText (digits : List Char) (exponent : Int) : List Char :=
  let point : Int := digits.length + exponent
  if 0 ≤ exponent ∧ point ≤ 16 then positional digits exponent ++ ['.', '0']
  else if -5 < point ∧ point ≤ 16 then positional digits exponent
  else
    match digits with
    | [] => exponentText (point - 1)
    | d :: rest => d :: (if rest = [] then [] else '.' :: rest) ++ exponentText (point - 1)

theorem floatText_finite (negative : Bool) {units : Nat} (h : Representable units)
    (some : units ≠ 0)
    : floatText (.finite negative units h)
      = sign negative
        ++ significandText (significant .even units).1 (significant .even units).2 := by
  rw [floatText, if_neg some]
  generalize significant .even units = decimal
  obtain ⟨digits, exponent⟩ := decimal
  unfold significandText
  cases digits with
  | nil => rfl
  | cons d digits => cases digits <;> rfl

theorem exists_numeral_significand (negative : Bool) {c : Char} {digits : List Char}
    (exponent : Int) (other : c ≠ '0') (all : ∀ d ∈ c :: digits, isDigit d = true)
    : ∃ numeral : Numeral, numeral.Proper
      ∧ sign negative ++ significandText (c :: digits) exponent = numeral.chars
      ∧ numeral.number
        = .float (Binary64.ofDecimal negative (digitsValue (c :: digits)) exponent) := by
  unfold significandText
  dsimp only
  split
  next whole => exact exists_numeral_whole negative whole.1 other all
  split
  next above within =>
    have below : exponent < 0 := Int.not_le.1 fun large => above ⟨large, within.2⟩
    exact exists_numeral_positional negative below other all
  next =>
    have scientific := exists_numeral_scientific negative
      ((c :: digits).length + exponent - 1) other all
    have place : ((c :: digits).length : Int) + exponent - 1 - digits.length = exponent := by
      rw [List.length_cons]
      omega
    rwa [place] at scientific

/-- A finite float is written as a numeral that stands for it. -/
theorem exists_numeral_float {v : Binary64} (finite : v.isFinite = true)
    : ∃ numeral : Numeral, numeral.Proper ∧ floatText v = numeral.chars
      ∧ numeral.number = .float v := by
  cases v with
  | nan | infinite _ => contradiction
  | finite negative units h =>
      by_cases zero : units = 0
      · subst zero
        rw [floatText, if_pos rfl]
        exact exists_numeral_zero negative h
      · obtain ⟨c, digits, front, other⟩ := significant_head .even h zero
        have all : ∀ d ∈ (significant .even units).1, isDigit d = true :=
          fun d member => isDigit_of_mem_stripped member
        have value := ofDecimal_significant negative .even h
        rw [floatText_finite negative h zero, ← value, front]
        rw [front] at all
        exact exists_numeral_significand negative _ other all

/-- A number that has a numeral is written as one that stands for it. -/
theorem exists_numeral {n : Number} (fits : n.Fits)
    : ∃ numeral : Numeral, numeral.Proper ∧ Value.numberChars n = numeral.chars
      ∧ numeral.number = n := by
  cases n with
  | integer n => exact exists_numeral_integer fits.1 fits.2
  | float v =>
      have finite : v.isFinite = true := fits
      rw [Value.numberChars, if_pos finite]
      exact exists_numeral_float finite

theorem Numeral.Proper.chars_head {n : Numeral} (proper : n.Proper)
    : ∃ c text, n.chars = c :: text ∧ (c = '-' ∨ isDigit c = true) := by
  obtain ⟨negative, whole, fraction, exponent⟩ := n
  obtain ⟨leads, wholeDigits, _⟩ := proper
  cases negative with
  | true => exact ⟨'-', _, rfl, .inl rfl⟩
  | false =>
      cases whole with
      | nil => simp at leads
      | cons c whole => exact ⟨c, _, rfl, .inr (wholeDigits c List.mem_cons_self)⟩

/-- A written number starts with a digit or a minus. -/
theorem numberChars_head {n : Number} (fits : n.Fits)
    : ∃ c text, Value.numberChars n = c :: text ∧ (c = '-' ∨ isDigit c = true) := by
  obtain ⟨numeral, proper, text, _⟩ := exists_numeral fits
  rw [text]
  exact proper.chars_head

/-- A written number is read back up to where it stops. -/
theorem readNumber_numberChars {n : Number} (fits : n.Fits) {rest : List Char}
    (stops : Stops rest)
    : readNumber (Value.numberChars n ++ rest) = .ok (n, rest) := by
  obtain ⟨numeral, proper, text, number⟩ := exists_numeral fits
  rw [text, readNumber, numeral_chars proper stops]
  simp only [number]
  cases n with
  | integer n => rfl
  | float v => exact if_pos fits

end Json

end Screener
