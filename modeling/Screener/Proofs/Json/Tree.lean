import Screener.Proofs.Json.ReadBack
import Screener.Proofs.Outcome

/-!
Texts of documents as trees. A tree holds all of a text, down to the spaces between its parts and
to the way in which its characters are written, and it holds nothing that is not well-formed. So
a text is well-formed just if it is that of a tree.
-/

namespace Screener.Json

open Decimal (digitsValue isDigit sign spanDigits)

/-- Spaces between the parts of a document. -/
structure Gap where
  chars : List Char
  spaces : ∀ c ∈ chars, isSpace c = true

/-- A character in a string as it is written: as itself, by a letter, or as a code unit by its
number.
-/
inductive Piece where
  | plain (c : Char) (own : 32 ≤ c.toNat ∧ c ≠ '"' ∧ c ≠ '\\')
  | short (letter c : Char) (stands : shortEscape? letter = some c)
  | unit (a b c d : Char) (value : Nat) (digits : hexQuad? a b c d = some value)

/-- A number as it is written. -/
structure NumberText where
  numeral : Numeral
  proper : numeral.Proper
  power : List Char
  powers : Powers numeral.exponent power

/-- The key of a member as it is written, up to where the value starts. -/
structure Key where
  name : List Piece
  behind : Gap
  lead : Gap

mutual

/-- A document as it is written. -/
inductive Tree where
  | null
  | boolean (b : Bool)
  | number (n : NumberText)
  | text (s : List Piece)
  | list (elements : Elements)
  | object (members : Members)

/-- The elements of a list up to its bracket, each behind the gaps before and after its comma.
-/
inductive Elements where
  | nil (gap : Gap)
  | cons (before after : Gap) (t : Tree) (rest : Elements)

/-- The members of an object up to its brace, each behind the gaps before and after its comma.
-/
inductive Members where
  | nil (gap : Gap)
  | cons (before after : Gap) (key : Key) (t : Tree) (rest : Members)

end

-----------------------------------------------------------------------------------------
-- Every tree has one text
-----------------------------------------------------------------------------------------

def Piece.chars : Piece → List Char
  | .plain c _ => [c]
  | .short letter _ _ => ['\\', letter]
  | .unit a b c d _ _ => ['\\', 'u', a, b, c, d]

/-- A string behind its first quote. -/
def Piece.quoted (s : List Piece) : List Char := s.flatMap Piece.chars ++ ['"']

/-- The characters that stand in a string. Nothing where half of a surrogate pair comes without
the other half.
-/
def Piece.spelled? : List Piece → Option (List Char)
  | [] => some []
  | .plain c _ :: s | .short _ c _ :: s => (spelled? s).map (c :: ·)
  | .unit _ _ _ _ value _ :: s =>
    if 0xDC00 ≤ value ∧ value ≤ 0xDFFF then none
    else if value < 0xD800 ∨ 0xDBFF < value then (spelled? s).map (Char.ofNat value :: ·)
    else
      match s with
      | .unit _ _ _ _ low _ :: s =>
        if 0xDC00 ≤ low ∧ low ≤ 0xDFFF then
          (spelled? s).map
            (Char.ofNat ((value - 0xD800) * 0x400 + (low - 0xDC00) + 0x10000) :: ·)
        else none
      | _ => none

def NumberText.chars (n : NumberText) : List Char := n.numeral.withPower n.power

def Key.chars (key : Key) : List Char :=
  '"' :: (Piece.quoted key.name ++ (key.behind.chars ++ ':' :: key.lead.chars))

mutual

def Tree.chars : Tree → List Char
  | .null => ['n', 'u', 'l', 'l']
  | .boolean true => ['t', 'r', 'u', 'e']
  | .boolean false => ['f', 'a', 'l', 's', 'e']
  | .number n => n.chars
  | .text s => '"' :: Piece.quoted s
  | .list elements => '[' :: elements.chars true
  | .object members => '\x7b' :: members.chars true

/-- The text of elements behind the bracket of their list, or behind another element. -/
def Elements.chars (first : Bool) : Elements → List Char
  | .nil gap => gap.chars ++ [']']
  | .cons before after t rest =>
    before.chars ++ (separator first ++ (after.chars ++ (t.chars ++ rest.chars false)))

/-- The text of members behind the brace of their object, or behind another member. -/
def Members.chars (first : Bool) : Members → List Char
  | .nil gap => gap.chars ++ ['\x7d']
  | .cons before after key t rest =>
    before.chars ++
      (separator first ++ (after.chars ++ (key.chars ++ (t.chars ++ rest.chars false))))

end

-----------------------------------------------------------------------------------------
-- A reader skips a gap as a whole
-----------------------------------------------------------------------------------------

/-- No gap at all. -/
def Gap.none : Gap := ⟨[], List.forall_mem_nil _⟩

/-- Two gaps without anything between them. -/
def Gap.append (a b : Gap) : Gap where
  chars := a.chars ++ b.chars
  spaces c member := (List.mem_append.1 member).elim (a.spaces c) (b.spaces c)

theorem skipSpace_gap (gap : Gap) (text : List Char)
    : skipSpace (gap.chars ++ text) = skipSpace text :=
  List.dropWhile_append_of_pos gap.spaces

/-- What does not start with a space is all that is left of it behind a gap. -/
theorem skipSpace_gap_cons (gap : Gap) {c : Char} (plain : isSpace c = false) (text : List Char)
    : skipSpace (gap.chars ++ c :: text) = c :: text := by
  rw [skipSpace_gap, skipSpace_cons plain]

theorem exists_gap (text : List Char) : ∃ gap : Gap, text = gap.chars ++ skipSpace text := by
  refine ⟨⟨text.takeWhile isSpace, fun c member => ?_⟩, ?_⟩
  · exact List.all_eq_true.1 List.all_takeWhile c member
  · exact (List.takeWhile_append_dropWhile (p := isSpace)).symm

/-- What is left behind a gap starts with no space. -/
theorem exists_gap_of_skipSpace {text front : List Char} (left : skipSpace text = front)
    : ∃ gap : Gap, text = gap.chars ++ front := by
  obtain ⟨gap, split⟩ := exists_gap text
  exact ⟨gap, left ▸ split⟩

theorem Gap.stops (gap : Gap) {text : List Char} (stops : Stops text)
    : Stops (gap.chars ++ text) := by
  obtain ⟨chars, spaces⟩ := gap
  cases chars with
  | nil => exact stops
  | cons c chars =>
      intro d head
      obtain rfl := Option.some.inj head
      have space := spaces c List.mem_cons_self
      simp only [isSpace, Bool.or_eq_true, beq_iff_eq] at space
      rcases space with ((rfl | rfl) | rfl) | rfl <;> decide

-----------------------------------------------------------------------------------------
-- Numerals are read just where they are written
-----------------------------------------------------------------------------------------

theorem spanDigits_parts (text : List Char)
    : text = (spanDigits text).1 ++ (spanDigits text).2
      ∧ ∀ c ∈ (spanDigits text).1, isDigit c = true :=
  ⟨(List.takeWhile_append_dropWhile (p := isDigit)).symm,
    fun c member => List.all_eq_true.1 List.all_takeWhile c member⟩

theorem wholePart_eq_ok {text whole rest : List Char}
    (read : wholePart text = .ok (whole, rest))
    : text = whole ++ rest
      ∧ (whole = ['0'] ∨ ∃ c digits, whole = c :: digits ∧ c ≠ '0')
      ∧ ∀ c ∈ whole, isDigit c = true := by
  have zero : ∀ c ∈ ['0'], isDigit c = true := by
    intro c member
    obtain rfl := List.mem_singleton.1 member
    rfl
  unfold wholePart at read
  split at read
  · cases read
  · split at read
    · split at read
      · cases read
      · cases read
        exact ⟨rfl, .inl rfl, zero⟩
    · cases read
      exact ⟨rfl, .inl rfl, zero⟩
  next c rest' other =>
    split at read
    next digit =>
      have same := Except.ok.inj read
      obtain ⟨parts, all⟩ := spanDigits_parts (c :: rest')
      rw [same] at parts all
      refine ⟨parts, .inr ?_, all⟩
      cases whole with
      | nil =>
          have none : (spanDigits (c :: rest')).1 = [] := by rw [same]
          simp [spanDigits, digit] at none
      | cons d whole =>
          obtain ⟨rfl, _⟩ := List.cons.inj parts
          exact ⟨c, whole, rfl, other⟩
    next => cases read

theorem fractionPart_eq_ok {text rest : List Char} {fraction : Option (List Char)}
    (read : fractionPart text = .ok (fraction, rest))
    : text = (fraction.map ('.' :: ·)).getD [] ++ rest
      ∧ ∀ f, fraction = some f → f ≠ [] ∧ ∀ c ∈ f, isDigit c = true := by
  unfold fractionPart at read
  split at read
  next text =>
    obtain ⟨parts, all⟩ := spanDigits_parts text
    split at read
    · contradiction
    · contradiction
    next digits behind none some same =>
      cases read
      rw [same] at parts all
      refine ⟨congrArg ('.' :: ·) parts, ?_⟩
      rintro f ⟨⟩
      refine ⟨?_, all⟩
      rintro rfl
      cases rest with
      | nil => exact none rfl rfl
      | cons c rest => exact some c rest rfl rfl
  next =>
    cases read
    exact ⟨rfl, nofun⟩

theorem exists_powerSign (text : List Char)
    : ∃ sign negative body, (sign, negative) ∈ powerSigns ∧ text = sign ++ body
        ∧ exponentDigits text = powerDigits negative body := by
  by_cases minus : text.head? = some '-'
  · obtain ⟨body, rfl⟩ := List.head?_eq_some_iff.1 minus
    exact ⟨['-'], true, body, by simp [powerSigns], rfl, rfl⟩
  by_cases plus : text.head? = some '+'
  · obtain ⟨body, rfl⟩ := List.head?_eq_some_iff.1 plus
    exact ⟨['+'], false, body, by simp [powerSigns], rfl, rfl⟩
  refine ⟨[], false, text, by simp [powerSigns], rfl, exponentDigits_plain ?_⟩
  intro c head
  constructor
  · rintro rfl
    exact minus head
  · rintro rfl
    exact plus head

theorem exponentDigits_eq_ok {text rest : List Char} {e : Int}
    (read : exponentDigits text = .ok (e, rest))
    : ∃ sign digits negative, (sign, negative) ∈ powerSigns
        ∧ text = sign ++ digits ++ rest
        ∧ digits ≠ []
        ∧ (∀ c ∈ digits, isDigit c = true)
        ∧ e = if negative then -(digitsValue digits : Int) else digitsValue digits := by
  obtain ⟨sign, negative, body, signed, rfl, same⟩ := exists_powerSign text
  rw [same, powerDigits] at read
  obtain ⟨parts, all⟩ := spanDigits_parts body
  split at read
  · contradiction
  · contradiction
  next digits behind none some span =>
    cases read
    rw [span] at parts all
    refine ⟨sign, digits, negative, signed, ?_, ?_, all, rfl⟩
    · rw [List.append_assoc, ← parts]
    · rintro rfl
      cases rest with
      | nil => exact none rfl rfl
      | cons c rest => exact some c rest rfl rfl

theorem exponentPart_eq_ok {text rest : List Char} {exponent : Option Int}
    (read : exponentPart text = .ok (exponent, rest))
    : ∃ power, Powers exponent power ∧ text = power ++ rest := by
  unfold exponentPart at read
  split at read
  next c text =>
    split at read
    next marked =>
      obtain ⟨⟨e, behind⟩, inner, same⟩ := Outcome.map_eq_ok.1 read
      obtain ⟨rfl, rfl⟩ := Prod.mk.inj same
      obtain ⟨sign, digits, negative, signed, rfl, some, all, rfl⟩ := exponentDigits_eq_ok inner
      exact ⟨_, .some marked signed some all, rfl⟩
    next =>
      cases read
      exact ⟨[], .none, rfl⟩
  next =>
    cases read
    exact ⟨[], .none, rfl⟩

theorem exists_sign (text : List Char)
    : ∃ negative body, text = sign negative ++ body
        ∧ numeral text = unsignedNumeral negative body := by
  by_cases minus : text.head? = some '-'
  · obtain ⟨body, rfl⟩ := List.head?_eq_some_iff.1 minus
    exact ⟨true, body, rfl, rfl⟩
  · refine ⟨false, text, rfl, numeral_sign false ?_⟩
    rintro c head rfl
    exact minus head

/-- A numeral that is read stands at the start of the text. -/
theorem numeral_eq_ok {text rest : List Char} {n : Numeral} (read : numeral text = .ok (n, rest))
    : ∃ written : NumberText, written.numeral = n ∧ text = written.chars ++ rest := by
  obtain ⟨negative, body, rfl, same⟩ := exists_sign text
  rw [same] at read
  obtain ⟨⟨whole, text₁⟩, first, read⟩ := Outcome.bind_eq_ok.1 read
  obtain ⟨⟨fraction, text₂⟩, middle, read⟩ := Outcome.bind_eq_ok.1 read
  obtain ⟨⟨exponent, text₃⟩, last, read⟩ := Outcome.bind_eq_ok.1 read
  cases read
  obtain ⟨rfl, leads, wholeDigits⟩ := wholePart_eq_ok first
  obtain ⟨rfl, fractionDigits⟩ := fractionPart_eq_ok middle
  obtain ⟨power, powers, rfl⟩ := exponentPart_eq_ok last
  refine ⟨⟨⟨negative, whole, fraction, exponent⟩, ⟨leads, wholeDigits, fractionDigits⟩, power,
    powers⟩, rfl, ?_⟩
  simp [NumberText.chars, Numeral.withPower]

theorem numeral_numberText (n : NumberText) {rest : List Char} (stops : Stops rest)
    : numeral (n.chars ++ rest) = .ok (n.numeral, rest) :=
  numeral_withPower n.proper n.powers stops

theorem NumberText.chars_head (n : NumberText)
    : ∃ c text, n.chars = c :: text ∧ (c = '-' ∨ isDigit c = true) := by
  obtain ⟨⟨negative, whole, fraction, exponent⟩, ⟨leads, wholeDigits, _⟩, power, _⟩ := n
  cases negative with
  | true => exact ⟨'-', _, rfl, .inl rfl⟩
  | false =>
      cases whole with
      | nil => simp at leads
      | cons c whole => exact ⟨c, _, rfl, .inr (wholeDigits c List.mem_cons_self)⟩

-----------------------------------------------------------------------------------------
-- Strings are passed just where they are written
-----------------------------------------------------------------------------------------

namespace Piece

theorem quoted_cons (piece : Piece) (s : List Piece) (rest : List Char)
    : quoted (piece :: s) ++ rest = piece.chars ++ (quoted s ++ rest) := by
  simp [quoted]

/-- What is passed over is a string of pieces, by induction over them. -/
theorem passString_quoted (s : List Piece) (rest : List Char)
    : passString (quoted s ++ rest) = .ok rest := by
  induction s with
  | nil => rfl
  | cons piece s ih =>
      rw [quoted_cons]
      cases piece with
      | plain c own =>
          obtain ⟨printed, quote, slash⟩ := own
          rw [chars, List.singleton_append, passString.eq_def]
          simp [slash, Nat.not_lt.2 printed, ih]
      | short letter c stands =>
          have other : letter ≠ 'u' := by
            rintro rfl
            contradiction
          rw [chars, List.cons_append, List.singleton_append, passString.eq_def]
          simp [other, stands, ih]
      | unit a b c d value digits =>
          simp only [chars, List.cons_append, List.nil_append]
          rw [passString, if_pos (by rw [digits]; rfl), ih]

/-- A character that nothing else is said of stands for itself. -/
theorem exists_plain {c : Char} {rest : List Char} (printed : ¬ c.toNat < 32) (quote : c ≠ '"')
    (last : c = '\\' → rest = [] → False)
    (next : ∀ d rest', c = '\\' → rest = d :: rest' → False)
    : 32 ≤ c.toNat ∧ c ≠ '"' ∧ c ≠ '\\' := by
  refine ⟨Nat.not_lt.1 printed, quote, fun slash => ?_⟩
  cases rest with
  | nil => exact last slash rfl
  | cons d rest => exact next d rest slash rfl

/-- A string that is passed over is made of pieces. -/
theorem passString_eq_ok {text rest : List Char} (read : passString text = .ok rest)
    : ∃ s, text = quoted s ++ rest := by
  fun_induction passString text with
  | case1 | case4 | case5 | case6 | case8 | case9 => contradiction
  | case2 behind =>
      cases read
      exact ⟨[], rfl⟩
  | case3 a b c d text digits ih =>
      obtain ⟨value, digits⟩ := Option.isSome_iff_exists.1 digits
      obtain ⟨s, rfl⟩ := ih read
      exact ⟨.unit a b c d value digits :: s, rfl⟩
  | case7 letter text _ _ stands ih =>
      obtain ⟨c, stands⟩ := Option.isSome_iff_exists.1 stands
      obtain ⟨s, rfl⟩ := ih read
      exact ⟨.short letter c stands :: s, rfl⟩
  | case10 c text quote _ _ last next printed ih =>
      obtain ⟨s, rfl⟩ := ih read
      exact ⟨.plain c (exists_plain printed quote last next) :: s, rfl⟩

/-- A string that spells characters is read as them. -/
theorem stringRest_quoted {s : List Piece} {cs : List Char} (spelled : spelled? s = some cs)
    (rest : List Char)
    : stringRest (quoted s ++ rest) = .ok (cs, rest) := by
  fun_induction spelled? s generalizing cs with
  | case1 =>
      cases spelled
      rfl
  | case2 c own s ih =>
      obtain ⟨others, left, rfl⟩ := Option.map_eq_some_iff.1 spelled
      obtain ⟨printed, quote, slash⟩ := own
      rw [quoted_cons, chars, List.singleton_append, stringRest.eq_def]
      simp [slash, Nat.not_lt.2 printed, ih left, Except.map]
  | case3 letter c stands s ih =>
      obtain ⟨others, left, rfl⟩ := Option.map_eq_some_iff.1 spelled
      have other : letter ≠ 'u' := by
        rintro rfl
        contradiction
      rw [quoted_cons, chars, List.cons_append, List.singleton_append, stringRest.eq_def]
      simp [other, stands, ih left, Except.map]
  | case4 => contradiction
  | case5 a b c d value digits s low high ih =>
      obtain ⟨others, left, rfl⟩ := Option.map_eq_some_iff.1 spelled
      rw [quoted_cons]
      simp only [chars, List.cons_append, List.nil_append]
      rw [stringRest]
      simp only [digits, if_neg low, if_pos high, ih left]
      rfl
  | case6 a b c d value digits low high e f g h half digits' s paired ih =>
      obtain ⟨others, left, rfl⟩ := Option.map_eq_some_iff.1 spelled
      rw [quoted_cons, quoted_cons]
      simp only [chars, List.cons_append, List.nil_append]
      rw [stringRest]
      simp only [digits, if_neg low, if_neg high, digits', if_pos paired, ih left]
      rfl
  | case7 | case8 => contradiction

theorem stringRest_eq_ok {text cs rest : List Char} (read : stringRest text = .ok (cs, rest))
    : ∃ s, text = quoted s ++ rest ∧ spelled? s = some cs := by
  fun_induction stringRest text generalizing cs with
  | case1 | case3 | case4 | case6 | case8 | case9 | case10 | case11 | case12 | case13 | case14
  | case16 | case17 => contradiction
  | case2 behind =>
      cases read
      exact ⟨[], rfl, rfl⟩
  | case5 a b c d text value digits low high ih =>
      obtain ⟨⟨others, behind⟩, inner, same⟩ := Outcome.map_eq_ok.1 read
      obtain ⟨rfl, rfl⟩ := Prod.mk.inj same
      obtain ⟨s, rfl, spelled⟩ := ih inner
      refine ⟨.unit a b c d value digits :: s, rfl, ?_⟩
      rw [spelled?.eq_def]
      simp only [if_neg low, if_pos high, spelled]
      rfl
  | case7 a b c d high digits low notHigh e f g h text half digits' paired ih =>
      obtain ⟨⟨others, behind⟩, inner, same⟩ := Outcome.map_eq_ok.1 read
      obtain ⟨rfl, rfl⟩ := Prod.mk.inj same
      obtain ⟨s, rfl, spelled⟩ := ih inner
      refine ⟨.unit a b c d high digits :: .unit e f g h half digits' :: s, rfl, ?_⟩
      rw [spelled?, if_neg low, if_neg notHigh]
      simp only [if_pos paired, spelled]
      rfl
  | case15 letter text _ _ c stands ih =>
      obtain ⟨⟨others, behind⟩, inner, same⟩ := Outcome.map_eq_ok.1 read
      obtain ⟨rfl, rfl⟩ := Prod.mk.inj same
      obtain ⟨s, rfl, spelled⟩ := ih inner
      refine ⟨.short letter c stands :: s, rfl, ?_⟩
      rw [spelled?, spelled]
      rfl
  | case18 c text quote _ _ last next printed ih =>
      obtain ⟨⟨others, behind⟩, inner, same⟩ := Outcome.map_eq_ok.1 read
      obtain ⟨rfl, rfl⟩ := Prod.mk.inj same
      obtain ⟨s, rfl, spelled⟩ := ih inner
      refine ⟨.plain c (exists_plain printed quote last next) :: s, rfl, ?_⟩
      rw [spelled?, spelled]
      rfl

end Piece

-----------------------------------------------------------------------------------------
-- A tree starts and ends where a reader looks for it
-----------------------------------------------------------------------------------------

/-- The text of a tree starts with a character that tells its kind; only null has an `n`. -/
theorem Tree.chars_head (t : Tree)
    : ∃ c text, t.chars = c :: text ∧ Starts c ∧ (c = 'n' → t = .null) := by
  cases t with
  | null => exact ⟨_, _, by rw [chars], .inl (by simp), fun _ => rfl⟩
  | boolean b => cases b <;> exact ⟨_, _, by rw [chars], .inl (by simp), by simp⟩
  | number n =>
      obtain ⟨c, text, front, starts⟩ := n.chars_head
      have other := Starts.number_only starts
      refine ⟨c, text, by rw [chars, front], .of_number starts, ?_⟩
      rintro rfl
      exact absurd List.mem_cons_self other
  | text s => exact ⟨_, _, by rw [chars], .inl (by simp), by simp⟩
  | list elements => exact ⟨_, _, by rw [chars], .inl (by simp), by simp⟩
  | object members => exact ⟨_, _, by rw [chars], .inl (by simp), by simp⟩

theorem Tree.length_pos (t : Tree) : 0 < t.chars.length := by
  obtain ⟨c, text, front, _⟩ := t.chars_head
  simp [front]

theorem skipSpace_tree (lead : Gap) (t : Tree) (rest : List Char)
    : skipSpace (lead.chars ++ (t.chars ++ rest)) = t.chars ++ rest := by
  obtain ⟨c, text, front, starts, _⟩ := t.chars_head
  rw [front, List.cons_append, skipSpace_gap_cons lead starts.plain.1]

theorem skipSpace_lastElement (gap : Gap) (first : Bool) (rest : List Char)
    : skipSpace ((Elements.nil gap).chars first ++ rest) = ']' :: rest := by
  rw [Elements.chars, List.append_assoc]
  exact skipSpace_gap_cons gap (by decide) rest

theorem skipSpace_firstElement (before after : Gap) (t : Tree) (others : Elements)
    (rest : List Char)
    : skipSpace ((Elements.cons before after t others).chars true ++ rest)
      = t.chars ++ (others.chars false ++ rest) := by
  simp only [Elements.chars, separator, ↓reduceIte, List.nil_append, List.append_assoc]
  rw [skipSpace_gap, skipSpace_tree]

theorem skipSpace_nextElement (before after : Gap) (t : Tree) (others : Elements)
    (rest : List Char)
    : skipSpace ((Elements.cons before after t others).chars false ++ rest)
      = ',' :: (after.chars ++ (t.chars ++ (others.chars false ++ rest))) := by
  simp only [Elements.chars, separator, Bool.false_eq_true, ↓reduceIte, List.append_assoc]
  exact skipSpace_gap_cons before (by decide) _

theorem skipSpace_lastMember (gap : Gap) (first : Bool) (rest : List Char)
    : skipSpace ((Members.nil gap).chars first ++ rest) = '\x7d' :: rest := by
  rw [Members.chars, List.append_assoc]
  exact skipSpace_gap_cons gap (by decide) rest

theorem skipSpace_key (lead : Gap) (key : Key) (text : List Char)
    : skipSpace (lead.chars ++ (key.chars ++ text)) = key.chars ++ text :=
  skipSpace_gap_cons lead (by decide) _

theorem skipSpace_firstMember (before after : Gap) (key : Key) (t : Tree) (others : Members)
    (rest : List Char)
    : skipSpace ((Members.cons before after key t others).chars true ++ rest)
      = key.chars ++ (t.chars ++ (others.chars false ++ rest)) := by
  simp only [Members.chars, separator, ↓reduceIte, List.nil_append, List.append_assoc]
  rw [skipSpace_gap, skipSpace_key]

theorem skipSpace_nextMember (before after : Gap) (key : Key) (t : Tree) (others : Members)
    (rest : List Char)
    : skipSpace ((Members.cons before after key t others).chars false ++ rest)
      = ',' :: (after.chars ++ (key.chars ++ (t.chars ++ (others.chars false ++ rest)))) := by
  simp only [Members.chars, separator, Bool.false_eq_true, ↓reduceIte, List.append_assoc]
  exact skipSpace_gap_cons before (by decide) _

theorem Key.chars_append (key : Key) (text : List Char)
    : key.chars ++ text
      = '"' :: (Piece.quoted key.name ++
          (key.behind.chars ++ ':' :: (key.lead.chars ++ text))) := by
  simp [chars]

theorem stops_elements (elements : Elements) (rest : List Char)
    : Stops (elements.chars false ++ rest) := by
  cases elements with
  | nil gap =>
      rw [Elements.chars, List.append_assoc]
      exact gap.stops (stops_cons (by simp) rest)
  | cons before after t others =>
      rw [Elements.chars, List.append_assoc]
      exact before.stops (stops_cons (by simp) _)

theorem stops_members (members : Members) (rest : List Char)
    : Stops (members.chars false ++ rest) := by
  cases members with
  | nil gap =>
      rw [Members.chars, List.append_assoc]
      exact gap.stops (stops_cons (by simp) rest)
  | cons before after key t others =>
      rw [Members.chars, List.append_assoc]
      exact before.stops (stops_cons (by simp) _)

theorem afterName_eq_ok {letters text rest : List Char}
    : afterName letters text = .ok rest ↔ text = letters ++ rest := by
  fun_induction afterName letters text with
  | case1 text =>
      constructor
      · intro read
        cases read
        rfl
      · rintro rfl
        rfl
  | case2 => simp [malformed]
  | case3 letter letters text ih => simp [ih]
  | case4 letter letters c text other => simp [malformed, other]

theorem afterColon_gap (gap : Gap) (text : List Char)
    : afterColon (gap.chars ++ ':' :: text) = .ok text := by
  rw [afterColon, skipSpace_gap_cons gap (by decide)]
  rfl

theorem afterColon_eq_ok {text rest : List Char} (read : afterColon text = .ok rest)
    : ∃ gap : Gap, text = gap.chars ++ ':' :: rest := by
  unfold afterColon at read
  split at read
  · contradiction
  next left =>
    cases read
    exact exists_gap_of_skipSpace left
  · contradiction

end Screener.Json
