import Screener.Phrase.Pattern
import Screener.Proofs.Decimal.ReadBack
import Screener.Proofs.Decimal.Spelling
import Screener.Proofs.Text.Lowercase
import Screener.Proofs.Text.Substring

/-!
What a pattern finds in a text that is put together from pieces. A piece that avoids the words
of a pattern is passed over, whatever stands around it; a number phrase is found in the first
piece that has one, and words in order are found in every text around a piece that has them.
-/

namespace Screener

/-- The sign bit. What is not a number has none set. -/
def Binary64.signBit : Binary64 → Bool
  | .nan => false
  | .infinite negative => negative
  | .finite negative _ _ => negative

namespace Phrase

open Text

-----------------------------------------------------------------------------------------
-- Case
-----------------------------------------------------------------------------------------

/-- A character of plain case in the case that a pattern looks at. -/
def inCase (ignoreCase : Bool) (c : Char) : Char := if ignoreCase then c.toLower else c

theorem folded_eq_map {text : List Char} (ignoreCase : Bool)
    (plain : ∀ c ∈ text, hasPlainCase c = true)
    : folded ignoreCase text = text.map (inCase ignoreCase) := by
  cases ignoreCase with
  | false => exact (List.map_id text).symm
  | true => exact lower_eq_map plain

-----------------------------------------------------------------------------------------
-- Numbers
-----------------------------------------------------------------------------------------

/-- The characters of plain numbers. -/
def numerals : List Char := "0123456789.-".toList

/-- A digit is one of the ten: its code lies among theirs. -/
theorem mem_numerals_of_isDigit {c : Char} (digit : Decimal.isDigit c = true)
    : c ∈ numerals := by
  simp only [Decimal.isDigit, Bool.and_eq_true, decide_eq_true_eq] at digit
  have low : 48 ≤ c.toNat := digit.1
  have high : c.toNat < 58 := Nat.lt_succ_of_le digit.2
  have all : ∀ n < 58, 48 ≤ n → Char.ofNat n ∈ numerals := by decide
  rw [← Char.ofNat_toNat c]
  exact all c.toNat high low

theorem numerals_of_spells {negative : Bool} {whole fraction : List Char} {v : Binary64}
    (spells : Decimal.Spells negative whole fraction v)
    : ∀ c ∈ Decimal.pointed whole fraction, c ∈ numerals := by
  intro c member
  unfold Decimal.pointed at member
  rcases List.mem_append.1 member with member | member
  · exact mem_numerals_of_isDigit (spells.wholeDigits c member)
  · split at member
    · contradiction
    · rcases List.mem_cons.1 member with rfl | member
      · decide
      · exact mem_numerals_of_isDigit (spells.fractionDigits c member)

/-- The plain text of a finite value is made of numerals. -/
theorem mem_numerals_of_mem_plain {v : Binary64} (finite : v.isFinite = true) {c : Char}
    (member : c ∈ (Decimal.plain v).toList)
    : c ∈ numerals := by
  cases v with
  | nan | infinite _ => simp [Binary64.isFinite] at finite
  | finite negative units h =>
      obtain ⟨whole, fraction, spells, text⟩ := Decimal.spells_plain negative h
      rw [text] at member
      rcases List.mem_append.1 member with member | member
      · cases negative with
        | false => contradiction
        | true =>
            obtain rfl := List.mem_singleton.1 member
            decide
      · exact numerals_of_spells spells c member

/-- Neither a digit nor a point follows. -/
def Ends (rest : List Char) : Prop := ∀ c ∈ rest.head?, Decimal.isDigit c = false ∧ c ≠ '.'

/-- Spelled digits are read up to their end. -/
theorem decimalParts?_pointed {negative : Bool} {whole fraction rest : List Char}
    {v : Binary64} (spells : Decimal.Spells negative whole fraction v) (ends : Ends rest)
    : decimalParts? (Decimal.pointed whole fraction ++ rest) = some (whole, fraction) := by
  have digits := Decimal.spanDigits_append spells.fractionDigits fun c head => (ends c head).1
  have some : whole.isEmpty = false := by simpa using spells.some
  unfold decimalParts? Decimal.pointed
  by_cases none : fraction = []
  · subst none
    rw [if_pos rfl, List.append_nil,
      Decimal.spanDigits_append spells.wholeDigits fun c head => (ends c head).1]
    cases rest with
    | nil => simp [some]
    | cons c rest =>
        have point := (ends c rfl).2
        simp [some, point]
  · have point : ∀ c ∈ ('.' :: (fraction ++ rest)).head?, Decimal.isDigit c = false := by
      simp [Decimal.isDigit]
    rw [if_neg none, List.append_assoc, List.cons_append,
      Decimal.spanDigits_append spells.wholeDigits point]
    simp [some, digits]

theorem unsigned?_pointed {negative : Bool} {whole fraction rest : List Char} {v : Binary64}
    (spells : Decimal.Spells negative whole fraction v) (ends : Ends rest)
    : unsigned? negative (Decimal.pointed whole fraction ++ rest) = some v := by
  rw [unsigned?, decimalParts?_pointed spells ends]
  exact congrArg some spells.value

/-- A text that starts with no sign is read as an unsigned number. -/
theorem signed?_of_ne {text : List Char} (other : ∀ c ∈ text.head?, c ≠ '+' ∧ c ≠ '-')
    : signed? text = unsigned? false text := by
  unfold signed?
  split
  next => exact absurd rfl (other '+' rfl).1
  next => exact absurd rfl (other '-' rfl).2
  next => rfl

/-- Behind a sign a number is read as an unsigned one under that sign. -/
theorem signed?_append (n : Decimal.Numeral) (rest : List Char)
    : signed? (n.chars ++ rest)
      = unsigned? n.sign.isNegative (Decimal.pointed n.whole n.fraction ++ rest) := by
  obtain ⟨c, front, start, first⟩ := n.exists_head
  unfold Decimal.Numeral.chars
  cases n.sign with
  | plus | minus => rfl
  | none =>
      rw [start]
      refine signed?_of_ne ?_
      rintro _ ⟨⟩
      exact Decimal.ne_of_isDigit first

/-- A finite value is read back from its plain text, which ends where the text goes on. -/
theorem signed?_plain {v : Binary64} (finite : v.isFinite = true) {rest : List Char}
    (ends : Ends rest)
    : signed? ((Decimal.plain v).toList ++ rest) = some v := by
  cases v with
  | nan | infinite _ => simp [Binary64.isFinite] at finite
  | finite negative units h =>
      obtain ⟨n, text, value⟩ := Decimal.Numeral.exists_of_plain negative h
      rw [text, signed?_append, unsigned?_pointed n.spells ends, value]

/-- A finite value without a sign is read back without one. -/
theorem unsigned?_plain {v : Binary64} (finite : v.isFinite = true)
    (clear : v.signBit = false) {rest : List Char} (ends : Ends rest)
    : unsigned? false ((Decimal.plain v).toList ++ rest) = some v := by
  cases v with
  | nan | infinite _ => simp [Binary64.isFinite] at finite
  | finite negative units h =>
      obtain rfl : negative = false := clear
      obtain ⟨whole, fraction, spells, text⟩ := Decimal.spells_plain false h
      rw [text]
      exact unsigned?_pointed spells ends

-----------------------------------------------------------------------------------------
-- Number phrases
-----------------------------------------------------------------------------------------

/-- None of the words can start in the text, whatever follows it. -/
def avoidsAll (words : List String) (text : List Char) : Bool :=
  words.all fun word => avoids word.toList text

theorem avoidsAll_append {words : List String} {a b : List Char}
    (left : avoidsAll words a = true) (right : avoidsAll words b = true)
    : avoidsAll words (a ++ b) = true := by
  simp only [avoidsAll, List.all_eq_true] at left right ⊢
  exact fun word member => avoids_append (left word member) (right word member)

theorem afterAnyOf?_of_avoidsAll {words : List String} {c : Char} {text : List Char}
    (avoid : avoidsAll words (c :: text) = true) (rest : List Char)
    : afterAnyOf? words (c :: text ++ rest) = none := by
  simp only [avoidsAll, avoids, List.all_eq_true, Bool.and_eq_true] at avoid
  simp only [afterAnyOf?, List.findSome?_eq_none_iff]
  exact fun word member => afterWord?_of_clashes (avoid word member).1 rest

namespace NumberPhrase

/-- The words that a number phrase starts with. -/
def keywords : NumberPhrase → List String
  | .bounded keywords _ _ => keywords
  | .signed keywords => keywords

/-- The phrase is looked for in lowercase. -/
def ignoreCase : NumberPhrase → Bool
  | .bounded _ _ ignoreCase => ignoreCase
  | .signed _ => false

/-- The number of a phrase that starts the text. -/
def at? : NumberPhrase → List Char → Option Binary64
  | .bounded keywords comparisons _ => boundedAt? keywords comparisons
  | .signed keywords => signedAt? keywords

theorem scan_eq (phrase : NumberPhrase) (text : List Char)
    : phrase.scan text = leftmost? phrase.at? (folded phrase.ignoreCase text) := by
  cases phrase <;> rfl

theorem at?_eq_none {phrase : NumberPhrase} {text : List Char}
    (none : afterAnyOf? phrase.keywords text = none)
    : phrase.at? text = Option.none := by
  cases phrase with
  | bounded keywords comparisons ignoreCase =>
      simp only [at?, boundedAt?, show afterAnyOf? keywords text = Option.none from none]
      rfl
  | signed keywords =>
      simp only [at?, signedAt?, show afterAnyOf? keywords text = Option.none from none]
      rfl

/-- A phrase is looked for behind a text that avoids its words. -/
theorem leftmost?_append {phrase : NumberPhrase} {text : List Char}
    (avoid : avoidsAll phrase.keywords text = true) (rest : List Char)
    : leftmost? phrase.at? (text ++ rest) = leftmost? phrase.at? rest := by
  induction text with
  | nil => rfl
  | cons c text ih =>
      have others : avoidsAll phrase.keywords text = true := by
        simp only [avoidsAll, avoids, List.all_eq_true, Bool.and_eq_true] at avoid ⊢
        exact fun word member => (avoid word member).2
      have here := at?_eq_none (afterAnyOf?_of_avoidsAll avoid rest)
      simp only [List.cons_append] at here ⊢
      rw [leftmost?, here, ih others]
      rfl

/-- What stands at the start of a text is the leftmost there. -/
theorem leftmost?_of_start {α : Type} {f : List Char → Option α} {text : List Char} {v : α}
    (some : text ≠ []) (here : f text = Option.some v)
    : leftmost? f text = Option.some v := by
  cases text with
  | nil => contradiction
  | cons c text =>
      rw [leftmost?, here]
      rfl

/-- In a joined text the first piece with a phrase decides, by induction on the pieces. The
others avoid its words, and a phrase ends with its piece.
-/
theorem leftmost?_intercalate {α : Type} {phrase : NumberPhrase} {separator : List Char}
    {items : List α} (text : α → List Char) (number? : α → Option Binary64)
    (silent : avoidsAll phrase.keywords separator = true)
    (others : ∀ item ∈ items, number? item = none →
      avoidsAll phrase.keywords (text item) = true)
    (found : ∀ item ∈ items, ∀ v, number? item = some v → ∀ rest,
      rest = [] ∨ separator <+: rest → phrase.at? (text item ++ rest) = some v)
    (some : ∀ item ∈ items, text item ≠ [])
    : leftmost? phrase.at? (separator.intercalate (items.map text))
      = items.findSome? number? := by
  have first {item : α} {v : Binary64} (member : item ∈ items)
      (value : number? item = Option.some v) {rest : List Char}
      (ends : rest = [] ∨ separator <+: rest)
      : leftmost? phrase.at? (text item ++ rest) = Option.some v :=
    leftmost?_of_start (List.append_ne_nil_of_left_ne_nil (some item member) rest)
      (found item member v value rest ends)
  induction items with
  | nil => rfl
  | cons item items ih =>
      have tail := ih (fun item member => others item (List.mem_cons_of_mem _ member))
        (fun item member => found item (List.mem_cons_of_mem _ member))
        (fun item member => some item (List.mem_cons_of_mem _ member))
        (fun member => first (List.mem_cons_of_mem _ member))
      rw [List.findSome?_cons]
      cases items with
      | nil =>
          rw [List.map_singleton, List.intercalate_singleton]
          cases value : number? item with
          | none =>
              have passed := leftmost?_append (others item (by simp) value) []
              rwa [List.append_nil] at passed
          | some v =>
              have here := first (by simp) value (Or.inl rfl)
              simpa only [List.append_nil] using here
      | cons next items =>
          rw [List.map_cons, List.map_cons, List.intercalate_cons_cons, List.append_assoc]
          cases value : number? item with
          | none =>
              rw [leftmost?_append (others item (by simp) value), leftmost?_append silent]
              exact tail
          | some v => exact first (by simp) value (Or.inr (List.prefix_append _ _))

end NumberPhrase

-----------------------------------------------------------------------------------------
-- Words in order
-----------------------------------------------------------------------------------------

/-- The longest rest is one of those that are compared, and none of them is longer. -/
theorem foldl_longer (others : List (List Char)) (rest : List Char)
    : others.foldl longer rest ∈ rest :: others
      ∧ ∀ other ∈ rest :: others, other.length ≤ (others.foldl longer rest).length := by
  induction others generalizing rest with
  | nil => simp
  | cons other others ih =>
      obtain ⟨member, longest⟩ := ih (longer rest other)
      have both : longer rest other ∈ [rest, other]
          ∧ rest.length ≤ (longer rest other).length
          ∧ other.length ≤ (longer rest other).length := by
        unfold longer
        split <;> simp <;> omega
      rw [List.foldl_cons]
      have least := longest (longer rest other) (by simp)
      refine ⟨?_, ?_⟩
      · rcases List.mem_cons.1 member with same | member
        · rw [same]
          have one := both.1
          simp only [List.mem_cons, List.not_mem_nil, or_false] at one ⊢
          exact one.imp_right Or.inl
        · simp [member]
      · intro text found
        rcases List.mem_cons.1 found with rfl | found
        · exact Nat.le_trans both.2.1 least
        rcases List.mem_cons.1 found with rfl | found
        · exact Nat.le_trans both.2.2 least
        · exact longest text (by simp [found])

/-- No word is found just when none occurs. -/
theorem afterEarliest?_eq_none_iff {words : List String} {text : List Char}
    : afterEarliest? words text = none
      ↔ ∀ word ∈ words, afterFirst? word.toList text = none := by
  rw [← List.filterMap_eq_nil_iff, afterEarliest?]
  cases words.filterMap fun word => afterFirst? word.toList text <;> simp

/-- What is found follows one of the words, and is the longest such text. -/
theorem afterEarliest?_spec {words : List String} {text rest : List Char}
    (found : afterEarliest? words text = some rest)
    : (∃ word ∈ words, afterFirst? word.toList text = some rest)
      ∧ ∀ word ∈ words, ∀ other, afterFirst? word.toList text = some other →
        other.length ≤ rest.length := by
  unfold afterEarliest? at found
  split at found
  next => contradiction
  next first others eq =>
    obtain rfl := Option.some.inj found
    obtain ⟨member, longest⟩ := foldl_longer others first
    rw [← eq] at member longest
    simp only [List.mem_filterMap] at member longest
    exact ⟨member, fun word inside other here => longest other ⟨word, inside, here⟩⟩

theorem suffix_of_afterFirst? {word text rest : List Char}
    (found : afterFirst? word text = some rest)
    : rest <:+ text := by
  obtain ⟨before, rfl⟩ := append_of_afterFirst? found
  exact List.suffix_append _ _

theorem suffix_of_afterEarliest? {words : List String} {text rest : List Char}
    (found : afterEarliest? words text = some rest)
    : rest <:+ text := by
  obtain ⟨word, _, here⟩ := (afterEarliest?_spec found).1
  exact suffix_of_afterFirst? here

/-- More text before and behind leaves at least as much to the words that come next. -/
theorem afterEarliest?_mono {words : List String} {text rest : List Char}
    (before after : List Char) (found : afterEarliest? words text = some rest)
    : ∃ rest', afterEarliest? words (before ++ text ++ after) = some rest'
      ∧ rest ++ after <:+ rest' := by
  obtain ⟨word, member, here⟩ := (afterEarliest?_spec found).1
  obtain ⟨longer, there, suffix⟩ := afterFirst?_mono before after here
  cases whole : afterEarliest? words (before ++ text ++ after) with
  | none => rw [afterEarliest?_eq_none_iff.1 whole word member] at there; contradiction
  | some rest' =>
      have length := (afterEarliest?_spec whole).2 word member longer there
      exact ⟨rest', rfl, suffix.trans (List.suffix_of_suffix_length_le
        (suffix_of_afterFirst? there) (suffix_of_afterEarliest? whole) length)⟩

/-- Where words stand in order, one of the first group stands somewhere and the others after it. -/
theorem exists_of_holdsInOrder {words : List String} {groups : List (List String)}
    {text : List Char} (holds : holdsInOrder (words :: groups) text = true)
    : ∃ word ∈ words, ∃ before rest, text = before ++ word.toList ++ rest
      ∧ holdsInOrder groups rest = true := by
  unfold holdsInOrder at holds
  split at holds
  next rest earliest =>
    obtain ⟨word, member, first⟩ := (afterEarliest?_spec earliest).1
    obtain ⟨before, whole⟩ := append_of_afterFirst? first
    exact ⟨word, member, before, rest, whole, holds⟩
  next => contradiction

/-- Words that stand in order in a text do so in every text around it. -/
theorem holdsInOrder_mono {groups : List (List String)} {text : List Char}
    (before after : List Char) (holds : holdsInOrder groups text = true)
    : holdsInOrder groups (before ++ text ++ after) = true := by
  induction groups generalizing before text with
  | nil => rfl
  | cons words groups ih =>
      unfold holdsInOrder at holds ⊢
      split at holds
      next rest found =>
        obtain ⟨rest', there, front, rfl⟩ := afterEarliest?_mono before after found
        rw [there]
        simpa only [List.append_assoc] using ih front holds
      next => contradiction

/-- Words do not stand in order where one group of them does not occur. -/
theorem holdsInOrder_eq_false {groups : List (List String)} {words : List String}
    (member : words ∈ groups) {text : List Char}
    (absent : ∀ word ∈ words, afterFirst? word.toList text = none)
    : holdsInOrder groups text = false := by
  induction groups generalizing text with
  | nil => contradiction
  | cons first groups ih =>
      unfold holdsInOrder
      split
      next rest found =>
        have missing : words ≠ first := by
          rintro rfl
          rw [afterEarliest?_eq_none_iff.2 absent] at found
          contradiction
        refine ih ((List.mem_cons.1 member).resolve_left missing) fun word inside => ?_
        cases here : afterFirst? word.toList rest with
        | none => rfl
        | some later =>
            obtain ⟨before, rfl⟩ := suffix_of_afterEarliest? found
            obtain ⟨_, there, _⟩ := afterFirst?_mono before [] here
            rw [List.append_nil, absent word inside] at there
            contradiction
      next => rfl

/-- A word does not occur in a joined text whose pieces avoid it. -/
theorem avoidsAll_intercalate {words : List String} {separator : List Char}
    {pieces : List (List Char)} (between : avoidsAll words separator = true)
    (all : ∀ piece ∈ pieces, avoidsAll words piece = true)
    : avoidsAll words (separator.intercalate pieces) = true := by
  induction pieces with
  | nil => simp [avoidsAll, avoids]
  | cons first pieces ih =>
      have later := ih fun piece member => all piece (List.mem_cons_of_mem _ member)
      cases pieces with
      | nil => simpa using all first (by simp)
      | cons next pieces =>
          rw [List.intercalate_cons_cons]
          exact avoidsAll_append (avoidsAll_append (all first (by simp)) between) later

end Phrase

end Screener
