import Mathlib.Data.List.DropRight
import Screener.Proofs.Phrase.Numbers
import Screener.Proofs.Phrase.Sequence

/-!
Clauses of a text do not disturb each other. A number phrase that has started does not go on past
a comma, and words in order do not go on past the end of a line, so a text that is joined at such
a mark says what its parts say; and the blanks around a text say nothing.
-/

namespace Screener.Phrase

open Text Decimal

-----------------------------------------------------------------------------------------
-- Case
-----------------------------------------------------------------------------------------

theorem folded_append (ignoreCase : Bool) {c : Char} (apart : keepsApart c = true)
    (text rest : List Char)
    : folded ignoreCase (text ++ c :: rest)
      = folded ignoreCase text ++ c :: folded ignoreCase rest := by
  cases ignoreCase with
  | false => rfl
  | true => exact lower_append apart text rest

/-- The blanks around a text stay around it whatever the case that is looked at. -/
theorem exists_gaps_of_folded (ignoreCase : Bool) (text : List Char)
    : ∃ gap space, folded ignoreCase text = gap ++ folded ignoreCase (trim text) ++ space
        ∧ (∀ c ∈ gap, isBlank c = true) ∧ ∀ c ∈ space, isBlank c = true := by
  obtain ⟨gap, space, whole, left, right⟩ := exists_gaps_of_trim text
  refine ⟨gap, space, ?_, left, right⟩
  cases ignoreCase with
  | false => exact whole
  | true =>
      have lowered := lower_gaps left right (trim text)
      rwa [← whole] at lowered

-----------------------------------------------------------------------------------------
-- Words before a tail
-----------------------------------------------------------------------------------------

/-- A word that cannot go on into a tail is found before it or not at all. -/
theorem afterWord?_append {word tail : List Char} (stop : ∀ c ∈ tail.head?, c ∉ word)
    (text : List Char)
    : afterWord? word (text ++ tail) = (afterWord? word text).map (· ++ tail) := by
  induction word generalizing text with
  | nil => rfl
  | cons w word ih =>
      cases text with
      | nil =>
          cases tail with
          | nil => rfl
          | cons c tail =>
              have other : w ≠ c := by
                rintro rfl
                exact stop w rfl List.mem_cons_self
              simp [afterWord?, other]
      | cons c text =>
          have later := ih fun d head member => stop d head (List.mem_cons_of_mem w member)
          rw [List.cons_append, afterWord?, afterWord?]
          split
          next => exact later text
          next => rfl

theorem afterAnyOf?_append {words : List String} {tail : List Char}
    (stop : ∀ word ∈ words, ∀ c ∈ tail.head?, c ∉ word.toList) (text : List Char)
    : afterAnyOf? words (text ++ tail) = (afterAnyOf? words text).map (· ++ tail) := by
  induction words with
  | nil => rfl
  | cons word words ih =>
      have later := ih fun other member => stop other (List.mem_cons_of_mem word member)
      unfold afterAnyOf? at later ⊢
      rw [List.findSome?_cons, List.findSome?_cons,
        afterWord?_append (stop word List.mem_cons_self)]
      cases afterWord? word.toList text with
      | none => exact later
      | some rest => rfl

/-- A text avoids words that have none of its characters. -/
theorem avoidsAll_of_foreign {words : List String} {text : List Char}
    (some : ∀ word ∈ words, word.toList ≠ [])
    (foreign : ∀ c ∈ text, ∀ word ∈ words, c ∉ word.toList)
    : avoidsAll words text = true := by
  rw [avoidsAll, List.all_eq_true]
  intro word member
  refine avoids_of_forall fun c inside => ?_
  have other := foreign c inside word member
  cases letters : word.toList with
  | nil => exact absurd letters (some word member)
  | cons w rest =>
      rw [letters] at other
      simp [clashes, (List.ne_of_not_mem_cons other).symm]

-----------------------------------------------------------------------------------------
-- Numbers before a tail
-----------------------------------------------------------------------------------------

theorem spanDigits_append_tail {tail : List Char}
    (stop : ∀ c ∈ tail.head?, isDigit c = false) (text : List Char)
    : spanDigits (text ++ tail) = ((spanDigits text).1, (spanDigits text).2 ++ tail) := by
  obtain ⟨digits, rest, span, rfl, all, last⟩ := exists_spanDigits text
  rw [span, List.append_assoc, spanDigits_append all]
  cases rest with
  | nil => exact stop
  | cons c rest => exact last

/-- A tail that starts with neither a digit nor a point adds nothing to a number. -/
theorem decimalParts?_append {tail : List Char} (ends : Ends tail) (text : List Char)
    : decimalParts? (text ++ tail) = decimalParts? text := by
  have span := spanDigits_append_tail fun c head => (ends c head).1
  unfold decimalParts?
  rw [span text]
  obtain ⟨whole, behind⟩ := spanDigits text
  cases behind with
  | nil =>
      cases tail with
      | nil => rfl
      | cons c tail => simp [(ends c rfl).2]
  | cons c rest =>
      by_cases point : c = '.'
      · subst point
        simp [span rest]
      · simp [point]

theorem unsigned?_append {tail : List Char} (ends : Ends tail) (negative : Bool)
    (text : List Char)
    : unsigned? negative (text ++ tail) = unsigned? negative text := by
  rw [unsigned?, unsigned?, decimalParts?_append ends]

theorem signed?_append_tail {tail : List Char} (ends : Ends tail)
    (other : ∀ c ∈ tail.head?, c ≠ '+' ∧ c ≠ '-') (text : List Char)
    : signed? (text ++ tail) = signed? text := by
  have read := unsigned?_append ends
  cases text with
  | nil =>
      rw [List.nil_append, signed?_of_ne other]
      exact read false []
  | cons c text =>
      by_cases plus : c = '+'
      · subst plus
        exact read false text
      by_cases minus : c = '-'
      · subst minus
        exact read true text
      have none (text : List Char) : ∀ d ∈ (c :: text).head?, d ≠ '+' ∧ d ≠ '-' := by
        rintro d ⟨⟩
        exact ⟨plus, minus⟩
      rw [List.cons_append, signed?_of_ne (none _), signed?_of_ne (none _)]
      exact read false (c :: text)

namespace NumberPhrase

-----------------------------------------------------------------------------------------
-- Number phrases before a tail
-----------------------------------------------------------------------------------------

/-- The words of a phrase. -/
def words : NumberPhrase → List String
  | .bounded keywords comparisons _ => keywords ++ comparisons
  | .signed keywords => keywords

theorem mem_words_of_mem_keywords {phrase : NumberPhrase} {word : String}
    (member : word ∈ phrase.keywords)
    : word ∈ phrase.words := by
  cases phrase with
  | bounded keywords comparisons ignoreCase => exact List.mem_append_left comparisons member
  | signed keywords => exact member

/-- The character stands neither in a word of the phrase nor in a number. -/
structure Foreign (phrase : NumberPhrase) (c : Char) : Prop where
  number : c ∉ '+' :: numerals
  word : ∀ word ∈ phrase.words, c ∉ word.toList

/-- No part of the phrase goes on into the tail, with or without blanks before it. -/
structure Bars (phrase : NumberPhrase) (tail : List Char) : Prop where
  head : ∀ c ∈ tail.head?, phrase.Foreign c
  solid : ∀ c ∈ (trimStart tail).head?, phrase.Foreign c

variable {phrase : NumberPhrase} {tail : List Char}

theorem Foreign.ne {c d : Char} (foreign : phrase.Foreign c) (member : d ∈ '+' :: numerals)
    : c ≠ d := by
  rintro rfl
  exact foreign.number member

theorem Bars.stop (bars : phrase.Bars tail)
    : ∀ word ∈ phrase.words, ∀ c ∈ tail.head?, c ∉ word.toList :=
  fun word member c head => (bars.head c head).word word member

theorem Bars.ends (bars : phrase.Bars tail) : Ends tail := by
  intro c head
  have foreign := bars.head c head
  refine ⟨?_, foreign.ne (by decide)⟩
  cases digit : isDigit c with
  | false => rfl
  | true =>
      have member := List.mem_cons_of_mem '+' (mem_numerals_of_isDigit digit)
      exact absurd rfl (foreign.ne member)

/-- Blanks are taken off a text before a tail, and off the tail if there is nothing else. -/
theorem Bars.exists_trimStart_append (bars : phrase.Bars tail) (text : List Char)
    : ∃ tail', phrase.Bars tail' ∧ trimStart (text ++ tail) = trimStart text ++ tail' := by
  unfold trimStart
  rw [List.dropWhile_append]
  split
  next none =>
    refine ⟨trimStart tail, ⟨bars.solid, ?_⟩, ?_⟩
    · rw [trimStart, trimStart, List.dropWhile_idempotent isBlank tail]
      exact bars.solid
    · rw [List.isEmpty_iff.1 none]
      rfl
  next => exact ⟨tail, bars, rfl⟩

theorem Bars.exists_afterLead?_append (bars : phrase.Bars tail) (text : List Char)
    : ∃ tail', phrase.Bars tail'
        ∧ phrase.afterLead? (text ++ tail) = (phrase.afterLead? text).map (· ++ tail') := by
  cases phrase with
  | bounded keywords comparisons ignoreCase =>
      have first := afterAnyOf?_append fun word member =>
        bars.stop word (List.mem_append_left comparisons member)
      rw [afterLead?, afterLead?, first]
      cases afterAnyOf? keywords text with
      | none => exact ⟨tail, bars, rfl⟩
      | some rest =>
          -- Behind each word the tail may lose the blanks that it starts with.
          obtain ⟨tail, bars, start⟩ := bars.exists_trimStart_append rest
          have second := afterAnyOf?_append fun word member =>
            bars.stop word (List.mem_append_right keywords member)
          simp only [Option.map_some, Option.bind_some]
          rw [start, second]
          cases afterAnyOf? comparisons (trimStart rest) with
          | none => exact ⟨tail, bars, rfl⟩
          | some rest =>
              obtain ⟨tail, bars, start⟩ := bars.exists_trimStart_append rest
              exact ⟨tail, bars, congrArg some start⟩
  | signed keywords =>
      have stop : ∀ word ∈ keywords, ∀ c ∈ tail.head?, c ∉ word.toList := bars.stop
      rw [afterLead?, afterLead?, afterAnyOf?_append stop]
      cases afterAnyOf? keywords text with
      | none => exact ⟨tail, bars, rfl⟩
      | some rest =>
          obtain ⟨tail, bars, start⟩ := bars.exists_trimStart_append rest
          exact ⟨tail, bars, congrArg some start⟩

theorem Bars.number?_append (bars : phrase.Bars tail) (text : List Char)
    : phrase.number? (text ++ tail) = phrase.number? text := by
  cases phrase with
  | bounded keywords comparisons ignoreCase => exact unsigned?_append bars.ends false text
  | signed keywords =>
      refine signed?_append_tail bars.ends (fun c head => ?_) text
      have foreign := bars.head c head
      exact ⟨foreign.ne (by decide), foreign.ne (by decide)⟩

/-- At a place before a tail a phrase finds what it finds without the tail. -/
theorem Bars.at?_append (bars : phrase.Bars tail) (text : List Char)
    : phrase.at? (text ++ tail) = phrase.at? text := by
  obtain ⟨tail', bars', behind⟩ := bars.exists_afterLead?_append text
  rw [at?_eq, at?_eq, behind]
  cases phrase.afterLead? text with
  | none => rfl
  | some rest => exact bars'.number?_append rest

/-- The first place with a number is before the tail, or else in it. -/
theorem Bars.leftmost?_append (bars : phrase.Bars tail) (text : List Char)
    : leftmost? phrase.at? (text ++ tail)
      = (leftmost? phrase.at? text <|> leftmost? phrase.at? tail) := by
  induction text with
  | nil => rfl
  | cons c text ih =>
      have here := bars.at?_append (c :: text)
      rw [List.cons_append] at here ⊢
      rw [leftmost?, leftmost?, here, ih]
      cases phrase.at? (c :: text) <;> rfl

end NumberPhrase

-----------------------------------------------------------------------------------------
-- Commas and blanks
-----------------------------------------------------------------------------------------

/-- The word can be told from what stands around it: it is not empty, and has neither blanks nor
commas.
-/
structure Solid (word : String) : Prop where
  some : word.toList ≠ []
  solid : ∀ c ∈ word.toList, isBlank c = false
  comma : '，' ∉ word.toList

theorem Solid.tight {word : String} (solid : Solid word) : Tight word.toList :=
  .of_forall solid.some solid.solid

namespace NumberPhrase

variable {phrase : NumberPhrase}

theorem foreign_of_isBlank (solid : ∀ word ∈ phrase.words, Solid word) {c : Char}
    (blank : isBlank c = true)
    : phrase.Foreign c := by
  refine ⟨fun member => ?_, fun word member inside => ?_⟩
  · simp [isBlank_of_mem_numerals member] at blank
  · simp [(solid word member).solid c inside] at blank

theorem foreign_comma (solid : ∀ word ∈ phrase.words, Solid word) : phrase.Foreign '，' :=
  ⟨by decide, fun word member => (solid word member).comma⟩

/-- A phrase is looked for behind characters that are foreign to it. -/
theorem leftmost?_of_foreign (solid : ∀ word ∈ phrase.words, Solid word) {text : List Char}
    (foreign : ∀ c ∈ text, phrase.Foreign c) (rest : List Char)
    : leftmost? phrase.at? (text ++ rest) = leftmost? phrase.at? rest := by
  refine leftmost?_append (avoidsAll_of_foreign ?_ ?_) rest
  · exact fun word member => (solid word (mem_words_of_mem_keywords member)).some
  · exact fun c inside word member =>
      (foreign c inside).word word (mem_words_of_mem_keywords member)

/-- A comma keeps phrases apart: the first text that has a number decides. -/
theorem scan_comma (solid : ∀ word ∈ phrase.words, Solid word) (a b : List Char)
    : phrase.scan (a ++ '，' :: b) = (phrase.scan a <|> phrase.scan b) := by
  have foreign := foreign_comma solid
  have bars (tail : List Char) : phrase.Bars ('，' :: tail) := by
    have only : ∀ c ∈ ('，' :: tail).head?, phrase.Foreign c := by
      rintro _ ⟨⟩
      exact foreign
    exact ⟨only, only⟩
  have behind := leftmost?_of_foreign solid (List.forall_mem_singleton.2 foreign)
  simp only [scan_eq, List.singleton_append] at behind ⊢
  rw [folded_append phrase.ignoreCase (keepsApart_of_inRanges (by decide)),
    (bars _).leftmost?_append, behind]

/-- The blanks around a text have no number, and no number goes on into them. -/
theorem scan_trim (solid : ∀ word ∈ phrase.words, Solid word) (text : List Char)
    : phrase.scan (trim text) = phrase.scan text := by
  obtain ⟨gap, space, whole, left, right⟩ := exists_gaps_of_folded phrase.ignoreCase text
  have foreign {c : Char} : isBlank c = true → phrase.Foreign c := foreign_of_isBlank solid
  have bars : phrase.Bars space := by
    refine ⟨fun c head => foreign (right c (List.mem_of_mem_head? head)), ?_⟩
    rw [trimStart, List.dropWhile_eq_nil_iff.2 right]
    simp
  have none : leftmost? phrase.at? space = none := by
    have passed := leftmost?_of_foreign solid (fun c member => foreign (right c member)) []
    rwa [List.append_nil] at passed
  rw [scan_eq, scan_eq, whole, List.append_assoc,
    leftmost?_of_foreign solid fun c member => foreign (left c member), bars.leftmost?_append,
    none]
  cases leftmost? phrase.at? (folded phrase.ignoreCase (trim text)) <;> rfl

end NumberPhrase

-----------------------------------------------------------------------------------------
-- Lines and blanks
-----------------------------------------------------------------------------------------

/-- Words without blanks that stand in order between blanks stand in order without them. By
induction on the groups, each with the blanks that are left before it.
-/
theorem holdsInOrder_of_gaps {groups : List (List String)}
    (solid : ∀ word ∈ groups.flatten, Solid word) {gap text space : List Char}
    (left : ∀ c ∈ gap, isBlank c = true) (right : ∀ c ∈ space, isBlank c = true)
    (holds : holdsInOrder groups (gap ++ text ++ space) = true)
    : holdsInOrder groups text = true := by
  induction groups generalizing gap text with
  | nil => rfl
  | cons words groups ih =>
      obtain ⟨word, member, before, rest, whole, next⟩ := exists_of_holdsInOrder holds
      have tight := (solid word (by simp [member])).tight
      obtain ⟨front, back, rfl, rfl, rfl⟩ := tight.exists_of_gaps left right whole
      have others : ∀ word ∈ groups.flatten, Solid word :=
        fun word inside => solid word (List.mem_append_right words inside)
      have later := ih others (List.forall_mem_nil _) next
      obtain ⟨taken, found, _, behind⟩ := holdsInOrder_afterEarliest? front member later
      rw [holdsInOrder, found]
      exact behind

namespace WordSequence

/-- Words are found in order just if some segment without a line break has them so. -/
theorem scan_iff_segment {sequence : WordSequence} {text : List Char}
    : sequence.scan text = true
      ↔ ∃ segment, segment <:+: folded sequence.ignoreCase text
          ∧ (∀ c ∈ segment, isLineBreak c = false)
          ∧ holdsInOrder sequence.groups segment = true := by
  rw [scan, List.any_eq_true]
  constructor
  · rintro ⟨line, member, holds⟩
    obtain ⟨inside, unbroken⟩ := of_mem_splitOnP member
    exact ⟨line, inside, unbroken, holds⟩
  · rintro ⟨segment, inside, unbroken, holds⟩
    obtain ⟨line, member, before, after, rfl⟩ := exists_mem_splitOnP inside unbroken
    exact ⟨_, member, holdsInOrder_mono before after holds⟩

/-- The end of a line keeps words apart. -/
theorem scan_lines (sequence : WordSequence) (a b : List Char)
    : sequence.scan (a ++ '\n' :: b) = (sequence.scan a || sequence.scan b) := by
  rw [scan, scan, scan, folded_append sequence.ignoreCase (keepsApart_of_isBlank rfl),
    List.splitOnP_append_cons _ _ (by decide), List.any_append]

/-- The blanks around a text add nothing to its words: a segment with words in order has them
between the blanks at its own ends, and what is left stands inside the text without blanks.
-/
theorem scan_trim {sequence : WordSequence}
    (solid : ∀ word ∈ sequence.groups.flatten, Solid word) (text : List Char)
    : sequence.scan (trim text) = sequence.scan text := by
  obtain ⟨gap, space, whole, left, right⟩ := exists_gaps_of_folded sequence.ignoreCase text
  rw [Bool.eq_iff_iff, scan_iff_segment, scan_iff_segment]
  constructor
  · rintro ⟨segment, inside, holds⟩
    exact ⟨segment, inside.trans ⟨gap, space, whole.symm⟩, holds⟩
  · rintro ⟨segment, inside, unbroken, holds⟩
    obtain ⟨before, after, segment_eq, blank, blanks⟩ := exists_gaps_of_trim segment
    have part : trim segment <:+: segment := ⟨before, after, segment_eq.symm⟩
    rw [segment_eq] at holds
    refine ⟨trim segment, ?_, fun c member => unbroken c (part.subset member),
      holdsInOrder_of_gaps solid blank blanks holds⟩
    by_cases none : trim segment = []
    · rw [none]
      exact List.nil_infix
    · obtain ⟨first, last, around⟩ := part.trans inside
      obtain ⟨front, back, _, _, inner⟩ :=
        (tight_trim none).exists_of_gaps left right (whole.symm.trans around.symm)
      exact ⟨front, back, inner.symm⟩

end WordSequence

-----------------------------------------------------------------------------------------
-- The rules
-----------------------------------------------------------------------------------------

/-- The words of a clause. -/
def Clause.words : Clause → List String
  | .limit _ phrase => phrase.words
  | .trigger _ sequence | .exit _ sequence => sequence.groups.flatten

/-- The words of the rules are told from what stands around them. -/
theorem solid_of_mem_rules : ∀ rule ∈ rules, ∀ word ∈ rule.clause.words, Solid word := by
  have all : rules.all (fun rule => rule.clause.words.all fun word =>
      !word.toList.isEmpty && word.toList.all fun c => !isBlank c && c != '，') = true := by
    decide
  intro rule member word inside
  have own := List.all_eq_true.1 (List.all_eq_true.1 all rule member) word inside
  simp only [Bool.and_eq_true, Bool.not_eq_true', List.isEmpty_eq_false_iff, List.all_eq_true,
    bne_iff_ne] at own
  exact ⟨own.1, fun c letter => (own.2 c letter).1, fun comma => (own.2 _ comma).2 rfl⟩

namespace Rule

variable {rule : Rule}

/-- The blanks around a text say nothing to a rule. -/
theorem scan_trim (member : rule ∈ rules) (text : List Char)
    : rule.scan (trim text) = rule.scan text := by
  have solid := solid_of_mem_rules rule member
  cases clause : rule.clause with
  | limit part phrase =>
      rw [clause] at solid
      simp only [scan, clause, NumberPhrase.scan_trim solid]
  | trigger trigger sequence | exit pattern sequence =>
      rw [clause] at solid
      simp only [scan, clause, WordSequence.scan_trim solid]

end Rule

/-- Texts do not disturb each other. A comma between two texts keeps the numbers of a limit
apart, and what the first text says goes first; a line break between them keeps words in order
apart; and blanks around a text say nothing to any rule, so that the rules that find something
in a text as it is given are those that are reported.
-/
theorem scan_joined
    : (∀ rule ∈ rules, (∃ part phrase, rule.clause = .limit part phrase) → ∀ a b,
          rule.scan (a ++ '，' :: b) = (rule.scan a <|> rule.scan b))
      ∧ (∀ rule ∈ rules, (∀ part phrase, rule.clause ≠ .limit part phrase) → ∀ a b,
          (rule.scan (a ++ '\n' :: b)).isSome ↔ (rule.scan a).isSome ∨ (rule.scan b).isSome)
      ∧ (∀ rule ∈ rules, ∀ text, rule.scan (trim text) = rule.scan text)
      ∧ ∀ text : String, matchedRules text
          = (rules.filter fun rule => (rule.scan text.toList).isSome).map Rule.name := by
  refine ⟨?_, ?_, fun rule member text => Rule.scan_trim member text, fun text => ?_⟩
  · rintro rule member ⟨part, phrase, clause⟩ a b
    have solid := solid_of_mem_rules rule member
    rw [clause] at solid
    simp only [Rule.scan, clause, NumberPhrase.scan_comma solid]
    cases phrase.scan a <;> rfl
  · intro rule member other a b
    have found (sequence : WordSequence) (text : List Char)
        : (if sequence.scan text then some Hit.words else none).isSome
          ↔ sequence.scan text = true := by
      simp
    cases clause : rule.clause with
    | limit part phrase => exact absurd clause (other part phrase)
    | trigger _ sequence | exit _ sequence =>
        simp only [Rule.scan, clause]
        rw [found, found, found, sequence.scan_lines, Bool.or_eq_true]
  · refine congrArg (List.map Rule.name) (List.filter_congr fun rule member => ?_)
    rw [Rule.scan_trim member]

end Screener.Phrase
