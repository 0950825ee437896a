import Mathlib.Data.List.Chain
import Mathlib.Data.List.Forall2
import Screener.Proofs.Phrase.Scanning

/-!
Words in order are found wherever they stand. Of the words of a group the scan takes the one
that ends first and never comes back, yet no other word and no later place leads to a match
that it misses.
-/

namespace Screener.Phrase

open Text (afterFirst? afterFirst?_of_append)

-----------------------------------------------------------------------------------------
-- Occurrences
-----------------------------------------------------------------------------------------

/-- A word at a place of a line. -/
structure Occurrence where
  word : String
  start : Nat
deriving DecidableEq, Repr

namespace Occurrence

/-- The place behind the word. -/
def stop (o : Occurrence) : Nat := o.start + o.word.length

/-- The word stands in the line at its place. -/
def StandsIn (line : List Char) (o : Occurrence) : Prop := o.word.toList <+: line.drop o.start

end Occurrence

/-- One word of each group stands in the line, in the order of the groups, each where the one
before it ends or later.
-/
structure Chosen (groups : List (List String)) (line : List Char)
    (occurrences : List Occurrence) : Prop where
  words : List.Forall₂ (fun words o => o.word ∈ words) groups occurrences
  stands : ∀ o ∈ occurrences, o.StandsIn line
  apart : occurrences.IsChain fun o next => o.stop ≤ next.start

/-- What a line holds behind an occurrence is what follows the word there. -/
theorem Occurrence.StandsIn.drop_eq {line : List Char} {o : Occurrence}
    (stands : o.StandsIn line)
    : line.drop o.start = o.word.toList ++ line.drop o.stop := by
  obtain ⟨rest, whole⟩ := stands
  have behind : line.drop o.stop = rest := by
    rw [Occurrence.stop, ← List.drop_drop, ← whole, ← String.length_toList, List.drop_left]
  rw [behind, whole]

-----------------------------------------------------------------------------------------
-- The earliest end
-----------------------------------------------------------------------------------------

/-- Taking the word that ends first never loses a match: if the other groups are held behind
some word of the first, they are held behind that one.
-/
theorem holdsInOrder_afterEarliest? {words : List String} {word : String}
    {groups : List (List String)} {rest : List Char} (before : List Char)
    (member : word ∈ words) (holds : holdsInOrder groups rest = true)
    : ∃ taken, afterEarliest? words (before ++ word.toList ++ rest) = some taken
      ∧ rest <:+ taken ∧ holdsInOrder groups taken = true := by
  obtain ⟨found, here, inside⟩ := afterFirst?_of_append word.toList before rest
  cases earliest : afterEarliest? words (before ++ word.toList ++ rest) with
  | none =>
      rw [afterEarliest?_eq_none_iff.1 earliest word member] at here
      contradiction
  | some taken =>
      -- Both are ends of one line, so that the longer of them contains the other.
      have longest := (afterEarliest?_spec earliest).2 word member found here
      have suffix : rest <:+ taken := inside.trans (List.suffix_of_suffix_length_le
        (suffix_of_afterFirst? here) (suffix_of_afterEarliest? earliest) longest)
      refine ⟨taken, rfl, suffix, ?_⟩
      obtain ⟨front, rfl⟩ := suffix
      simpa only [List.append_nil] using holdsInOrder_mono front [] holds

/-- Chosen words are found from every place before the first of them. By induction on the
groups: behind the word that is chosen of a group, the others are found.
-/
theorem holdsInOrder_of_chosen {groups : List (List String)} {line : List Char}
    {occurrences : List Occurrence} (chosen : Chosen groups line occurrences) {place : Nat}
    (later : ∀ o ∈ occurrences.head?, place ≤ o.start)
    : holdsInOrder groups (line.drop place) = true := by
  obtain ⟨words, stands, apart⟩ := chosen
  induction words generalizing place with
  | nil => rfl
  | @cons words o groups occurrences member others ih =>
      obtain ⟨here, stands⟩ := List.forall_mem_cons.1 stands
      obtain ⟨next, apart⟩ := List.isChain_cons.1 apart
      have holds := ih next stands apart
      have front : line.drop place
          = (line.drop place).take (o.start - place) ++ o.word.toList ++ line.drop o.stop := by
        have start : place ≤ o.start := later o rfl
        rw [List.append_assoc, ← here.drop_eq, ← Nat.add_sub_cancel' start, ← List.drop_drop,
          Nat.add_sub_cancel_left, List.take_append_drop]
      obtain ⟨taken, earliest, _, rest⟩ :=
        holdsInOrder_afterEarliest? ((line.drop place).take (o.start - place)) member holds
      rw [front, holdsInOrder, earliest]
      exact rest

/-- What the scan takes is a choice of words, by induction on the groups. -/
theorem exists_chosen {groups : List (List String)} {line : List Char} {place : Nat}
    (holds : holdsInOrder groups (line.drop place) = true)
    : ∃ occurrences, Chosen groups line occurrences
      ∧ ∀ o ∈ occurrences.head?, place ≤ o.start := by
  induction groups generalizing place with
  | nil => exact ⟨[], ⟨.nil, List.forall_mem_nil _, .nil⟩, nofun⟩
  | cons words groups ih =>
      obtain ⟨word, member, before, rest, whole, next⟩ := exists_of_holdsInOrder holds
      have stands : line.drop (place + before.length) = word.toList ++ rest := by
        rw [← List.drop_drop, whole, List.append_assoc, List.drop_left]
      have behind : line.drop (place + before.length + word.length) = rest := by
        rw [← List.drop_drop, stands, ← String.length_toList, List.drop_left]
      rw [← behind] at next
      obtain ⟨occurrences, chosen, later⟩ := ih next
      refine ⟨⟨word, place + before.length⟩ :: occurrences,
        ⟨.cons member chosen.words, ?_, ?_⟩, ?_⟩
      · exact List.forall_mem_cons.2 ⟨⟨rest, stands.symm⟩, chosen.stands⟩
      · exact List.isChain_cons.2 ⟨later, chosen.apart⟩
      · rintro o first
        obtain rfl := Option.some.inj first
        exact Nat.le_add_right place before.length

-----------------------------------------------------------------------------------------
-- Lines
-----------------------------------------------------------------------------------------

/-- The first line of a text reaches to the first mark that ends a line, and the others are
segments of the text without such marks. By induction on the text.
-/
theorem exists_splitOnP (ends : Char → Bool) (text : List Char)
    : ∃ others, text.splitOnP ends = text.takeWhile (fun c => !ends c) :: others
      ∧ ∀ line ∈ others, line <:+: text ∧ ∀ c ∈ line, ends c = false := by
  induction text with
  | nil => exact ⟨[], rfl, List.forall_mem_nil _⟩
  | cons c text ih =>
      obtain ⟨others, lines, inside⟩ := ih
      have later : ∀ line ∈ others, line <:+: c :: text ∧ ∀ c ∈ line, ends c = false :=
        fun line member => (inside line member).imp_left List.infix_cons
      rw [List.splitOnP_cons_eq_if_modifyHead, lines]
      cases ended : ends c with
      | true =>
          have next := List.infix_cons (a := c)
            (List.takeWhile_prefix (l := text) fun c => !ends c).isInfix
          refine ⟨text.takeWhile (fun c => !ends c) :: others, by simp [ended], ?_⟩
          refine List.forall_mem_cons.2 ⟨⟨next, fun d member => ?_⟩, later⟩
          simpa using List.all_eq_true.1 List.all_takeWhile _ member
      | false => exact ⟨others, by simp [ended], later⟩

/-- A line of a text is a segment of it without the marks that end lines. -/
theorem of_mem_splitOnP {ends : Char → Bool} {line text : List Char}
    (member : line ∈ text.splitOnP ends)
    : line <:+: text ∧ ∀ c ∈ line, ends c = false := by
  obtain ⟨others, lines, inside⟩ := exists_splitOnP ends text
  rw [lines] at member
  rcases List.mem_cons.1 member with rfl | member
  · refine ⟨(List.takeWhile_prefix _).isInfix, fun c member => ?_⟩
    simpa using List.all_eq_true.1 List.all_takeWhile _ member
  · exact inside line member

/-- A segment without marks that end lines stands in one line, by induction on the text that
comes before it.
-/
theorem exists_mem_splitOnP {ends : Char → Bool} {segment text : List Char}
    (inside : segment <:+: text) (unbroken : ∀ c ∈ segment, ends c = false)
    : ∃ line ∈ text.splitOnP ends, segment <:+: line := by
  obtain ⟨before, after, rfl⟩ := inside
  induction before with
  | nil =>
      obtain ⟨others, lines, _⟩ := exists_splitOnP ends (segment ++ after)
      refine ⟨_, lines ▸ List.mem_cons_self, ?_⟩
      rw [List.takeWhile_append_of_pos fun c member => by simp [unbroken c member]]
      exact (List.prefix_append segment _).isInfix
  | cons c before ih =>
      obtain ⟨line, member, inside⟩ := ih
      obtain ⟨others, lines, _⟩ := exists_splitOnP ends (before ++ segment ++ after)
      rw [List.cons_append, List.cons_append, List.splitOnP_cons_eq_if_modifyHead]
      rw [lines] at member ⊢
      split
      next => exact ⟨line, List.mem_cons_of_mem _ member, inside⟩
      next =>
        rcases List.mem_cons.1 member with rfl | member
        · exact ⟨_, List.mem_cons_self, List.infix_cons inside⟩
        · exact ⟨line, List.mem_cons_of_mem _ member, inside⟩

theorem isLineBreak_eq_false_iff {c : Char}
    : isLineBreak c = false ↔ c ∉ ['\n', '\r', '\u2028', '\u2029'] := by
  simp [isLineBreak, and_assoc]

/-- A sequence of words is found in a text just if one word of each group can be chosen within
a segment that has no line break, in the order of the groups and without an overlap. So the
word that ends first is never a wrong choice: if the groups to come are held behind some place
of some word, they are held behind the first end of any.
-/
theorem scan_iff_chosen (sequence : WordSequence) (text : List Char)
    : (sequence.scan text = true
        ↔ ∃ segment occurrences,
            segment <:+: folded sequence.ignoreCase text
            ∧ (∀ c ∈ segment, c ∉ ['\n', '\r', '\u2028', '\u2029'])
            ∧ Chosen sequence.groups segment occurrences)
      ∧ ∀ words word groups before rest, word ∈ words → holdsInOrder groups rest = true →
          ∃ taken, afterEarliest? words (before ++ word.toList ++ rest) = some taken
            ∧ rest <:+ taken ∧ holdsInOrder groups taken = true := by
  refine ⟨?_, fun words word groups before rest => holdsInOrder_afterEarliest? before⟩
  simp only [← isLineBreak_eq_false_iff]
  rw [WordSequence.scan, List.any_eq_true]
  constructor
  · rintro ⟨line, member, holds⟩
    obtain ⟨inside, unbroken⟩ := of_mem_splitOnP member
    rw [← List.drop_zero (l := line)] at holds
    obtain ⟨occurrences, chosen, _⟩ := exists_chosen holds
    exact ⟨line, occurrences, inside, unbroken, chosen⟩
  · rintro ⟨segment, occurrences, inside, unbroken, chosen⟩
    obtain ⟨line, member, before, after, rfl⟩ := exists_mem_splitOnP inside unbroken
    have holds := holdsInOrder_of_chosen chosen fun o _ => Nat.zero_le o.start
    exact ⟨_, member, holdsInOrder_mono before after holds⟩

end Screener.Phrase
