import Screener.Phrase.Rule
import Screener.Proofs.Decimal.Spelling
import Screener.Proofs.Phrase.Scanning

/-!
Number phrases are found just where a text holds a fragment of their grammar: a keyword, for a
bounded phrase a comparison, then a numeral, with blanks between them. The scan takes the first
word that fits and never comes back, yet it misses no fragment; the leftmost one with its
longest numeral gives the number.
-/

namespace Screener.Phrase

open Text Decimal

-- Unification must not try to evaluate magnitudes.
attribute [local irreducible] Binary64.ofDecimal

-----------------------------------------------------------------------------------------
-- Numerals at the start of a text
-----------------------------------------------------------------------------------------

/-- Digits are taken up to a character that is none. -/
theorem exists_spanDigits (text : List Char)
    : ∃ digits rest, spanDigits text = (digits, rest) ∧ text = digits ++ rest
        ∧ (∀ c ∈ digits, isDigit c = true) ∧ ∀ c ∈ rest.head?, isDigit c = false := by
  refine ⟨_, _, rfl, List.takeWhile_append_dropWhile.symm, ?_, ?_⟩
  · exact fun c member => List.all_eq_true.1 List.all_takeWhile c member
  · intro c head
    have stop := List.head?_dropWhile_not isDigit text
    rw [Option.mem_def.1 head] at stop
    simpa using stop

/-- The digits that are read at the start of a text are those of a numeral that stops there. -/
theorem exists_numeral_of_decimalParts? {text whole fraction : List Char} (sign : Sign)
    (read : decimalParts? text = some (whole, fraction))
    : ∃ (n : Numeral) (rest : List Char),
        n.sign = sign ∧ n.whole = whole ∧ n.fraction = fraction
        ∧ text = pointed whole fraction ++ rest ∧ n.Stops rest := by
  obtain ⟨digits, rest, span, rfl, all, stop⟩ := exists_spanDigits text
  unfold decimalParts? at read
  rw [span] at read
  dsimp only at read
  split at read
  · contradiction
  next filled =>
  obtain ⟨rfl, places⟩ := Prod.mk.inj (Option.some.inj read)
  have wholeDigits : AllDigits digits := ⟨by simpa using filled, all⟩
  split at places
  next after =>
    obtain ⟨taken, left, inner, rfl, more, last⟩ := exists_spanDigits after
    rw [inner] at places
    obtain rfl : taken = fraction := places
    by_cases none : taken = []
    · subst none
      refine ⟨⟨sign, digits, [], wholeDigits, nofun⟩, '.' :: left, rfl, rfl, rfl, ?_, stop, ?_⟩
      · simp [pointed]
      · rintro - c after same
        exact last c (by rw [(List.cons.inj same).2]; rfl)
    · refine ⟨⟨sign, digits, taken, wholeDigits, more⟩, left, rfl, rfl, rfl, ?_, last, ?_⟩
      · simp [pointed, none]
      · exact fun empty => absurd empty none
  next other =>
    subst places
    refine ⟨⟨sign, digits, [], wholeDigits, nofun⟩, rest, rfl, rfl, rfl, ?_, stop, ?_⟩
    · simp [pointed]
    · rintro - c after rfl
      exact absurd rfl (other (c :: after))

/-- An unsigned number that is read is a numeral at the start of the text. -/
theorem exists_numeral_of_unsigned? (sign : Sign) {text : List Char} {v : Binary64}
    (read : unsigned? sign.isNegative text = some v)
    : ∃ (n : Numeral) (rest : List Char),
        n.sign = sign ∧ text = pointed n.whole n.fraction ++ rest ∧ n.Stops rest
        ∧ n.value = v := by
  obtain ⟨⟨whole, fraction⟩, parts, rfl⟩ := Option.map_eq_some_iff.1 read
  obtain ⟨n, rest, rfl, rfl, rfl, whole, stops⟩ := exists_numeral_of_decimalParts? sign parts
  exact ⟨n, rest, rfl, whole, stops, rfl⟩

/-- Where a digit stands a number is read. -/
theorem exists_unsigned? (negative : Bool) {c : Char} (text : List Char)
    (digit : isDigit c = true)
    : ∃ v, unsigned? negative (c :: text) = some v := by
  simp [unsigned?, decimalParts?, spanDigits, digit]

/-- A number that is read, under a sign or without one, is a numeral at the start of the text. -/
theorem exists_numeral_of_signed? {text : List Char} {v : Binary64}
    (read : signed? text = some v)
    : ∃ (n : Numeral) (rest : List Char),
        text = n.chars ++ rest ∧ n.Stops rest ∧ n.value = v := by
  have behind (sign : Sign) {body : List Char}
      (read : unsigned? sign.isNegative body = some v)
      : ∃ (n : Numeral) (rest : List Char),
          sign.chars ++ body = n.chars ++ rest ∧ n.Stops rest ∧ n.value = v := by
    obtain ⟨n, rest, rfl, rfl, stops, value⟩ := exists_numeral_of_unsigned? sign read
    exact ⟨n, rest, by rw [Numeral.chars, List.append_assoc], stops, value⟩
  unfold signed? at read
  split at read
  · exact behind .plus read
  · exact behind .minus read
  · exact behind .none read

-----------------------------------------------------------------------------------------
-- Words that are taken as they come
-----------------------------------------------------------------------------------------

/-- A word does not start where a later one stands with something behind it that may follow:
the two differ at a place, or the word goes on with a character that may not follow.
-/
def yields (follows : Char → Bool) : (word later : List Char) → Bool
  | c :: word, d :: later => c != d || yields follows word later
  | c :: _, [] => !follows c
  | [], _ => false

theorem afterWord?_of_yields {follows : Char → Bool} {word later rest : List Char}
    (yield : yields follows word later = true) (next : ∀ c ∈ rest.head?, follows c = true)
    : afterWord? word (later ++ rest) = none := by
  induction word generalizing later with
  | nil => simp [yields] at yield
  | cons c word ih =>
      cases later with
      | nil =>
          cases rest with
          | nil => rfl
          | cons d rest =>
              have other : c ≠ d := by
                rintro rfl
                simp [yields, next c rfl] at yield
              simp [afterWord?, other]
      | cons d later =>
          simp only [yields, Bool.or_eq_true, bne_iff_ne, ne_eq] at yield
          rw [List.cons_append, afterWord?]
          split
          next same => exact ih (yield.resolve_left (not_not_intro same))
          next => rfl

/-- Each word yields to those behind it in the list. -/
def InTurn (follows : Char → Bool) (words : List String) : Prop :=
  words.Pairwise fun word later => yields follows word.toList later.toList = true

instance (follows : Char → Bool) (words : List String) : Decidable (InTurn follows words) := by
  unfold InTurn; infer_instance

/-- Taking the first word that fits never loses another: where a word of the list stands it is
the one that is taken. By induction on the list.
-/
theorem InTurn.afterAnyOf? {follows : Char → Bool} {words : List String}
    (turn : InTurn follows words) {word : String} (member : word ∈ words) {rest : List Char}
    (next : ∀ c ∈ rest.head?, follows c = true)
    : afterAnyOf? words (word.toList ++ rest) = some rest := by
  induction words with
  | nil => contradiction
  | cons first words ih =>
      obtain ⟨before, turn⟩ := List.pairwise_cons.1 turn
      rw [Phrase.afterAnyOf?, List.findSome?_cons]
      rcases List.mem_cons.1 member with rfl | member
      · rw [afterWord?_eq_some_iff.2 rfl]
      · rw [afterWord?_of_yields (before word member) next]
        exact ih turn member

theorem exists_word_of_afterAnyOf? {words : List String} {text rest : List Char}
    (found : afterAnyOf? words text = some rest)
    : ∃ word ∈ words, text = word.toList ++ rest := by
  obtain ⟨word, member, here⟩ := List.exists_of_findSome?_eq_some found
  exact ⟨word, member, afterWord?_eq_some_iff.1 here⟩

/-- A text is its blanks at the start and what trimming leaves. -/
theorem exists_gap_of_trimStart (text : List Char)
    : ∃ gap, text = gap ++ trimStart text ∧ ∀ c ∈ gap, isBlank c = true :=
  ⟨text.takeWhile isBlank, List.takeWhile_append_dropWhile.symm,
    fun c member => List.all_eq_true.1 List.all_takeWhile c member⟩

theorem trimStart_gap {gap text : List Char} (blank : ∀ c ∈ gap, isBlank c = true)
    (solid : ∀ c ∈ text.head?, isBlank c = false)
    : trimStart (gap ++ text) = text := by
  rw [trimStart, List.dropWhile_append_of_pos blank]
  cases text with
  | nil => rfl
  | cons c text => exact trimStart_cons (solid c rfl) text

-----------------------------------------------------------------------------------------
-- The grammar of a phrase
-----------------------------------------------------------------------------------------

namespace NumberPhrase

/-- What stands before the number of a phrase: a keyword, in a bounded phrase a comparison, and
blanks behind each.
-/
inductive Leads : NumberPhrase → List Char → Prop
  | bounded {keywords comparisons : List String} {ignoreCase : Bool}
    {keyword comparison : String} {gap space : List Char} (key : keyword ∈ keywords)
    (between : ∀ c ∈ gap, isBlank c = true) (compared : comparison ∈ comparisons)
    (behind : ∀ c ∈ space, isBlank c = true)
    : Leads (.bounded keywords comparisons ignoreCase)
        (keyword.toList ++ gap ++ comparison.toList ++ space)
  | signed {keywords : List String} {keyword : String} {gap : List Char}
    (key : keyword ∈ keywords) (between : ∀ c ∈ gap, isBlank c = true)
    : Leads (.signed keywords) (keyword.toList ++ gap)

/-- The number of a bounded phrase has no sign. -/
def Signs : NumberPhrase → Sign → Prop
  | .bounded _ _ _, sign => sign = .none
  | .signed _, _ => True

/-- The text behind what leads to the number of a phrase. -/
def afterLead? : NumberPhrase → List Char → Option (List Char)
  | .bounded keywords comparisons _, text =>
    ((afterAnyOf? keywords text).bind fun text =>
      afterAnyOf? comparisons (trimStart text)).map trimStart
  | .signed keywords, text => (afterAnyOf? keywords text).map trimStart

/-- The number that a text starts with, as a phrase has it. -/
def number? : NumberPhrase → List Char → Option Binary64
  | .bounded _ _ _ => unsigned? false
  | .signed _ => signed?

theorem at?_eq (phrase : NumberPhrase) (text : List Char)
    : phrase.at? text = (phrase.afterLead? text).bind phrase.number? := by
  cases phrase with
  | bounded keywords comparisons ignoreCase =>
      simp only [at?, boundedAt?, afterLead?, number?]
      cases afterAnyOf? keywords text with
      | none => rfl
      | some text =>
          simp only [Option.bind_some, bind]
          cases afterAnyOf? comparisons (trimStart text) <;> rfl
  | signed keywords =>
      simp only [at?, signedAt?, afterLead?, number?]
      cases afterAnyOf? keywords text <;> rfl

theorem leads_of_afterLead? {phrase : NumberPhrase} {text rest : List Char}
    (found : phrase.afterLead? text = some rest)
    : ∃ lead, text = lead ++ rest ∧ phrase.Leads lead := by
  cases phrase with
  | bounded keywords comparisons ignoreCase =>
      obtain ⟨behind, words, rfl⟩ := Option.map_eq_some_iff.1 found
      obtain ⟨text, first, second⟩ := Option.bind_eq_some_iff.1 words
      obtain ⟨keyword, key, rfl⟩ := exists_word_of_afterAnyOf? first
      obtain ⟨comparison, compared, start⟩ := exists_word_of_afterAnyOf? second
      obtain ⟨gap, between, blank⟩ := exists_gap_of_trimStart text
      obtain ⟨space, last, blanks⟩ := exists_gap_of_trimStart behind
      refine ⟨_, ?_, .bounded key blank compared blanks⟩
      rw [List.append_assoc, ← last, List.append_assoc, ← start, List.append_assoc, ← between]
  | signed keywords =>
      obtain ⟨text, first, rfl⟩ := Option.map_eq_some_iff.1 found
      obtain ⟨keyword, key, rfl⟩ := exists_word_of_afterAnyOf? first
      obtain ⟨gap, between, blank⟩ := exists_gap_of_trimStart text
      refine ⟨_, ?_, .signed key blank⟩
      rw [List.append_assoc, ← between]

/-- The characters that the number of a phrase may start with. -/
def opens : NumberPhrase → Char → Bool
  | .bounded _ _ _, c => isDigit c
  | .signed _, c => isDigit c || c == '+' || c == '-'

/-- The words of a phrase are told apart by what may follow them. No keyword starts another
one, and a comparison does not start with a blank.
-/
def Definite : NumberPhrase → Prop
  | .bounded keywords comparisons _ =>
    InTurn (fun _ => true) keywords
      ∧ InTurn (fun c => isBlank c || isDigit c) comparisons
      ∧ ∀ comparison ∈ comparisons, comparison.toList.head?.any (fun c => !isBlank c) = true
  | .signed keywords => InTurn (fun _ => true) keywords

instance (phrase : NumberPhrase) : Decidable phrase.Definite := by
  cases phrase <;> unfold Definite <;> infer_instance

/-- Neither a numeral nor a sign is a blank. -/
theorem isBlank_of_mem_numerals {c : Char} (member : c ∈ '+' :: numerals) : isBlank c = false := by
  have all : ('+' :: numerals).all (fun c => !isBlank c) = true := by decide
  simpa using List.all_eq_true.1 all c member

theorem isBlank_of_opens {phrase : NumberPhrase} {c : Char} (opened : phrase.opens c = true)
    : isBlank c = false := by
  refine isBlank_of_mem_numerals ?_
  cases phrase with
  | bounded _ _ _ => exact List.mem_cons_of_mem _ (mem_numerals_of_isDigit opened)
  | signed _ =>
      simp only [opens, Bool.or_eq_true, beq_iff_eq] at opened
      rcases opened with (digit | rfl) | rfl
      · exact List.mem_cons_of_mem _ (mem_numerals_of_isDigit digit)
      · exact List.mem_cons_self
      · decide

/-- Whatever leads to a number is passed as it is written. -/
theorem Leads.afterLead? {phrase : NumberPhrase} {lead rest : List Char}
    (leads : phrase.Leads lead) (definite : phrase.Definite)
    (next : ∀ c ∈ rest.head?, phrase.opens c = true)
    : phrase.afterLead? (lead ++ rest) = some rest := by
  have solid : ∀ c ∈ rest.head?, isBlank c = false :=
    fun c head => isBlank_of_opens (next c head)
  cases leads with
  | @bounded keywords comparisons ignoreCase keyword comparison gap space key between compared
      behind =>
      obtain ⟨keys, comparing, starts⟩ := definite
      have start : ∀ c ∈ (comparison.toList ++ (space ++ rest)).head?, isBlank c = false := by
        intro c head
        have first := starts comparison compared
        cases letters : comparison.toList with
        | nil => simp [letters] at first
        | cons d others =>
            rw [letters] at head first
            obtain rfl := Option.some.inj head
            simpa using first
      have follows : ∀ c ∈ (space ++ rest).head?, (isBlank c || isDigit c) = true := by
        intro c head
        cases space with
        | nil => simp [show isDigit c = true from next c head]
        | cons d others =>
            obtain rfl := Option.some.inj head
            simp [behind d List.mem_cons_self]
      simp only [NumberPhrase.afterLead?, List.append_assoc]
      rw [keys.afterAnyOf? key fun _ _ => rfl, Option.bind_some, trimStart_gap between start,
        comparing.afterAnyOf? compared follows, Option.map_some, trimStart_gap behind solid]
  | signed key between =>
      simp only [NumberPhrase.afterLead?, List.append_assoc]
      rw [InTurn.afterAnyOf? definite key fun _ _ => rfl, Option.map_some,
        trimStart_gap between solid]

-----------------------------------------------------------------------------------------
-- Numbers behind a lead
-----------------------------------------------------------------------------------------

theorem opens_head {phrase : NumberPhrase} {n : Numeral} (signs : phrase.Signs n.sign)
    (rest : List Char)
    : ∀ c ∈ (n.chars ++ rest).head?, phrase.opens c = true := by
  obtain ⟨d, front, start, first⟩ := n.exists_head
  rintro c head
  unfold Numeral.chars at head
  rw [start] at head
  cases phrase with
  | bounded _ _ _ =>
      rw [show n.sign = .none from signs] at head
      obtain rfl := Option.some.inj head
      exact first
  | signed _ =>
      cases sign : n.sign <;> rw [sign] at head <;> obtain rfl := Option.some.inj head
      · simp [opens, first]
      · rfl
      · rfl

theorem exists_numeral_of_number? {phrase : NumberPhrase} {text : List Char} {v : Binary64}
    (read : phrase.number? text = some v)
    : ∃ (n : Numeral) (rest : List Char),
        phrase.Signs n.sign ∧ text = n.chars ++ rest ∧ n.Stops rest ∧ n.value = v := by
  cases phrase with
  | bounded _ _ _ =>
      obtain ⟨n, rest, none, whole, stops, value⟩ := exists_numeral_of_unsigned? .none read
      refine ⟨n, rest, none, ?_, stops, value⟩
      rw [Numeral.chars, none]
      exact whole
  | signed _ =>
      obtain ⟨n, rest, whole, stops, value⟩ := exists_numeral_of_signed? read
      exact ⟨n, rest, trivial, whole, stops, value⟩

/-- Where a numeral stands a number is read, the longest that stands there. -/
theorem exists_number? {phrase : NumberPhrase} {n : Numeral} (signs : phrase.Signs n.sign)
    (rest : List Char)
    : ∃ v, phrase.number? (n.chars ++ rest) = some v := by
  obtain ⟨c, front, start, first⟩ := n.exists_head
  have read (negative : Bool)
      : ∃ v, unsigned? negative (pointed n.whole n.fraction ++ rest) = some v := by
    rw [start]
    exact exists_unsigned? negative _ first
  cases phrase with
  | bounded _ _ _ =>
      rw [Numeral.chars, show n.sign = .none from signs]
      exact read false
  | signed _ =>
      simp only [number?, signed?_append]
      exact read _

-----------------------------------------------------------------------------------------
-- Fragments
-----------------------------------------------------------------------------------------

/-- A place of a text where a phrase stands: what leads to its number, and a numeral. -/
structure Fragment (phrase : NumberPhrase) (text : List Char) where
  before : List Char
  lead : List Char
  numeral : Numeral
  after : List Char
  whole : text = before ++ (lead ++ (numeral.chars ++ after))
  leads : phrase.Leads lead
  signs : phrase.Signs numeral.sign

namespace Fragment

variable {phrase : NumberPhrase} {text : List Char}

/-- No fragment starts to the left. -/
def Leftmost (f : Fragment phrase text) : Prop :=
  ∀ other : Fragment phrase text, f.before.length ≤ other.before.length

/-- No fragment that starts at the same place has a longer numeral. -/
def Longest (f : Fragment phrase text) : Prop :=
  ∀ other : Fragment phrase text, other.before.length = f.before.length →
    other.numeral.chars.length ≤ f.numeral.chars.length

/-- What a phrase looks at behind a place. -/
theorem drop_eq (f : Fragment phrase text)
    : text.drop f.before.length = f.lead ++ (f.numeral.chars ++ f.after) :=
  (congrArg (List.drop f.before.length) f.whole).trans List.drop_left

/-- At the place of a fragment the number is read from its numeral on. -/
theorem at?_eq (f : Fragment phrase text) (definite : phrase.Definite)
    : phrase.at? (text.drop f.before.length)
      = phrase.number? (f.numeral.chars ++ f.after) := by
  rw [f.drop_eq, NumberPhrase.at?_eq,
    f.leads.afterLead? definite (opens_head f.signs f.after), Option.bind_some]

/-- A fragment starts inside the text. -/
theorem before_lt (f : Fragment phrase text) : f.before.length < text.length := by
  obtain ⟨c, front, start, _⟩ := f.numeral.exists_head
  have size := congrArg List.length f.whole
  simp only [List.length_append, Numeral.chars, start, List.length_cons] at size
  omega

/-- Fragments that start at one place have their numerals at one place. -/
theorem behind_eq {f g : Fragment phrase text} (definite : phrase.Definite)
    (same : g.before.length = f.before.length)
    : g.numeral.chars ++ g.after = f.numeral.chars ++ f.after := by
  have left := f.leads.afterLead? definite (opens_head f.signs f.after)
  have right := g.leads.afterLead? definite (opens_head g.signs g.after)
  rw [← g.drop_eq, same, f.drop_eq, left] at right
  exact (Option.some.inj right).symm

/-- A fragment whose numeral stops where the text goes on has the longest at its place. -/
theorem longest_of_stops {f : Fragment phrase text} (definite : phrase.Definite)
    (stops : f.numeral.Stops f.after)
    : f.Longest := fun _ same => stops.longest (behind_eq definite same).symm

end Fragment

/-- What is found at a place is a fragment there, with the longest numeral. -/
theorem exists_fragment_of_at? {phrase : NumberPhrase} {text : List Char} {place : Nat}
    {v : Binary64} (inside : place ≤ text.length) (found : phrase.at? (text.drop place) = some v)
    : ∃ f : Fragment phrase text,
        f.before.length = place ∧ f.numeral.Stops f.after ∧ f.numeral.value = v := by
  rw [at?_eq] at found
  obtain ⟨rest, behind, read⟩ := Option.bind_eq_some_iff.1 found
  obtain ⟨lead, front, leads⟩ := leads_of_afterLead? behind
  obtain ⟨n, after, signs, rfl, stops, value⟩ := exists_numeral_of_number? read
  refine ⟨⟨text.take place, lead, n, after, ?_, leads, signs⟩, ?_, stops, value⟩
  · rw [← front, List.take_append_drop]
  · exact List.length_take_of_le inside

end NumberPhrase

/-- The first result is at the first place that has one, by induction on the text. -/
theorem leftmost?_eq_some_iff {α : Type} {f : List Char → Option α} {text : List Char} {v : α}
    : leftmost? f text = some v
      ↔ ∃ place < text.length,
          f (text.drop place) = some v ∧ ∀ earlier < place, f (text.drop earlier) = none := by
  induction text with
  | nil => simp [leftmost?]
  | cons c text ih =>
      rw [leftmost?]
      cases here : f (c :: text) with
      | some w =>
          change some w = some v ↔ _
          constructor
          · rintro ⟨⟩
            exact ⟨0, Nat.succ_pos _, here, fun earlier less => absurd less earlier.not_lt_zero⟩
          · rintro ⟨place, inside, found, earlier⟩
            cases place with
            | zero => exact here.symm.trans found
            | succ place =>
                have none := earlier 0 (Nat.succ_pos place)
                rw [List.drop_zero, here] at none
                contradiction
      | none =>
          change leftmost? f text = some v ↔ _
          rw [ih]
          constructor
          · rintro ⟨place, inside, found, earlier⟩
            refine ⟨place + 1, Nat.succ_lt_succ inside, found, fun other less => ?_⟩
            cases other with
            | zero => exact here
            | succ other => exact earlier other (Nat.lt_of_succ_lt_succ less)
          · rintro ⟨place, inside, found, earlier⟩
            cases place with
            | zero => rw [List.drop_zero, here] at found; contradiction
            | succ place =>
                exact ⟨place, Nat.lt_of_succ_lt_succ inside, found,
                  fun other less => earlier (other + 1) (Nat.succ_lt_succ less)⟩

theorem leftmost?_eq_none_iff {α : Type} {f : List Char → Option α} {text : List Char}
    : leftmost? f text = none ↔ ∀ place < text.length, f (text.drop place) = none := by
  induction text with
  | nil => simp [leftmost?]
  | cons c text ih =>
      have split : leftmost? f (c :: text) = none
          ↔ f (c :: text) = none ∧ leftmost? f text = none := by
        rw [leftmost?]
        cases f (c :: text) with
        | some w => simp
        | none => simp
      rw [split, ih]
      constructor
      · rintro ⟨here, later⟩ place inside
        cases place with
        | zero => exact here
        | succ place => exact later place (Nat.lt_of_succ_lt_succ inside)
      · intro none
        exact ⟨none 0 (Nat.succ_pos _), fun place inside =>
          none (place + 1) (Nat.succ_lt_succ inside)⟩

namespace NumberPhrase

/-- A number is found just if it is that of the leftmost fragment with its longest numeral. -/
theorem scan_eq_some_iff {phrase : NumberPhrase} (definite : phrase.Definite) {text : List Char}
    {v : Binary64}
    : phrase.scan text = some v
      ↔ ∃ f : Fragment phrase (folded phrase.ignoreCase text),
          f.Leftmost ∧ f.Longest ∧ f.numeral.value = v := by
  rw [scan_eq, leftmost?_eq_some_iff]
  generalize folded phrase.ignoreCase text = text
  constructor
  · rintro ⟨place, inside, found, earlier⟩
    obtain ⟨f, rfl, stops, value⟩ := exists_fragment_of_at? (Nat.le_of_lt inside) found
    refine ⟨f, fun other => Nat.le_of_not_lt fun less => ?_, f.longest_of_stops definite stops,
      value⟩
    obtain ⟨w, read⟩ := exists_number? other.signs other.after
    have none := earlier _ less
    rw [other.at?_eq definite, read] at none
    contradiction
  · rintro ⟨f, leftmost, longest, rfl⟩
    obtain ⟨w, read⟩ := exists_number? f.signs f.after
    rw [← f.at?_eq definite] at read
    obtain ⟨g, place, stops, rfl⟩ := exists_fragment_of_at? (Nat.le_of_lt f.before_lt) read
    -- Both numerals start at one place, and neither is longer than the other.
    have behind := Fragment.behind_eq definite place
    have lengths := Nat.le_antisymm (longest g place) (stops.longest behind)
    have chars := (List.append_inj behind lengths).1
    have value : g.numeral.value = f.numeral.value := by
      have literals := g.numeral.literal_chars
      rw [chars, f.numeral.literal_chars] at literals
      exact (Except.ok.inj literals).symm
    refine ⟨f.before.length, f.before_lt, read.trans (congrArg some value), ?_⟩
    intro earlier less
    cases found : phrase.at? (text.drop earlier) with
    | none => rfl
    | some u =>
        have inside := Nat.le_of_lt (Nat.lt_trans less f.before_lt)
        obtain ⟨other, rfl, _⟩ := exists_fragment_of_at? inside found
        exact absurd less (Nat.not_lt_of_le (leftmost other))

/-- A number is found just if the text has a fragment. -/
theorem exists_scan_iff {phrase : NumberPhrase} (definite : phrase.Definite) {text : List Char}
    : (∃ v, phrase.scan text = some v)
      ↔ Nonempty (Fragment phrase (folded phrase.ignoreCase text)) := by
  constructor
  · rintro ⟨v, found⟩
    obtain ⟨f, _⟩ := (scan_eq_some_iff definite).1 found
    exact ⟨f⟩
  · rintro ⟨f⟩
    obtain ⟨w, read⟩ := exists_number? f.signs f.after
    rw [← f.at?_eq definite] at read
    rw [scan_eq, ← Option.ne_none_iff_exists', Ne, leftmost?_eq_none_iff]
    intro none
    rw [none _ f.before_lt] at read
    contradiction

end NumberPhrase

-----------------------------------------------------------------------------------------
-- The rules
-----------------------------------------------------------------------------------------

/-- The words of a clause about a limit are told apart. -/
def Clause.Definite : Clause → Prop
  | .limit _ phrase => phrase.Definite
  | .trigger _ _ | .exit _ _ => True

instance (clause : Clause) : Decidable clause.Definite := by
  cases clause <;> unfold Clause.Definite <;> infer_instance

theorem definite_of_mem_rules : ∀ rule ∈ rules, rule.clause.Definite := by decide

theorem NumberPhrase.definite_of_clause {rule : Rule} (member : rule ∈ rules) {part : Limit}
    {phrase : NumberPhrase} (clause : rule.clause = .limit part phrase)
    : phrase.Definite := by
  have definite := definite_of_mem_rules rule member
  rwa [clause] at definite

/-- A rule for a limit finds the number of its phrase. -/
theorem Rule.scan_eq_number_iff {rule : Rule} {part : Limit} {phrase : NumberPhrase}
    (clause : rule.clause = .limit part phrase) {text : List Char} {v : Binary64}
    : rule.scan text = some (.number v) ↔ phrase.scan text = some v := by
  simp [Rule.scan, clause]

/-- A rule for a limit finds a number just in the texts that have a fragment of its phrase, and
the number is that of the leftmost fragment with its longest numeral. So taking the first word
that fits never loses a match, and neither does reading the numeral: as a literal it has a
value, the closest to the decimal that it spells.
-/
theorem scan_iff_fragment {rule : Rule} (member : rule ∈ rules) {part : Limit}
    {phrase : NumberPhrase} (clause : rule.clause = .limit part phrase) (text : List Char)
    : ((∃ v, rule.scan text = some (.number v))
        ↔ Nonempty (phrase.Fragment (folded phrase.ignoreCase text)))
      ∧ (∀ v, rule.scan text = some (.number v)
        ↔ ∃ f : phrase.Fragment (folded phrase.ignoreCase text),
            f.Leftmost ∧ f.Longest ∧ Decimal.literal f.numeral.chars = .ok v)
      ∧ ∀ f : phrase.Fragment (folded phrase.ignoreCase text),
          ∃ v, Decimal.literal f.numeral.chars = .ok v
            ∧ Binary64.Closest f.numeral.sign.isNegative (f.numeral.digits * Binary64.one)
                (10 ^ f.numeral.fraction.length) v := by
  have definite := NumberPhrase.definite_of_clause member clause
  simp only [Rule.scan_eq_number_iff clause, Numeral.literal_chars, Except.ok.injEq]
  exact ⟨NumberPhrase.exists_scan_iff definite, fun v => NumberPhrase.scan_eq_some_iff definite,
    fun f => ⟨_, rfl, f.numeral.closest_value⟩⟩

/-- A keyword without a comparison, then one with a longer and a shorter comparison in place,
and a point without a digit behind it.
-/
theorem scan_iff_fragment_trailingPoint
    : ∃ f : NumberPhrase.Fragment (.bounded ["pe", "市盈率"] ceilingWords true)
          (folded true "PE高，Pe <= 12.".toList),
        f.Leftmost ∧ f.Longest ∧ Decimal.literal f.numeral.chars = .ok 12 := by
  have member
      : ⟨"pe_max", .limit .peMax (.bounded ["pe", "市盈率"] ceilingWords true)⟩ ∈ rules := by
    decide
  exact ((scan_iff_fragment member rfl "PE高，Pe <= 12.".toList).2.1 12).1 (by decide +kernel)

end Screener.Phrase
