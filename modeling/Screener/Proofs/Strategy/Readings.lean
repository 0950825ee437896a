import Screener.Proofs.Phrase.Numbers
import Screener.Proofs.Phrase.Remark
import Screener.Proofs.Strategy.Drafts

/-!
The two ways to name a number: said in a text and typed into a form. Both read the same
numerals with the same values. They part where a numeral is beyond the greatest finite value: a
form asks for nothing then, and a text for an infinite limit.
-/

namespace Screener

open Binary64 (brink)
open Decimal (Numeral Sign literal pointed)

namespace Phrase

open Text

-----------------------------------------------------------------------------------------
-- Numerals in forms
-----------------------------------------------------------------------------------------

/-- The text of a form about a limit. -/
def Limit.field (form : Form) : Limit → String
  | .peMax => form.peMax
  | .mcapMaxYi => form.mcapMaxYi
  | .turnMinPct => form.turnMinPct
  | .takeProfitPct => form.takeProfitPct
  | .stopLossPct => form.stopLossPct

theorem Limit.get_strategy (part : Limit) (form : Form) (now : Timestamp)
    : part.get (form.strategy now) = optionalNumber (part.field form) := by
  cases part <;> rfl

theorem mem_numerals_of_mem_chars {n : Numeral} {c : Char} (member : c ∈ n.chars)
    : c ∈ '+' :: numerals := by
  rcases List.mem_append.1 member with sign | member
  · cases start : n.sign <;> rw [start] at sign
    · contradiction
    · exact List.mem_singleton.1 sign ▸ List.mem_cons_self
    · exact List.mem_singleton.1 sign ▸ by decide
  · exact List.mem_cons_of_mem _ (numerals_of_spells n.spells c member)

/-- A numeral has no blanks and no letters. -/
theorem plain_chars (n : Numeral)
    : ∀ c ∈ n.chars, isBlank c = false ∧ hasPlainCase c = true ∧ c.toLower = c := by
  have all : ('+' :: numerals).all (fun c => hasPlainCase c && c.toLower == c) = true := by
    decide
  intro c member
  have inside := mem_numerals_of_mem_chars member
  have own := List.all_eq_true.1 all c inside
  rw [Bool.and_eq_true, beq_iff_eq] at own
  exact ⟨NumberPhrase.isBlank_of_mem_numerals inside, own⟩

theorem chars_ne_nil (n : Numeral) : n.chars ≠ [] := by
  obtain ⟨c, rest, front, _⟩ := n.exists_head
  simp [Numeral.chars, front]

/-- A form takes the value of a numeral if it is finite. -/
theorem optionalNumber_chars (n : Numeral)
    : optionalNumber (String.ofList n.chars)
      = if n.value.isFinite then some n.value else none := by
  have tight : Tight n.chars :=
    .of_forall (chars_ne_nil n) fun c member => (plain_chars n c member).1
  rw [optionalNumber, String.toList_ofList, tight.trim_eq, n.literal_chars]

-----------------------------------------------------------------------------------------
-- Numerals in texts
-----------------------------------------------------------------------------------------

/-- What a text says before the number of a limit, as its summary does. -/
def Limit.opening (part : Limit) : List Char := (Topic.limit part).opening.toList

theorem plain_opening (part : Limit)
    : ∀ c ∈ part.opening, isBlank c = false ∧ hasPlainCase c = true := by
  have all : part.opening.all (fun c => !isBlank c && hasPlainCase c) = true := by
    cases part <;> decide
  intro c member
  simpa using List.all_eq_true.1 all c member

/-- The opening of a limit leads to the number of its clause, which may have a sign if the limit
may.
-/
def Clause.led : Clause → Bool
  | .limit part phrase =>
    phrase.afterLead? (part.opening.map (inCase phrase.ignoreCase)) == some []
      && match phrase with
        | .bounded _ _ _ => !part.isSigned
        | .signed _ => true
  | .trigger _ _ | .exit _ _ => true

theorem led_of_mem_rules : ∀ rule ∈ rules, rule.clause.led = true :=
  List.all_eq_true.1 (by decide)

/-- A numeral behind the opening of a limit is what the rule for that limit finds. -/
theorem scan_opening {rule : Rule} (member : rule ∈ rules) {part : Limit}
    {phrase : NumberPhrase} (clause : rule.clause = .limit part phrase) {n : Numeral}
    (allowed : part.isSigned = true ∨ n.sign = .none)
    : phrase.scan (part.opening ++ n.chars) = some n.value := by
  have definite := NumberPhrase.definite_of_clause member clause
  have led := led_of_mem_rules rule member
  rw [clause] at led
  simp only [Clause.led, Bool.and_eq_true, beq_iff_eq] at led
  obtain ⟨lead, front, leads⟩ := NumberPhrase.leads_of_afterLead? led.1
  have signs : phrase.Signs n.sign := by
    cases phrase with
    | bounded _ _ _ => exact allowed.resolve_left (by simpa using led.2)
    | signed _ => trivial
  have plain : ∀ c ∈ part.opening ++ n.chars, hasPlainCase c = true := by
    intro c inside
    rcases List.mem_append.1 inside with inside | inside
    · exact (plain_opening part c inside).2
    · exact (plain_chars n c inside).2.1
  have number : n.chars.map (inCase phrase.ignoreCase) = n.chars := by
    refine (List.map_congr_left fun c inside => ?_).trans (List.map_id n.chars)
    unfold inCase
    split
    next => exact (plain_chars n c inside).2.2
    next => rfl
  have whole
      : folded phrase.ignoreCase (part.opening ++ n.chars)
        = [] ++ (lead ++ (n.chars ++ [])) := by
    rw [folded_eq_map _ plain, List.map_append, number, front]
    simp
  have stops : n.Stops [] := ⟨nofun, nofun⟩
  rw [NumberPhrase.scan_eq_some_iff definite]
  refine ⟨⟨[], lead, n, [], whole, leads, signs⟩, fun other => Nat.zero_le _, ?_, rfl⟩
  exact NumberPhrase.Fragment.longest_of_stops definite stops

-----------------------------------------------------------------------------------------
-- Limits of texts
-----------------------------------------------------------------------------------------

/-- Each limit has a rule. -/
theorem exists_clause (part : Limit)
    : ∃ rule ∈ rules, ∃ phrase, rule.clause = .limit part phrase := by
  obtain ⟨rule, member, own, _⟩ := exists_rule part
  refine ⟨rule, member, ?_⟩
  cases clause : rule.clause with
  | limit other phrase =>
      obtain rfl : other = part := by simpa [Rule.limit?, clause] using own
      exact ⟨phrase, rfl⟩
  | trigger _ _ | exit _ _ => simp [Rule.limit?, clause] at own

/-- Only a rule for a limit finds a number. -/
theorem exists_clause_of_scan {rule : Rule} {text : List Char} {v : Binary64}
    (found : rule.scan text = some (.number v))
    : ∃ part phrase, rule.clause = .limit part phrase := by
  cases clause : rule.clause with
  | limit part phrase => exact ⟨part, phrase, rfl⟩
  | trigger _ _ | exit _ _ => simp [Rule.scan, clause] at found

/-- The rule for a limit sets it to the number that it finds. -/
theorem get_merge_of_scan {rule : Rule} (member : rule ∈ rules) {part : Limit}
    {phrase : NumberPhrase} (clause : rule.clause = .limit part phrase) {text : String}
    {v : Binary64} (found : rule.scan (trim text.toList) = some (.number v)) (base : Strategy)
    : part.get (merge text base) = some v := by
  have own : rule.limit? = some part := by rw [Rule.limit?, clause]
  rw [get_merge member own, found]
  rfl

/-- A text leaves the limits of a strategy finite just if each number that it says is. -/
theorem finite_merge_iff {base : Strategy} (finite : base.Finite) (text : String)
    : (merge text base).Finite ↔ Moderate text := by
  refine ⟨fun merged rule member v found => ?_, fun moderate => finite_merge moderate finite⟩
  obtain ⟨part, phrase, clause⟩ := exists_clause_of_scan found
  exact merged part v (get_merge_of_scan member clause found base)

/-- The numbers that a text says are the leftmost of each rule, and each is finite if it is
below the brink.
-/
theorem moderate_iff {text : String}
    : Moderate text
      ↔ ∀ rule ∈ rules, ∀ part phrase, rule.clause = .limit part phrase →
          ∀ f : phrase.Fragment (folded phrase.ignoreCase (trim text.toList)),
            f.Leftmost → f.Longest →
              f.numeral.digits < brink * 10 ^ f.numeral.fraction.length := by
  simp only [← Numeral.isFinite_value_iff]
  constructor
  · intro moderate rule member part phrase clause f leftmost longest
    refine moderate rule member _ ((Rule.scan_eq_number_iff clause).2 ?_)
    have definite := NumberPhrase.definite_of_clause member clause
    exact (NumberPhrase.scan_eq_some_iff definite).2 ⟨f, leftmost, longest, rfl⟩
  · intro below rule member v found
    obtain ⟨part, phrase, clause⟩ := exists_clause_of_scan found
    have definite := NumberPhrase.definite_of_clause member clause
    rw [Rule.scan_eq_number_iff clause, NumberPhrase.scan_eq_some_iff definite] at found
    obtain ⟨f, leftmost, longest, rfl⟩ := found
    exact below rule member part phrase clause f leftmost longest

/-- A limit that a text names by its opening and a numeral has the value of that numeral. -/
theorem get_merge_opening (part : Limit) {n : Numeral}
    (allowed : part.isSigned = true ∨ n.sign = .none) (base : Strategy)
    : part.get (merge (String.ofList (part.opening ++ n.chars)) base) = some n.value := by
  have tight : Tight (part.opening ++ n.chars) := by
    refine .of_forall (List.append_ne_nil_of_right_ne_nil _ (chars_ne_nil n)) fun c inside => ?_
    rcases List.mem_append.1 inside with inside | inside
    · exact (plain_opening part c inside).1
    · exact (plain_chars n c inside).1
  obtain ⟨rule, member, phrase, clause⟩ := exists_clause part
  refine get_merge_of_scan member clause ?_ base
  rw [String.toList_ofList, tight.trim_eq, Rule.scan_eq_number_iff clause]
  exact scan_opening member clause allowed

-----------------------------------------------------------------------------------------
-- The two readings
-----------------------------------------------------------------------------------------

/-- What a text and a form take for a number. A text leaves finite limits finite just if each
numeral that it names a limit by is below the brink, where numbers begin to round to infinity.
A numeral has one value in a text and in a form, and sets the same limit in both just if it is
below the brink: beyond it a text sets a limit that is not finite, and a form sets none.
-/
theorem readings_agree_iff (text : String) (base : Strategy)
    : (base.Finite →
        ((merge text base).Finite
          ↔ ∀ rule ∈ rules, ∀ part phrase, rule.clause = .limit part phrase →
              ∀ f : phrase.Fragment (folded phrase.ignoreCase (trim text.toList)),
                f.Leftmost → f.Longest →
                  f.numeral.digits < brink * 10 ^ f.numeral.fraction.length))
      ∧ ∀ (part : Limit) (n : Numeral), part.isSigned = true ∨ n.sign = .none →
          ∀ form now, part.field form = String.ofList n.chars →
            let said := part.get (merge (String.ofList (part.opening ++ n.chars)) base)
            let typed := part.get (form.strategy now)
            (∃ v, literal n.chars = .ok v
              ∧ said = some v ∧ typed = if v.isFinite then some v else none)
            ∧ typed = optionalNumber (part.field form)
            ∧ (said = typed ↔ n.digits < brink * 10 ^ n.fraction.length) := by
  refine ⟨fun finite => (finite_merge_iff finite text).trans moderate_iff, ?_⟩
  intro part n allowed form now field said typed
  have told : said = some n.value := get_merge_opening part allowed base
  have read : typed = optionalNumber (part.field form) := part.get_strategy form now
  have kept : typed = if n.value.isFinite then some n.value else none := by
    rw [read, field, optionalNumber_chars]
  refine ⟨⟨n.value, n.literal_chars, told, kept⟩, read, ?_⟩
  rw [told, kept, ← n.isFinite_value_iff]
  cases n.value.isFinite <;> simp

namespace Nines

def now : Timestamp := ⟨⟨2024, 5, 17, by decide⟩, 34217, 5, by decide, by decide⟩

/-- A number of 309 digits, which no finite value is near to. -/
def numeral : Numeral where
  sign := .none
  whole := List.replicate 309 '9'
  fraction := []
  wholeDigits := ⟨by decide, fun c member => List.eq_of_mem_replicate member ▸ rfl⟩
  fractionDigits := nofun

theorem chars_numeral : numeral.chars = List.replicate 309 '9' := by
  simp only [Numeral.chars, Sign.chars, pointed, numeral, if_true, List.nil_append,
    List.append_nil]

theorem isFinite_value : numeral.value.isFinite = false := by
  have beyond : ¬numeral.digits < brink * 10 ^ numeral.fraction.length := by decide +kernel
  rwa [← numeral.isFinite_value_iff, Bool.not_eq_true] at beyond

/-- As a ceiling in a text the number is kept, and as one in a form it is dropped. -/
theorem merge_nines
    : (Strategy.draft now).Finite
      ∧ (∃ v, (merge (String.ofList ("PE≤".toList ++ List.replicate 309 '9'))
            (.draft now)).filters.peMax = some v
          ∧ v.isFinite = false)
      ∧ (Form.strategy { peMax := String.ofList (List.replicate 309 '9') } now).filters.peMax
          = none := by
  refine ⟨?_, ⟨numeral.value, ?_, isFinite_value⟩, ?_⟩
  · intro part v set
    cases part <;> contradiction
  · have unsigned : numeral.sign = .none := rfl
    have told := get_merge_opening .peMax (.inr unsigned) (.draft now)
    rwa [chars_numeral, Limit.get, Limit.opening, Topic.opening] at told
  · have typed := optionalNumber_chars numeral
    rw [isFinite_value, chars_numeral] at typed
    simpa only [Form.strategy, Strategy.withTags, Bool.false_eq_true, if_false] using typed

end Nines

end Phrase

end Screener
