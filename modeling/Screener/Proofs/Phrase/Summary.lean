import Mathlib.Data.List.Basic
import Screener.Proofs.Phrase.Remark

/-!
Summaries are read back as what they summarise. A summary joins its remarks; a rule passes
over those that are not its own, and so finds exactly what the strategy sets.
-/

namespace Screener.Phrase

open Text

-----------------------------------------------------------------------------------------
-- Summaries
-----------------------------------------------------------------------------------------

/-- What a strategy asks for, in the order of its summary. -/
def constraints (s : Strategy) : List Remark :=
  [s.filters.peMax.map (.limit .peMax),
    s.filters.mcapMaxYi.map (.limit .mcapMaxYi),
    s.filters.turnMinPct.map (.limit .turnMinPct),
    s.filters.tech.map .trigger,
    s.exits.takeProfitPct.map (.limit .takeProfitPct),
    s.exits.stopLossPct.map (.limit .stopLossPct),
    s.exits.pattern.map .exit].flatMap Option.toList

/-- The clauses of a summary; one of them says that nothing is asked for. -/
def remarks (s : Strategy) : List Remark :=
  if constraints s = [] then [.nothing] else constraints s

/-- A clause that is there is the text of a remark. -/
theorem map_toList_clause {α : Type} {clause : α → String} (remark : α → Remark)
    (same : ∀ a, (clause a).toList = (remark a).text) (part : Option α)
    : (part.map clause).toList.map String.toList
      = (part.map remark).toList.map Remark.text := by
  cases part with
  | none => rfl
  | some a => simp [same]

theorem clauses_toList (s : Strategy)
    : s.clauses.map String.toList = (constraints s).map Remark.text := by
  simp only [Strategy.clauses, constraints, List.flatMap_cons, List.flatMap_nil,
    List.map_append, List.append_nil]
  rw [map_toList_clause (.limit .peMax), map_toList_clause (.limit .mcapMaxYi),
    map_toList_clause (.limit .turnMinPct), map_toList_clause .trigger,
    map_toList_clause (.limit .takeProfitPct), map_toList_clause (.limit .stopLossPct),
    map_toList_clause .exit]
  all_goals
    intro a
    simp only [Remark.text, Remark.topic, Remark.digits, Topic.opening, Topic.unit,
      String.toList_append, String.toList_empty, List.append_nil]

theorem summary_toList (s : Strategy)
    : s.summary.toList = separator.intercalate ((remarks s).map Remark.text) := by
  have same := clauses_toList s
  unfold Strategy.summary remarks
  by_cases none : constraints s = []
  · have empty : s.clauses = [] := by simpa [none] using same
    rw [if_pos none, if_pos (by simp [empty])]
    simp [Remark.text, Remark.topic, Remark.digits, Topic.opening, Topic.unit]
  · have some : s.clauses ≠ [] := by
      intro empty
      rw [empty, List.map_nil, eq_comm, List.map_eq_nil_iff] at same
      exact none same
    rw [if_neg none, if_neg (by simpa using some), String.toList_intercalate, same]
    rfl

/-- The numbers that a summary can be read back with. -/
def Readable (s : Strategy) : Prop := ∀ r ∈ remarks s, r.Readable

theorem mem_constraints {s : Strategy} {r : Remark}
    : r ∈ constraints s ↔ match r with
      | .nothing => False
      | .limit part v => part.get s = some v
      | .trigger t => s.filters.tech = some t
      | .exit p => s.exits.pattern = some p := by
  cases r with
  | nothing => simp [constraints]
  | limit part v => cases part <;> simp [constraints, Limit.get]
  | trigger t => simp [constraints]
  | exit p => simp [constraints]

/-- Remarks about the parts of a strategy are its constraints. -/
theorem mem_remarks {s : Strategy} {r : Remark} (some : r ≠ .nothing)
    : r ∈ remarks s ↔ r ∈ constraints s := by
  unfold remarks
  split
  next none => simp [none, some]
  next => rfl

theorem exists_trigger_iff {s : Strategy} {signal : Trigger}
    : (∃ r ∈ remarks s, r.topic = .trigger signal) ↔ s.filters.tech = some signal := by
  constructor
  · rintro ⟨r, inside, own⟩
    cases r with
    | trigger t =>
        obtain rfl := Topic.trigger.inj own
        exact mem_constraints.1 ((mem_remarks (by simp)).1 inside)
    | nothing | limit _ _ | exit _ => contradiction
  · intro set
    exact ⟨.trigger signal, (mem_remarks (by simp)).2 (mem_constraints.2 set), rfl⟩

theorem exists_exit_iff {s : Strategy} {pattern : ExitPattern}
    : (∃ r ∈ remarks s, r.topic = .exit pattern) ↔ s.exits.pattern = some pattern := by
  constructor
  · rintro ⟨r, inside, own⟩
    cases r with
    | exit p =>
        obtain rfl := Topic.exit.inj own
        exact mem_constraints.1 ((mem_remarks (by simp)).1 inside)
    | nothing | limit _ _ | trigger _ => contradiction
  · intro set
    exact ⟨.exit pattern, (mem_remarks (by simp)).2 (mem_constraints.2 set), rfl⟩

/-- The numbers are readable if the limits are finite, and those without a sign have none. -/
theorem readable_of_limits {s : Strategy}
    (finite : ∀ part v, Limit.get s part = some v → v.isFinite = true)
    (unsigned : ∀ part v, part.isSigned = false → Limit.get s part = some v →
      v.signBit = false)
    : Readable s := by
  intro r member
  cases r with
  | limit part v =>
      have set := mem_constraints.1 ((mem_remarks (by simp)).1 member)
      exact ⟨finite part v set, fun plain => unsigned part v plain set⟩
  | nothing | trigger _ | exit _ => trivial

/-- The first number about a limit is the one that is set. -/
theorem findSome?_number? (s : Strategy) (part : Limit)
    : (remarks s).findSome? (Remark.number? part) = Limit.get s part := by
  have other {α : Type} (remark : α → Remark) (o : Option α)
      (silent : ∀ a, (remark a).number? part = none)
      : (o.map remark).toList.findSome? (Remark.number? part) = none := by
    cases o <;> simp [silent]
  have own (o : Option Binary64)
      : (o.map (Remark.limit part)).toList.findSome? (Remark.number? part) = o := by
    cases o <;> simp [Remark.number?]
  have all : (constraints s).findSome? (Remark.number? part) = Limit.get s part := by
    simp only [constraints, List.flatMap_cons, List.flatMap_nil, List.findSome?_append,
      List.findSome?_nil]
    rw [other .trigger _ fun _ => rfl, other .exit _ fun _ => rfl]
    cases part <;> simp [own, other, Remark.number?, Limit.get]
  unfold remarks
  split
  next none =>
    rw [none] at all
    simpa [Remark.number?] using all
  next => exact all

/-- The summary in the case that a pattern looks at, clause by clause. -/
theorem folded_summary {s : Strategy} (readable : Readable s) (ignoreCase : Bool)
    : folded ignoreCase s.summary.toList
      = separator.intercalate
          ((remarks s).map fun r => r.text.map (inCase ignoreCase)) := by
  have between : separator.map (inCase ignoreCase) = separator := by
    cases ignoreCase <;> decide
  have plain : ∀ c ∈ separator.intercalate ((remarks s).map Remark.text),
      hasPlainCase c = true := by
    refine forall_mem_intercalate (List.all_eq_true.1 (by decide))
      fun piece member => ?_
    obtain ⟨r, inside, rfl⟩ := List.mem_map.1 member
    exact fun c there => (Remark.plain (readable r inside) c there).2
  rw [summary_toList, folded_eq_map ignoreCase plain, map_intercalate, between, List.map_map]
  rfl

/-- A summary is one line. -/
theorem unbroken_summary {s : Strategy} (readable : Readable s) (ignoreCase : Bool)
    : ∀ c ∈ folded ignoreCase s.summary.toList, isLineBreak c = false := by
  have between : separator.all (fun c => !isLineBreak c) = true := by decide
  rw [folded_summary readable]
  refine forall_mem_intercalate (by simpa using between) fun piece member => ?_
  obtain ⟨r, inside, rfl⟩ := List.mem_map.1 member
  exact Remark.unbroken ignoreCase (readable r inside)

/-- A summary starts and ends with a clause. -/
theorem tight_summary {s : Strategy} (readable : Readable s) : Tight s.summary.toList := by
  have joined {rs : List Remark} (some : rs ≠ []) (all : ∀ r ∈ rs, r.Readable)
      : Tight (separator.intercalate (rs.map Remark.text)) := by
    induction rs with
    | nil => contradiction
    | cons r rs ih =>
        have first := Remark.tight (all r (by simp))
        cases rs with
        | nil => simpa using first
        | cons next rs =>
            have later := ih (by simp) fun r member => all r (List.mem_cons_of_mem _ member)
            simp only [List.map_cons, List.intercalate_cons_cons]
            exact first.append separator later
  rw [summary_toList]
  refine joined ?_ readable
  unfold remarks
  split
  next => simp
  next some => exact some

-----------------------------------------------------------------------------------------
-- Rules on summaries
-----------------------------------------------------------------------------------------

/-- The blanks that trimming removes are none in front of a number. -/
theorem trimStart_plain {v : Binary64} (finite : v.isFinite = true) (rest : List Char)
    : trimStart ((Decimal.plain v).toList ++ rest) = (Decimal.plain v).toList ++ rest := by
  cases text : (Decimal.plain v).toList with
  | nil =>
      have read := signed?_plain finite (show Ends [] by simp [Ends])
      rw [text] at read
      contradiction
  | cons c digits =>
      have solid : numerals.all (fun c => !isBlank c) = true := by decide
      have first := List.all_eq_true.1 solid c
        (mem_numerals_of_mem_plain finite (by simp [text]))
      exact trimStart_cons (by simpa using first) _

/-- A bounded phrase reads the number behind an opening of its keyword and its comparison. -/
theorem at?_bounded {keywords comparisons : List String} {ignoreCase : Bool}
    {opening : List Char} (keyword comparison : List Char)
    (opens : opening = keyword ++ comparison)
    (starts : ∀ text, afterAnyOf? keywords (keyword ++ text) = some text)
    (compares : ∀ text,
      afterAnyOf? comparisons (trimStart (comparison ++ text)) = some text)
    {v : Binary64} (finite : v.isFinite = true) (clear : v.signBit = false)
    {rest : List Char} (ends : Ends rest)
    : (NumberPhrase.bounded keywords comparisons ignoreCase).at?
        (opening ++ ((Decimal.plain v).toList ++ rest))
      = some v := by
  rw [opens, List.append_assoc]
  simp only [NumberPhrase.at?, boundedAt?, starts, Option.bind_eq_bind, Option.bind_some,
    compares, trimStart_plain finite, unsigned?_plain finite clear ends]

/-- A signed phrase reads the number behind an opening that is its keyword. -/
theorem at?_signed {keywords : List String} {opening : List Char} (keyword : List Char)
    (opens : opening = keyword)
    (starts : ∀ text, afterAnyOf? keywords (keyword ++ text) = some text)
    {v : Binary64} (finite : v.isFinite = true) {rest : List Char} (ends : Ends rest)
    : (NumberPhrase.signed keywords).at? (opening ++ ((Decimal.plain v).toList ++ rest))
      = some v := by
  rw [opens]
  simp only [NumberPhrase.at?, signedAt?, starts, Option.bind_eq_bind, Option.bind_some,
    trimStart_plain finite, signed?_plain finite ends]

/-- What follows a number in a summary does not go on with it. -/
theorem ends_unit (part : Limit) (ignoreCase : Bool) {rest : List Char}
    (next : rest = [] ∨ separator <+: rest)
    : Ends ((Topic.limit part).unit.toList.map (inCase ignoreCase) ++ rest) := by
  have behind : Ends rest := by
    rcases next with rfl | ⟨later, rfl⟩
    · simp [Ends]
    · have blank : separator = ' ' :: "· ".toList := by decide
      rw [blank]
      simp [Ends, Decimal.isDigit]
  have own : ((Topic.limit part).unit.toList.map (inCase ignoreCase)).head?.all
      (fun c => !Decimal.isDigit c && c != '.') = true := by
    cases part <;> cases ignoreCase <;> decide
  intro c head
  cases unit : (Topic.limit part).unit.toList.map (inCase ignoreCase) with
  | nil =>
      rw [unit] at head
      exact behind c head
  | cons d text =>
      rw [unit] at head own
      obtain rfl : d = c := Option.some.inj head
      simpa using own

/-- A rule for a limit reads its number in a clause about that limit. -/
theorem at?_of_mem_rules {rule : Rule} (member : rule ∈ rules) {part : Limit}
    {phrase : NumberPhrase} (clause : rule.clause = .limit part phrase) {v : Binary64}
    (readable : (Remark.limit part v).Readable) {rest : List Char}
    (next : rest = [] ∨ separator <+: rest)
    : phrase.at? ((Remark.limit part v).text.map (inCase phrase.ignoreCase) ++ rest) = some v := by
  have ends := ends_unit part phrase.ignoreCase next
  rw [Remark.map_inCase_text _ readable, List.append_assoc, List.append_assoc]
  simp only [rules, List.mem_cons, List.not_mem_nil, or_false] at member
  rcases member with rfl | rfl | rfl | rfl | rfl | rfl | rfl | rfl | rfl | rfl | rfl
    <;> cases clause
    <;> simp only [Remark.topic, NumberPhrase.ignoreCase] at ends ⊢
  · exact at?_bounded ['p', 'e'] ['≤'] (by decide) (by simp [afterAnyOf?, afterWord?])
      (by simp [afterAnyOf?, afterWord?, ceilingWords, trimStart, isBlank])
      readable.1 (readable.2 rfl) ends
  · exact at?_bounded ['市', '值'] ['≤'] (by decide) (by simp [afterAnyOf?, afterWord?])
      (by simp [afterAnyOf?, afterWord?, ceilingWords, trimStart, isBlank])
      readable.1 (readable.2 rfl) ends
  · exact at?_bounded ['换', '手'] ['≥'] (by decide) (by simp [afterAnyOf?, afterWord?])
      (by simp [afterAnyOf?, afterWord?, floorWords, trimStart, isBlank])
      readable.1 (readable.2 rfl) ends
  · exact at?_signed ['止', '盈'] (by decide) (by simp [afterAnyOf?, afterWord?]) readable.1 ends
  · exact at?_signed ['止', '损'] (by decide) (by simp [afterAnyOf?, afterWord?]) readable.1 ends

/-- A rule for a limit finds in a summary the limit that is set. -/
theorem scan_limit {s : Strategy} (readable : Readable s) {rule : Rule}
    (member : rule ∈ rules) {part : Limit} {phrase : NumberPhrase}
    (clause : rule.clause = .limit part phrase)
    : phrase.scan s.summary.toList = Limit.get s part := by
  have marked : marks phrase.ignoreCase (.limit part) phrase.keywords = true := by
    have own := marked_of_mem_rules rule member
    rw [clause] at own
    exact own
  have between : avoidsAll phrase.keywords separator = true := avoidsAll_separator marked
  rw [NumberPhrase.scan_eq, folded_summary readable, ← findSome?_number? s part]
  refine NumberPhrase.leftmost?_intercalate _ (Remark.number? part) between ?_ ?_ ?_
  · intro r inside silent
    refine Remark.avoidsAll_of_marks marked (readable r inside) fun own => ?_
    cases r with
    | limit other v =>
        obtain rfl := Topic.limit.inj own
        simp [Remark.number?] at silent
    | nothing | trigger _ | exit _ => contradiction
  · intro r inside v value rest next
    cases r with
    | limit other w =>
        simp only [Remark.number?] at value
        split at value
        next same =>
          subst same
          obtain rfl := Option.some.inj value
          exact at?_of_mem_rules member clause (readable _ inside) next
        next => contradiction
    | nothing | trigger _ | exit _ => contradiction
  · intro r inside
    simpa using Remark.text_ne_nil r

/-- Words in order that mark a topic are found in a summary if a clause is about it. -/
theorem scan_words {s : Strategy} (readable : Readable s) {words : WordSequence} {own : Topic}
    (holds : holdsInOrder words.groups (own.opening.toList.map (inCase words.ignoreCase)) = true)
    (marked : words.groups.any (marks words.ignoreCase own) = true)
    : words.scan s.summary.toList = true ↔ ∃ r ∈ remarks s, r.topic = own := by
  have line : (folded words.ignoreCase s.summary.toList).splitOnP isLineBreak
      = [folded words.ignoreCase s.summary.toList] :=
    List.splitOnP_eq_singleton (unbroken_summary readable words.ignoreCase)
  rw [WordSequence.scan, line, List.any_cons, List.any_nil, Bool.or_false,
    folded_summary readable]
  constructor
  · intro found
    apply Classical.byContradiction
    intro none
    obtain ⟨group, inside, marked⟩ := List.any_eq_true.1 marked
    have absent : avoidsAll group (separator.intercalate
        ((remarks s).map fun r => r.text.map (inCase words.ignoreCase))) = true := by
      refine avoidsAll_intercalate (avoidsAll_separator marked) fun piece member => ?_
      obtain ⟨r, there, rfl⟩ := List.mem_map.1 member
      exact Remark.avoidsAll_of_marks marked (readable r there) fun same =>
        none ⟨r, there, same⟩
    rw [holdsInOrder_eq_false inside (afterFirst?_of_marks marked absent)] at found
    contradiction
  · rintro ⟨r, inside, rfl⟩
    obtain ⟨before, after, whole⟩ := intercalate_of_mem separator
      (List.mem_map_of_mem (f := fun r => r.text.map (inCase words.ignoreCase)) inside)
    rw [whole, Remark.map_inCase_text _ (readable r inside)]
    have around := holdsInOrder_mono before
      (r.digits ++ r.topic.unit.toList.map (inCase words.ignoreCase) ++ after) holds
    simpa only [List.append_assoc] using around

-----------------------------------------------------------------------------------------
-- Reading a summary back
-----------------------------------------------------------------------------------------

/-- The base with the part of a clause taken from a strategy that sets it. -/
def Clause.adopt (s base : Strategy) : Clause → Strategy
  | .limit part _ =>
    match Limit.get s part with
    | some v => Limit.set v base part
    | none => base
  | .trigger signal _ =>
    if s.filters.tech = some signal then { base with filters.tech := some signal } else base
  | .exit pattern _ =>
    if s.exits.pattern = some pattern then { base with exits.pattern := some pattern }
    else base

/-- The words of a rule stand in order in the wording of its topic. -/
def Clause.told : Clause → Bool
  | .limit _ _ => true
  | clause@(.trigger _ words) | clause@(.exit _ words) =>
    holdsInOrder words.groups (clause.topic.opening.toList.map (inCase words.ignoreCase))

theorem told_of_mem_rules : ∀ rule ∈ rules, rule.clause.told = true :=
  List.all_eq_true.1 (by decide +kernel)

/-- On a summary a rule takes over its part of the strategy. -/
theorem apply_summary {s : Strategy} (readable : Readable s) {rule : Rule}
    (member : rule ∈ rules) (base : Strategy)
    : rule.apply s.summary.toList base = rule.clause.adopt s base := by
  have told := told_of_mem_rules rule member
  have marked := marked_of_mem_rules rule member
  unfold Rule.apply
  cases clause : rule.clause with
  | limit part phrase =>
      have found := scan_limit readable member clause
      cases set : Limit.get s part with
      | none => simp only [Clause.adopt, found, set]
      | some v => simp only [Clause.adopt, found, set]
  | trigger signal words =>
      rw [clause] at told marked
      have found := (scan_words readable told marked).trans exists_trigger_iff
      simp only [Clause.adopt, found]
  | exit pattern words =>
      rw [clause] at told marked
      have found := (scan_words readable told marked).trans exists_exit_iff
      simp only [Clause.adopt, found]

/-- The base with the parts of several rules taken over in turn. -/
def adoptAll (s base : Strategy) (rules : List Rule) : Strategy :=
  rules.foldl (fun base rule => rule.clause.adopt s base) base

/-- Taking over every part makes an empty strategy ask for the same. The limits that are
compared, the signal, the limits on the way out and the shape are taken in turn.
-/
theorem adoptAll_rules (s : Strategy) (id : Option String) (name : String)
    (createdAt : Timestamp) (tags : List Tag) (wording : String)
    : adoptAll s ⟨id, name, createdAt, .none, .none, tags, wording⟩ rules
      = ⟨id, name, createdAt, { s.filters with note := "" }, s.exits, tags, wording⟩ := by
  obtain ⟨_, _, _, ⟨pe, mcap, turn, tech, note⟩, ⟨profit, loss, pattern⟩, _, _⟩ := s
  generalize own : (Strategy.mk _ _ _ ⟨pe, mcap, turn, tech, note⟩ _ _ _) = s
  have bounds
      : adoptAll s ⟨id, name, createdAt, .none, .none, tags, wording⟩ (rules.take 3)
        = ⟨id, name, createdAt, ⟨pe, mcap, turn, none, ""⟩, .none, tags, wording⟩ := by
    subst own
    cases pe <;> cases mcap <;> cases turn <;> rfl
  have signal
      : adoptAll s ⟨id, name, createdAt, ⟨pe, mcap, turn, none, ""⟩, .none, tags, wording⟩
          ((rules.drop 3).take 3)
        = ⟨id, name, createdAt, ⟨pe, mcap, turn, tech, ""⟩, .none, tags, wording⟩ := by
    subst own
    cases tech with
    | none => rfl
    | some t => cases t <;> rfl
  have limits
      : adoptAll s ⟨id, name, createdAt, ⟨pe, mcap, turn, tech, ""⟩, .none, tags, wording⟩
          ((rules.drop 6).take 2)
        = ⟨id, name, createdAt, ⟨pe, mcap, turn, tech, ""⟩, ⟨profit, loss, none⟩, tags,
          wording⟩ := by
    subst own
    cases profit <;> cases loss <;> rfl
  have shape
      : adoptAll s ⟨id, name, createdAt, ⟨pe, mcap, turn, tech, ""⟩, ⟨profit, loss, none⟩,
          tags, wording⟩ (rules.drop 8)
        = ⟨id, name, createdAt, ⟨pe, mcap, turn, tech, ""⟩, ⟨profit, loss, pattern⟩, tags,
          wording⟩ := by
    subst own
    cases pattern with
    | none => rfl
    | some p => cases p <;> rfl
  have split
      : rules = rules.take 3 ++ ((rules.drop 3).take 3 ++ ((rules.drop 6).take 2
          ++ rules.drop 8)) := rfl
  unfold adoptAll at bounds signal limits shape ⊢
  rw [split, List.foldl_append, List.foldl_append, List.foldl_append, bounds, signal, limits,
    shape]
  subst own
  rfl

/-- A strategy is read back from its summary: limits, signal and shape are what they were, and
the name and the tags are those that follow from them. The limits are finite, and those that
are read without a sign have none.
-/
theorem merge_summary (s : Strategy) (now : Timestamp)
    (finite : ∀ part v, Limit.get s part = some v → v.isFinite = true)
    (unsigned : ∀ part ∈ [Limit.peMax, .mcapMaxYi, .turnMinPct],
      ∀ v, Limit.get s part = some v → v.signBit = false)
    : merge s.summary (.draft now)
      = { Strategy.draft now with
          name := s.suggestedName
          filters := { s.filters with note := "" }
          exits := s.exits
          tags := s.inferredTags
          wording := s.summary } := by
  have readable : Readable s := by
    refine readable_of_limits finite fun part v plain => unsigned part ?_ v
    cases part <;> first | contradiction | decide
  have tight := tight_summary readable
  have some : s.summary.toList.isEmpty = false := by simpa using tight.ne_nil
  have same (base : Strategy)
      : rules.foldl (Rule.apply s.summary.toList) base = adoptAll s base rules :=
    List.foldl_ext _ _ _ fun base rule member => apply_summary readable member base
  unfold merge
  simp only [tight.trim_eq, some, Bool.false_eq_true, ↓reduceIte, same,
    String.ofList_toList, Strategy.draft]
  rw [adoptAll_rules]
  rfl

/-- A breakout that is left at an engulfing candle. The wordings of both hold the characters
of another rule's words.
-/
def engulfedBreakout : Strategy where
  id := none
  name := ""
  createdAt := ⟨⟨2024, 2, 29, by decide⟩, 0, 0, by decide, by decide⟩
  filters := ⟨some 25.5, some 300, none, some .breakout, "watch"⟩
  exits := ⟨none, some (-6), some .bearishEngulfing⟩
  tags := []
  wording := ""

/-- Witness: the limits are finite, and the two that are read without a sign have none. -/
theorem merge_summary_engulfedBreakout
    : merge engulfedBreakout.summary (.draft engulfedBreakout.createdAt)
      = { Strategy.draft engulfedBreakout.createdAt with
          name := engulfedBreakout.suggestedName
          filters := { engulfedBreakout.filters with note := "" }
          exits := engulfedBreakout.exits
          tags := engulfedBreakout.inferredTags
          wording := engulfedBreakout.summary } := by
  have finite : ∀ part ∈ [Limit.peMax, .mcapMaxYi, .turnMinPct, .takeProfitPct, .stopLossPct],
      (Limit.get engulfedBreakout part).all Binary64.isFinite = true := by
    decide +kernel
  have unsigned : ∀ part ∈ [Limit.peMax, .mcapMaxYi, .turnMinPct],
      (Limit.get engulfedBreakout part).all (fun v => !v.signBit) = true := by
    decide +kernel
  refine merge_summary engulfedBreakout engulfedBreakout.createdAt (fun part v set => ?_)
    (fun part member v set => ?_)
  · have own := finite part (by cases part <;> decide)
    rw [set] at own
    exact own
  · have own := unsigned part member
    rw [set] at own
    simpa using own

end Screener.Phrase
