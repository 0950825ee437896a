import Screener.Phrase.Rule

/-!
What merging a text into a strategy leaves. A part of the strategy is set by the rules that
find something about it: the last of them in the order of the table decides, and where none
finds anything the part is what it was before.
-/

namespace Screener.Phrase

-----------------------------------------------------------------------------------------
-- Hits
-----------------------------------------------------------------------------------------

def Hit.number? : Hit → Option Binary64
  | .number v => some v
  | .words => none

namespace Rule

/-- The limit that the rule sets. -/
def limit? (rule : Rule) : Option Limit :=
  match rule.clause with
  | .limit part _ => some part
  | .trigger _ _ | .exit _ _ => none

/-- The number that the rule finds for a limit. -/
def number? (text : List Char) (part : Limit) (rule : Rule) : Option Binary64 :=
  if rule.limit? = some part then (rule.scan text).bind Hit.number? else none

/-- The signal whose words the rule finds. -/
def trigger? (text : List Char) (rule : Rule) : Option Trigger :=
  match rule.clause with
  | .trigger signal _ => (rule.scan text).map fun _ => signal
  | .limit _ _ | .exit _ _ => none

/-- The shape whose words the rule finds. -/
def exit? (text : List Char) (rule : Rule) : Option ExitPattern :=
  match rule.clause with
  | .exit pattern _ => (rule.scan text).map fun _ => pattern
  | .limit _ _ | .trigger _ _ => none

/-- The strategy with a hit written into the part that the rule sets. -/
def write (s : Strategy) (rule : Rule) (hit : Hit) : Strategy :=
  match rule.clause, hit with
  | .limit part _, .number v => part.set v s
  | .limit _ _, .words => s
  | .trigger signal _, _ => { s with filters.tech := some signal }
  | .exit pattern _, _ => { s with exits.pattern := some pattern }

/-- A rule writes its hit, and does nothing where it finds nothing. -/
theorem apply_eq (text : List Char) (s : Strategy) (rule : Rule)
    : rule.apply text s
      = match rule.scan text with
        | some hit => rule.write s hit
        | none => s := by
  obtain ⟨name, clause⟩ := rule
  cases clause with
  | limit part phrase =>
      simp only [apply, scan, write]
      cases phrase.scan text <;> rfl
  | trigger signal words =>
      simp only [apply, scan, write]
      split <;> rfl
  | exit pattern words =>
      simp only [apply, scan, write]
      split <;> rfl

end Rule

/-- The rules that find something in a text with what they find, in the order of the rules. -/
def hits (text : List Char) : List (Rule × Hit) :=
  rules.filterMap fun rule => (rule.scan text).map fun hit => (rule, hit)

/-- The strategy with hits written into it one after another. -/
def writeAll (found : List (Rule × Hit)) (s : Strategy) : Strategy :=
  found.foldl (fun s entry => entry.1.write s entry.2) s

/-- The rules together write their hits, by induction over the rules. -/
theorem foldl_apply (text : List Char) (s : Strategy)
    : rules.foldl (Rule.apply text) s = writeAll (hits text) s := by
  unfold writeAll hits
  generalize rules = rs
  induction rs generalizing s with
  | nil => rfl
  | cons rule rs ih =>
      rw [List.foldl_cons, ih, Rule.apply_eq]
      cases found : rule.scan text <;> simp [found]

theorem matchedRules_eq (text : String)
    : matchedRules text = (hits (Text.trim text.toList)).map fun entry => entry.1.name := by
  unfold matchedRules hits
  generalize rules = rs
  induction rs with
  | nil => rfl
  | cons rule rs ih =>
      cases found : rule.scan (Text.trim text.toList) <;> simp [found, ih]

/-- Nothing is found in a blank text. -/
theorem hits_nil : hits [] = [] := by
  decide +kernel

theorem scan_nil {rule : Rule} (member : rule ∈ rules) : rule.scan [] = none := by
  have silent := List.filterMap_eq_nil_iff.1 hits_nil rule member
  exact Option.map_eq_none_iff.1 silent

-----------------------------------------------------------------------------------------
-- Parts of the merged strategy
-----------------------------------------------------------------------------------------

/-- The signal of the last rule that finds its words. -/
def lastTrigger? (text : List Char) : Option Trigger :=
  (rules.filterMap (Rule.trigger? text)).getLast?

/-- The shape of the last rule that finds its words. -/
def lastExit? (text : List Char) : Option ExitPattern :=
  (rules.filterMap (Rule.exit? text)).getLast?

/-- If each step sets a part to what it says or leaves it, the last step that says something
decides. By induction over the steps.
-/
theorem get_foldl {σ α β : Type} {step : σ → β → σ} (get : σ → Option α) {told : β → Option α}
    (one : ∀ (b : β) (s : σ), get (step s b) = (told b <|> get s)) (bs : List β) (s : σ)
    : get (bs.foldl step s) = ((bs.filterMap told).getLast? <|> get s) := by
  induction bs generalizing s with
  | nil => simp
  | cons b bs ih =>
      rw [List.foldl_cons, ih, one]
      cases said : told b with
      | none => simp [said]
      | some a =>
          rw [List.filterMap_cons_some said, List.getLast?_cons]
          cases (bs.filterMap told).getLast? <;> simp

theorem get_apply (text : List Char) (part : Limit) (rule : Rule) (s : Strategy)
    : part.get (rule.apply text s) = (rule.number? text part <|> part.get s) := by
  obtain ⟨name, clause⟩ := rule
  cases clause with
  | limit other phrase =>
      simp only [Rule.apply, Rule.number?, Rule.limit?, Rule.scan, Option.some.injEq]
      cases phrase.scan text with
      | none => simp
      | some v => cases other <;> cases part <;> rfl
  | trigger signal words =>
      simp only [Rule.apply, Rule.number?, Rule.limit?]
      split <;> cases part <;> rfl
  | exit pattern words =>
      simp only [Rule.apply, Rule.number?, Rule.limit?]
      split <;> cases part <;> rfl

theorem tech_apply (text : List Char) (rule : Rule) (s : Strategy)
    : (rule.apply text s).filters.tech = (rule.trigger? text <|> s.filters.tech) := by
  obtain ⟨name, clause⟩ := rule
  cases clause with
  | limit part phrase =>
      simp only [Rule.apply, Rule.trigger?]
      cases phrase.scan text with
      | none => rfl
      | some v => cases part <;> rfl
  | trigger signal words =>
      simp only [Rule.apply, Rule.trigger?, Rule.scan]
      split <;> rfl
  | exit pattern words =>
      simp only [Rule.apply, Rule.trigger?]
      split <;> rfl

theorem pattern_apply (text : List Char) (rule : Rule) (s : Strategy)
    : (rule.apply text s).exits.pattern = (rule.exit? text <|> s.exits.pattern) := by
  obtain ⟨name, clause⟩ := rule
  cases clause with
  | limit part phrase =>
      simp only [Rule.apply, Rule.exit?]
      cases phrase.scan text with
      | none => rfl
      | some v => cases part <;> rfl
  | trigger signal words =>
      simp only [Rule.apply, Rule.exit?]
      split <;> rfl
  | exit pattern words =>
      simp only [Rule.apply, Rule.exit?, Rule.scan]
      split <;> rfl

/-- What rules leave alone: the strategy but for its limits, its signal and its shape. -/
structure SameFrame (s t : Strategy) : Prop where
  id : s.id = t.id
  createdAt : s.createdAt = t.createdAt
  note : s.filters.note = t.filters.note
  name : s.name = t.name
  wording : s.wording = t.wording

theorem sameFrame_apply (text : List Char) (rule : Rule) (s : Strategy)
    : SameFrame (rule.apply text s) s := by
  obtain ⟨name, clause⟩ := rule
  cases clause with
  | limit part phrase =>
      simp only [Rule.apply]
      cases phrase.scan text with
      | none => exact ⟨rfl, rfl, rfl, rfl, rfl⟩
      | some v => cases part <;> exact ⟨rfl, rfl, rfl, rfl, rfl⟩
  | trigger signal words =>
      simp only [Rule.apply]
      split <;> exact ⟨rfl, rfl, rfl, rfl, rfl⟩
  | exit pattern words =>
      simp only [Rule.apply]
      split <;> exact ⟨rfl, rfl, rfl, rfl, rfl⟩

theorem sameFrame_foldl (text : List Char) (rs : List Rule) (s : Strategy)
    : SameFrame (rs.foldl (Rule.apply text) s) s := by
  induction rs generalizing s with
  | nil => exact ⟨rfl, rfl, rfl, rfl, rfl⟩
  | cons rule rs ih =>
      have later := ih (rule.apply text s)
      have first := sameFrame_apply text rule s
      exact ⟨later.id.trans first.id, later.createdAt.trans first.createdAt,
        later.note.trans first.note, later.name.trans first.name,
        later.wording.trans first.wording⟩

/-- Each limit has one rule. -/
theorem exists_rule (part : Limit)
    : ∃ rule ∈ rules, rule.limit? = some part
      ∧ ∀ other ∈ rules, other.limit? = some part → other = rule := by
  cases part <;> decide

/-- Where one rule alone can say something, the last thing said is what it says. -/
theorem getLast?_filterMap_of_unique {α : Type} {told : Rule → Option α} {rule : Rule}
    {rs : List Rule} (member : rule ∈ rs) (distinct : rs.Nodup)
    (silent : ∀ other ∈ rs, other ≠ rule → told other = none)
    : (rs.filterMap told).getLast? = told rule := by
  induction rs with
  | nil => contradiction
  | cons first rs ih =>
      obtain ⟨absent, distinct⟩ := List.nodup_cons.1 distinct
      rcases List.mem_cons.1 member with rfl | member
      · have none : rs.filterMap told = [] := by
          rw [List.filterMap_eq_nil_iff]
          intro other inside
          exact silent other (List.mem_cons_of_mem _ inside) fun same => absent (same ▸ inside)
        cases said : told rule <;> simp [said, none]
      · have other : first ≠ rule := fun same => absent (same ▸ member)
        rw [List.filterMap_cons_none (silent first List.mem_cons_self other)]
        exact ih member distinct fun other inside => silent other (List.mem_cons_of_mem _ inside)

/-- The last number for a limit is the one that its rule finds. -/
theorem getLast?_number? (text : List Char) {part : Limit} {rule : Rule}
    (member : rule ∈ rules) (own : rule.limit? = some part)
    : (rules.filterMap (Rule.number? text part)).getLast?
      = (rule.scan text).bind Hit.number? := by
  obtain ⟨single, _, _, unique⟩ := exists_rule part
  have said : rule.number? text part = (rule.scan text).bind Hit.number? := if_pos own
  rw [← said]
  refine getLast?_filterMap_of_unique member (by decide) fun other inside different => ?_
  refine if_neg fun same => different ?_
  exact (unique other inside same).trans (unique rule member own).symm

-----------------------------------------------------------------------------------------
-- Merging
-----------------------------------------------------------------------------------------

/-- A strategy is what a base becomes by a text that is not blank. -/
structure Merged (spoken : List Char) (base s : Strategy) : Prop where
  limit
    : ∀ part, ∃ rule ∈ rules, rule.limit? = some part
      ∧ (∀ other ∈ rules, other.limit? = some part → other = rule)
      ∧ (∀ v, rule.scan spoken = some (.number v) → part.get s = some v)
      ∧ (rule.scan spoken = none → part.get s = part.get base)
      ∧ (rule.scan spoken = none ∨ ∃ v, rule.scan spoken = some (.number v))
  tech : s.filters.tech = (lastTrigger? spoken <|> base.filters.tech)
  pattern : s.exits.pattern = (lastExit? spoken <|> base.exits.pattern)
  note : s.filters.note = base.filters.note
  id : s.id = base.id
  createdAt : s.createdAt = base.createdAt
  wording : s.wording = String.ofList spoken
  name : s.name = if base.name = "" then s.suggestedName else base.name
  tags : s.tags = s.inferredTags

/-- A rule for a limit finds a number or nothing. -/
theorem scan_of_limit? {rule : Rule} {part : Limit} (own : rule.limit? = some part)
    (text : List Char)
    : rule.scan text = none ∨ ∃ v, rule.scan text = some (.number v) := by
  obtain ⟨name, clause⟩ := rule
  cases clause with
  | limit other phrase =>
      simp only [Rule.scan]
      cases phrase.scan text with
      | none => exact .inl rfl
      | some v => exact .inr ⟨v, rfl⟩
  | trigger _ _ | exit _ _ => contradiction

theorem merge_of_blank {text : String} (base : Strategy)
    (blank : Text.trim text.toList = [])
    : merge text base = { base with tags := base.inferredTags } := by
  simp [merge, blank, Strategy.withTags]

/-- A text that is not blank is written rule by rule, then named and tagged. -/
theorem merge_of_spoken {text : String} (base : Strategy)
    (spoken : Text.trim text.toList ≠ [])
    : merge text base
      = (named (rules.foldl (Rule.apply (Text.trim text.toList))
          { base with wording := String.ofList (Text.trim text.toList) })).withTags := by
  simp [merge, spoken]

/-- Naming and tagging leave what rules set, and all else but the name and the tags. -/
theorem named_withTags (s : Strategy)
    : (named s).withTags
      = { s with
          name := if s.name = "" then s.suggestedName else s.name
          tags := s.inferredTags } := by
  unfold named Strategy.withTags
  split <;> rfl

-----------------------------------------------------------------------------------------
-- Each part after a text, blank or not
-----------------------------------------------------------------------------------------

/-- The limits that a strategy sets are those of its filters and exits. -/
theorem Limit.get_congr {s t : Strategy} (filters : s.filters = t.filters)
    (exits : s.exits = t.exits) (part : Limit)
    : part.get s = part.get t := by
  cases part <;> simp only [Limit.get, filters, exits]

theorem get_merge {part : Limit} {rule : Rule} (member : rule ∈ rules)
    (own : rule.limit? = some part) (text : String) (base : Strategy)
    : part.get (merge text base)
      = ((rule.scan (Text.trim text.toList)).bind Hit.number? <|> part.get base) := by
  by_cases blank : Text.trim text.toList = []
  · rw [merge_of_blank base blank, blank, scan_nil member]
    exact Limit.get_congr rfl rfl part
  · rw [merge_of_spoken base blank, named_withTags, ← getLast?_number? _ member own]
    generalize Text.trim text.toList = spoken
    have value := get_foldl (Limit.get · part) (get_apply spoken part) rules
      { base with wording := String.ofList spoken }
    have before : part.get { base with wording := String.ofList spoken } = part.get base :=
      Limit.get_congr rfl rfl part
    rw [before] at value
    exact (Limit.get_congr rfl rfl part).trans value

theorem tech_merge (text : String) (base : Strategy)
    : (merge text base).filters.tech
      = (lastTrigger? (Text.trim text.toList) <|> base.filters.tech) := by
  by_cases blank : Text.trim text.toList = []
  · have silent : lastTrigger? [] = none := by decide +kernel
    rw [merge_of_blank base blank, blank, silent]
    rfl
  · rw [merge_of_spoken base blank, named_withTags]
    exact get_foldl (fun s : Strategy => s.filters.tech) (tech_apply _) rules _

theorem pattern_merge (text : String) (base : Strategy)
    : (merge text base).exits.pattern
      = (lastExit? (Text.trim text.toList) <|> base.exits.pattern) := by
  by_cases blank : Text.trim text.toList = []
  · have silent : lastExit? [] = none := by decide +kernel
    rw [merge_of_blank base blank, blank, silent]
    rfl
  · rw [merge_of_spoken base blank, named_withTags]
    exact get_foldl (fun s : Strategy => s.exits.pattern) (pattern_apply _) rules _

theorem tags_merge (text : String) (base : Strategy)
    : (merge text base).tags = (merge text base).inferredTags := by
  by_cases blank : Text.trim text.toList = []
  · rw [merge_of_blank base blank]
    rfl
  · rw [merge_of_spoken base blank, named_withTags]
    rfl

/-- A text never changes whose strategy this is, when it was made and what is noted on it. -/
theorem merge_frame (text : String) (base : Strategy)
    : (merge text base).id = base.id ∧ (merge text base).createdAt = base.createdAt
      ∧ (merge text base).filters.note = base.filters.note := by
  by_cases blank : Text.trim text.toList = []
  · rw [merge_of_blank base blank]
    exact ⟨rfl, rfl, rfl⟩
  · rw [merge_of_spoken base blank, named_withTags]
    have frame := sameFrame_foldl (Text.trim text.toList) rules
      { base with wording := String.ofList (Text.trim text.toList) }
    exact ⟨frame.id, frame.createdAt, frame.note⟩

theorem wording_merge {text : String} (base : Strategy) (spoken : Text.trim text.toList ≠ [])
    : (merge text base).wording = String.ofList (Text.trim text.toList) := by
  rw [merge_of_spoken base spoken, named_withTags]
  exact (sameFrame_foldl _ rules _).wording

theorem name_merge {text : String} (base : Strategy) (spoken : Text.trim text.toList ≠ [])
    : (merge text base).name
      = if base.name = "" then (merge text base).suggestedName else base.name := by
  rw [merge_of_spoken base spoken, named_withTags]
  have same := (sameFrame_foldl (Text.trim text.toList) rules
    { base with wording := String.ofList (Text.trim text.toList) }).name
  generalize rules.foldl _ _ = s at same ⊢
  rw [← show s.name = base.name from same]
  rfl

theorem merged_merge {text : String} (base : Strategy)
    (spoken : Text.trim text.toList ≠ [])
    : Merged (Text.trim text.toList) base (merge text base) := by
  obtain ⟨id, createdAt, note⟩ := merge_frame text base
  constructor
  case limit =>
    intro part
    obtain ⟨rule, member, own, unique⟩ := exists_rule part
    have value := get_merge member own text base
    refine ⟨rule, member, own, unique, ?_, ?_, scan_of_limit? own _⟩
    · intro v found
      rw [value, found]
      rfl
    · intro missed
      rw [value, missed]
      rfl
  case tech => exact tech_merge text base
  case pattern => exact pattern_merge text base
  case note => exact note
  case id => exact id
  case createdAt => exact createdAt
  case wording => exact wording_merge base spoken
  case name => exact name_merge base spoken
  case tags => exact tags_merge text base

-----------------------------------------------------------------------------------------
-- The law
-----------------------------------------------------------------------------------------

/-- Merging a text, whatever the text and the strategy. A blank text renews the tags alone.
Any other sets each part as the rules say that find something, keeps the rest, and gives a
name and the tags that follow. The names that are reported are those of the rules whose hits
are written, so that nothing changes where none is reported.
-/
theorem merge_law (text : String) (base : Strategy)
    : let spoken := Text.trim text.toList
      (spoken = [] →
        merge text base = { base with tags := base.inferredTags } ∧ hits spoken = [])
      ∧ (spoken ≠ [] →
        Merged spoken base (merge text base)
        ∧ merge text base
          = (named (writeAll (hits spoken)
              { base with wording := String.ofList spoken })).withTags)
      ∧ matchedRules text = (hits spoken).map (fun entry => entry.1.name)
      ∧ (matchedRules text = [] →
        (merge text base).filters = base.filters ∧ (merge text base).exits = base.exits) := by
  intro spoken
  refine ⟨fun blank => ⟨merge_of_blank base blank, ?_⟩, fun some => ⟨merged_merge base some, ?_⟩,
    matchedRules_eq text, fun silent => ?_⟩
  · rw [blank]
    exact hits_nil
  · rw [merge_of_spoken base some, foldl_apply]
  · rw [matchedRules_eq, List.map_eq_nil_iff] at silent
    by_cases blank : spoken = []
    · rw [merge_of_blank base blank]
      exact ⟨rfl, rfl⟩
    · rw [merge_of_spoken base blank, foldl_apply, silent, named_withTags]
      exact ⟨rfl, rfl⟩

end Screener.Phrase
