import Mathlib.Data.List.Basic
import Screener.Proofs.Phrase.Merging
import Screener.Proofs.Strategy.Conduct

/-!
Conversations: texts that are merged into a strategy one after another. What the last text
says about a part stands, a name that is there stays, a text that is repeated adds nothing, and
texts about different parts may come in either order.
-/

namespace Screener.Phrase

/-- The strategy after texts that are merged into it one after another. -/
def mergeAll (texts : List String) (base : Strategy) : Strategy :=
  texts.foldl (fun s text => merge text s) base

theorem mergeAll_cons (text : String) (texts : List String) (base : Strategy)
    : mergeAll (text :: texts) base = mergeAll texts (merge text base) := rfl

theorem mergeAll_append (texts others : List String) (base : Strategy)
    : mergeAll (texts ++ others) base = mergeAll others (mergeAll texts base) :=
  List.foldl_append

-----------------------------------------------------------------------------------------
-- Rules by their parts
-----------------------------------------------------------------------------------------

/-- A rule is known by its limits, its signal, its shape and its note. -/
theorem sameRule_of_parts {s t : Strategy}
    (limits : ∀ part, Limit.get s part = Limit.get t part)
    (tech : s.filters.tech = t.filters.tech) (pattern : s.exits.pattern = t.exits.pattern)
    (note : s.filters.note = t.filters.note)
    : s.SameRule t := by
  have peMax := limits .peMax
  have mcapMaxYi := limits .mcapMaxYi
  have turnMinPct := limits .turnMinPct
  have takeProfitPct := limits .takeProfitPct
  have stopLossPct := limits .stopLossPct
  obtain ⟨_, _, _, ⟨_, _, _, _, _⟩, ⟨_, _, _⟩, _, _⟩ := s
  obtain ⟨_, _, _, ⟨_, _, _, _, _⟩, ⟨_, _, _⟩, _, _⟩ := t
  simp only [Limit.get] at peMax mcapMaxYi turnMinPct takeProfitPct stopLossPct
  simp only at tech pattern note
  subst peMax mcapMaxYi turnMinPct takeProfitPct stopLossPct tech pattern note
  exact ⟨rfl, rfl⟩

-----------------------------------------------------------------------------------------
-- Names
-----------------------------------------------------------------------------------------

theorem name_merge_of_blank {text : String} (base : Strategy)
    (blank : Text.trim text.toList = [])
    : (merge text base).name = base.name := by
  rw [merge_of_blank base blank]

/-- A name that is there stays. -/
theorem name_merge_of_named (text : String) {base : Strategy} (named : base.name ≠ "")
    : (merge text base).name = base.name := by
  by_cases blank : Text.trim text.toList = []
  · exact name_merge_of_blank base blank
  · rw [name_merge base blank, if_neg named]

/-- A text that is not blank leaves a name. -/
theorem name_merge_ne_empty {text : String} (base : Strategy)
    (spoken : Text.trim text.toList ≠ [])
    : (merge text base).name ≠ "" := by
  rw [name_merge base spoken]
  split
  · exact Strategy.suggestedName_ne_empty _
  next named => exact named

theorem name_mergeAll_of_named {base : Strategy} (named : base.name ≠ "")
    (texts : List String)
    : (mergeAll texts base).name = base.name := by
  induction texts generalizing base with
  | nil => rfl
  | cons text texts ih =>
      have first := name_merge_of_named text named
      rw [mergeAll_cons, ih (first ▸ named), first]

theorem name_mergeAll_of_blank {texts : List String} (base : Strategy)
    (blank : ∀ text ∈ texts, Text.trim text.toList = [])
    : (mergeAll texts base).name = base.name := by
  induction texts generalizing base with
  | nil => rfl
  | cons text texts ih =>
      obtain ⟨first, blank⟩ := List.forall_mem_cons.1 blank
      rw [mergeAll_cons, ih _ blank, name_merge_of_blank base first]

-----------------------------------------------------------------------------------------
-- Conversations
-----------------------------------------------------------------------------------------

/-- A strategy is what a base becomes by texts that are merged one after another. -/
structure Conversed (texts : List String) (base s : Strategy) : Prop where
  /-- The last text in which the rule of a limit finds a number decides on the limit. -/
  limit
    : ∀ part, ∃ rule ∈ rules, rule.limit? = some part
      ∧ (∀ other ∈ rules, other.limit? = some part → other = rule)
      ∧ (∀ text, rule.scan text = none ∨ ∃ v, rule.scan text = some (.number v))
      ∧ part.get s
        = ((texts.filterMap fun text =>
            (rule.scan (Text.trim text.toList)).bind Hit.number?).getLast? <|> part.get base)
  tech
    : s.filters.tech
      = ((texts.filterMap fun text => lastTrigger? (Text.trim text.toList)).getLast?
          <|> base.filters.tech)
  pattern
    : s.exits.pattern
      = ((texts.filterMap fun text => lastExit? (Text.trim text.toList)).getLast?
          <|> base.exits.pattern)
  note : s.filters.note = base.filters.note
  id : s.id = base.id
  createdAt : s.createdAt = base.createdAt
  untold : texts = [] → s = base
  tags : texts ≠ [] → s.tags = s.inferredTags
  named : base.name ≠ "" → s.name = base.name
  unnamed : (∀ text ∈ texts, Text.trim text.toList = []) → s.name = base.name
  /-- The first text that is not blank suggests the name, whatever comes after it. -/
  suggested
    : base.name = "" → ∀ before text after, texts = before ++ text :: after →
        (∀ other ∈ before, Text.trim other.toList = []) → Text.trim text.toList ≠ [] →
        s.name = (mergeAll (before ++ [text]) base).suggestedName

/-- A limit is what the last text says about it. -/
theorem get_mergeAll {part : Limit} {rule : Rule} (member : rule ∈ rules)
    (own : rule.limit? = some part) (texts : List String) (base : Strategy)
    : part.get (mergeAll texts base)
      = ((texts.filterMap fun text =>
          (rule.scan (Text.trim text.toList)).bind Hit.number?).getLast? <|> part.get base) :=
  get_foldl (Limit.get · part) (get_merge member own) texts base

theorem mergeAll_frame (texts : List String) (base : Strategy)
    : (mergeAll texts base).id = base.id ∧ (mergeAll texts base).createdAt = base.createdAt
      ∧ (mergeAll texts base).filters.note = base.filters.note := by
  induction texts generalizing base with
  | nil => exact ⟨rfl, rfl, rfl⟩
  | cons text texts ih =>
      obtain ⟨id, createdAt, note⟩ := merge_frame text base
      obtain ⟨id', createdAt', note'⟩ := ih (merge text base)
      exact ⟨id'.trans id, createdAt'.trans createdAt, note'.trans note⟩

theorem tags_mergeAll {texts : List String} (base : Strategy) (told : texts ≠ [])
    : (mergeAll texts base).tags = (mergeAll texts base).inferredTags := by
  rw [← List.dropLast_concat_getLast told, mergeAll_append]
  exact tags_merge _ _

theorem conversed_mergeAll (texts : List String) (base : Strategy)
    : Conversed texts base (mergeAll texts base) := by
  obtain ⟨id, createdAt, note⟩ := mergeAll_frame texts base
  constructor
  case limit =>
    intro part
    obtain ⟨rule, member, own, unique⟩ := exists_rule part
    exact ⟨rule, member, own, unique, scan_of_limit? own, get_mergeAll member own texts base⟩
  case tech => exact get_foldl (fun s : Strategy => s.filters.tech) tech_merge texts base
  case pattern => exact get_foldl (fun s : Strategy => s.exits.pattern) pattern_merge texts base
  case note => exact note
  case id => exact id
  case createdAt => exact createdAt
  case untold =>
    rintro rfl
    rfl
  case tags => exact tags_mergeAll base
  case named => exact fun named => name_mergeAll_of_named named texts
  case unnamed => exact name_mergeAll_of_blank base
  case suggested =>
    rintro empty before text after rfl blank spoken
    have front : mergeAll (before ++ [text]) base = merge text (mergeAll before base) :=
      mergeAll_append before [text] base
    have start : (mergeAll before base).name = "" := (name_mergeAll_of_blank base blank).trans empty
    rw [mergeAll_append, mergeAll_cons,
      name_mergeAll_of_named (name_merge_ne_empty _ spoken), name_merge _ spoken, if_pos start,
      front]

/-- A text that is repeated adds nothing: what it sets is set, the name is there, and the tags
follow from the same rule.
-/
theorem merge_merge (text : String) (base : Strategy)
    : merge text (merge text base) = merge text base := by
  have again {α : Type} (x y : Option α) : (x <|> (x <|> y)) = (x <|> y) := by
    cases x <;> rfl
  by_cases blank : Text.trim text.toList = []
  · rw [merge_of_blank _ blank, ← tags_merge]
  have rule : (merge text (merge text base)).SameRule (merge text base) := by
    refine sameRule_of_parts (fun part => ?_) ?_ ?_ (merge_frame _ _).2.2
    · obtain ⟨rule, member, own, _⟩ := exists_rule part
      rw [get_merge member own, get_merge member own, again]
    · rw [tech_merge, tech_merge, again]
    · rw [pattern_merge, pattern_merge, again]
  obtain ⟨id, createdAt, _⟩ := merge_frame text (merge text base)
  have name := name_merge_of_named text (name_merge_ne_empty base blank)
  have tags := (tags_merge text (merge text base)).trans
    (rule.inferredTags.trans (tags_merge text base).symm)
  have wording := (wording_merge (merge text base) blank).trans (wording_merge base blank).symm
  exact Strategy.ext id name createdAt rule.filters rule.exits tags wording

-----------------------------------------------------------------------------------------
-- Texts about different parts
-----------------------------------------------------------------------------------------

/-- A part of a strategy that rules set. -/
inductive Slot where
  | limit (part : Limit)
  | tech
  | pattern
deriving DecidableEq, Repr

/-- The part that a rule sets. -/
def Rule.slot (rule : Rule) : Slot :=
  match rule.clause with
  | .limit part _ => .limit part
  | .trigger _ _ => .tech
  | .exit _ _ => .pattern

/-- The parts that the rules set which find something in a text. -/
def slots (text : String) : List Slot :=
  (hits (Text.trim text.toList)).map fun entry => entry.1.slot

theorem mem_slots {text : String} {slot : Slot}
    : slot ∈ slots text
      ↔ ∃ rule ∈ rules, rule.slot = slot ∧ (rule.scan (Text.trim text.toList)).isSome = true := by
  simp only [slots, hits, List.mem_map, List.mem_filterMap, Option.map_eq_some_iff,
    Option.isSome_iff_exists]
  constructor
  · rintro ⟨_, ⟨rule, member, hit, found, rfl⟩, rfl⟩
    exact ⟨rule, member, rfl, hit, found⟩
  · rintro ⟨rule, member, rfl, hit, found⟩
    exact ⟨(rule, hit), ⟨rule, member, hit, found, rfl⟩, rfl⟩

theorem scan_eq_none_of_slot {text : String} {rule : Rule} (member : rule ∈ rules)
    (silent : rule.slot ∉ slots text)
    : rule.scan (Text.trim text.toList) = none := by
  refine Option.not_isSome_iff_eq_none.1 fun found => silent ?_
  exact mem_slots.2 ⟨rule, member, rfl, found⟩

theorem lastTrigger?_eq_none {text : String} (silent : Slot.tech ∉ slots text)
    : lastTrigger? (Text.trim text.toList) = none := by
  refine List.getLast?_eq_none_iff.2 (List.filterMap_eq_nil_iff.2 fun rule member => ?_)
  cases clause : rule.clause with
  | trigger signal words =>
      have own : rule.slot = .tech := by simp only [Rule.slot, clause]
      simp only [Rule.trigger?, clause, scan_eq_none_of_slot member (own ▸ silent)]
      rfl
  | limit _ _ | exit _ _ => simp only [Rule.trigger?, clause]

theorem lastExit?_eq_none {text : String} (silent : Slot.pattern ∉ slots text)
    : lastExit? (Text.trim text.toList) = none := by
  refine List.getLast?_eq_none_iff.2 (List.filterMap_eq_nil_iff.2 fun rule member => ?_)
  cases clause : rule.clause with
  | exit pattern words =>
      have own : rule.slot = .pattern := by simp only [Rule.slot, clause]
      simp only [Rule.exit?, clause, scan_eq_none_of_slot member (own ▸ silent)]
      rfl
  | limit _ _ | trigger _ _ => simp only [Rule.exit?, clause]

/-- Texts about different parts may come in either order: of each part only one of them says
something, and it is not lost on the other.
-/
theorem sameRule_merge_merge {text other : String}
    (apart : (slots text).Disjoint (slots other)) (base : Strategy)
    : (merge other (merge text base)).SameRule (merge text (merge other base)) := by
  have swap {α : Type} {x y : Option α} (z : Option α) (single : x = none ∨ y = none)
      : (x <|> (y <|> z)) = (y <|> (x <|> z)) := by
    rcases single with rfl | rfl
    · cases y <;> rfl
    · cases x <;> rfl
  have silent (slot : Slot) : slot ∉ slots other ∨ slot ∉ slots text := by
    by_cases said : slot ∈ slots text
    · exact .inl (apart said)
    · exact .inr said
  refine sameRule_of_parts (fun part => ?_) ?_ ?_ ?_
  · obtain ⟨rule, member, own, _⟩ := exists_rule part
    simp only [get_merge member own]
    refine swap _ ((silent rule.slot).imp ?_ ?_)
    · exact fun none => by rw [scan_eq_none_of_slot member none]; rfl
    · exact fun none => by rw [scan_eq_none_of_slot member none]; rfl
  · simp only [tech_merge]
    exact swap _ ((silent .tech).imp lastTrigger?_eq_none lastTrigger?_eq_none)
  · simp only [pattern_merge]
    exact swap _ ((silent .pattern).imp lastExit?_eq_none lastExit?_eq_none)
  · simp only [(merge_frame _ _).2.2]

/-- The laws of conversations. Whatever the texts and the strategy, each part is what the last
text about it says, and a name is kept from the first text that gives one; a text that is
repeated changes nothing; and two texts that set no common part leave the same filters, exits
and tags in either order.
-/
theorem conversation_law (texts : List String) (base : Strategy)
    : Conversed texts base (mergeAll texts base)
      ∧ (∀ text, merge text (merge text base) = merge text base)
      ∧ ∀ text other, (slots text).Disjoint (slots other) →
          let first := merge other (merge text base)
          let second := merge text (merge other base)
          first.filters = second.filters ∧ first.exits = second.exits
            ∧ first.tags = second.tags := by
  refine ⟨conversed_mergeAll texts base, fun text => merge_merge text base, ?_⟩
  intro text other apart first second
  have same : first.SameRule second := sameRule_merge_merge apart base
  have tags : first.tags = second.tags :=
    (tags_merge _ _).trans (same.inferredTags.trans (tags_merge _ _).symm)
  exact ⟨same.filters, same.exits, tags⟩

-- A ceiling and a stop set different parts.
example : slots "PE<20" = [.limit .peMax] ∧ slots " 止损-6% " = [.limit .stopLossPct] := by
  decide +kernel

end Screener.Phrase
