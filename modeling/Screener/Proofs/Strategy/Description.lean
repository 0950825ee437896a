import Screener.Proofs.Phrase.Scanning
import Screener.Strategy.Description

/-!
The descriptions of a strategy told by its chips. The clauses of the line are the chips written
together, the tags are the aspects that the keys belong to, and the card has a line to each chip.
-/

namespace Screener

/-- The keys of the constraints that bear on an aspect. -/
def Tag.keys : Tag → List String
  | .valuation => ["PE"]
  | .technical => ["技术"]
  | .activity => ["换手"]
  | .riskControl => ["止盈", "止损", "形态"]

/-- The aspects in the order in which they are marked. -/
def Tag.inOrder : List Tag := [.valuation, .technical, .activity, .riskControl]

namespace Strategy

variable {s : Strategy}

-----------------------------------------------------------------------------------------
-- Chips
-----------------------------------------------------------------------------------------

/-- There is a chip to each constraint. -/
theorem mem_chips_iff {key value : String}
    : (key, value) ∈ s.chips
      ↔ (key = "PE" ∧ ∃ v, s.filters.peMax = some v ∧ value = "≤" ++ Decimal.plain v)
        ∨ (key = "市值" ∧ ∃ v, s.filters.mcapMaxYi = some v ∧ value = "≤" ++ Decimal.plain v ++ "亿")
        ∨ (key = "换手" ∧ ∃ v, s.filters.turnMinPct = some v ∧ value = "≥" ++ Decimal.plain v ++ "%")
        ∨ (key = "技术" ∧ ∃ t, s.filters.tech = some t ∧ value = t.label)
        ∨ (key = "止盈" ∧ ∃ v, s.exits.takeProfitPct = some v ∧ value = Decimal.plain v ++ "%")
        ∨ (key = "止损" ∧ ∃ v, s.exits.stopLossPct = some v ∧ value = Decimal.plain v ++ "%")
        ∨ (key = "形态" ∧ ∃ p, s.exits.pattern = some p ∧ value = p.label) := by
  have part {α : Type} (key' : String) (text : α → String) (o : Option α)
      : (key, value) ∈ (o.map fun a => (key', text a)).toList
        ↔ key = key' ∧ ∃ a, o = some a ∧ value = text a := by
    cases o <;> simp
  simp only [chips, List.flatMap_cons, List.flatMap_nil, List.mem_append, List.not_mem_nil,
    or_false, part]

/-- The keys that chips have. -/
def keys : List String := ["PE", "市值", "换手", "技术", "止盈", "止损", "形态"]

theorem key_mem_keys {chip : String × String} (member : chip ∈ s.chips) : chip.1 ∈ keys := by
  obtain ⟨key, value⟩ := chip
  rcases mem_chips_iff.1 member with ⟨rfl, _⟩ | ⟨rfl, _⟩ | ⟨rfl, _⟩ | ⟨rfl, _⟩ | ⟨rfl, _⟩ | ⟨rfl, _⟩
    | ⟨rfl, _⟩ <;> simp [keys]

/-- A constraint is there if a chip is. -/
theorem chips_eq_nil_iff
    : s.chips = [] ↔ s.filters.isEmpty = true ∧ s.exits.isEmpty = true := by
  simp only [chips, Filters.isEmpty, Exits.isEmpty, List.flatMap_cons, List.flatMap_nil,
    List.append_eq_nil_iff, Option.toList_eq_nil_iff, Option.map_eq_none_iff, Bool.and_eq_true,
    Option.isNone_iff_eq_none, and_true, and_assoc]

-----------------------------------------------------------------------------------------
-- The line
-----------------------------------------------------------------------------------------

/-- A chip as a clause: a signal and a shape stand behind a colon, a number behind the key. -/
def clauseOf (chip : String × String) : String :=
  chip.1 ++ (if chip.1 = "技术" ∨ chip.1 = "形态" then "：" else "") ++ chip.2

theorem clauses_eq (s : Strategy) : s.clauses = s.chips.map clauseOf := by
  have part {α : Type} (clause : α → String) (chip : α → String × String)
      (same : ∀ a, clauseOf (chip a) = clause a) (o : Option α)
      : (o.map chip).toList.map clauseOf = (o.map clause).toList := by
    cases o with
    | none => rfl
    | some a => exact congrArg (fun text => [text]) (same a)
  simp only [clauses, chips, List.flatMap_cons, List.flatMap_nil, List.map_append, List.map_nil]
  rw [part fun v => "PE≤" ++ Decimal.plain v, part fun v => "市值≤" ++ Decimal.plain v ++ "亿",
    part fun v => "换手≥" ++ Decimal.plain v ++ "%", part fun t : Trigger => "技术：" ++ t.label,
    part fun v => "止盈" ++ Decimal.plain v ++ "%", part fun v => "止损" ++ Decimal.plain v ++ "%",
    part fun p : ExitPattern => "形态：" ++ p.label]
  all_goals
    intro a
    simp [clauseOf, ← String.append_assoc]

/-- No clause starts as the line of a strategy without constraints. -/
theorem head?_clauseOf {chip : String × String} (member : chip ∈ s.chips)
    : ∃ c, (clauseOf chip).toList.head? = some c ∧ c ≠ '（' := by
  have heads : keys.all (fun key => key.toList.head?.any (· != '（')) = true := by decide
  have own := List.all_eq_true.1 heads chip.1 (key_mem_keys member)
  rw [clauseOf, String.append_assoc, String.toList_append, List.head?_append]
  cases front : chip.1.toList.head? with
  | none => simp [front] at own
  | some c => exact ⟨c, rfl, by simpa [front] using own⟩

theorem summary_of_chips (some : s.chips ≠ [])
    : s.summary = String.intercalate " · " (s.chips.map clauseOf) := by
  rw [summary, clauses_eq, if_neg (by simpa using some)]

theorem summary_eq_empty_iff : s.summary = emptySummary ↔ s.chips = [] := by
  refine ⟨fun same => ?_, fun none => by rw [summary, clauses_eq, none]; rfl⟩
  refine Classical.byContradiction fun some => ?_
  obtain ⟨chip, others, whole⟩ := List.exists_cons_of_ne_nil some
  have first : chip ∈ s.chips := by rw [whole]; exact List.mem_cons_self
  obtain ⟨c, front, other⟩ := head?_clauseOf first
  have head : s.summary.toList.head? = Option.some c := by
    rw [summary_of_chips some, whole, String.toList_intercalate, List.map_cons, List.map_cons]
    cases others.map clauseOf with
    | nil => simpa using front
    | cons clause clauses =>
        rw [List.map_cons, List.intercalate_cons_cons, List.append_assoc, List.head?_append, front]
        rfl
  have parenthesis : emptySummary.toList.head? = Option.some '（' := by decide
  rw [same, parenthesis] at head
  exact other (Option.some.inj head).symm

-----------------------------------------------------------------------------------------
-- Tags
-----------------------------------------------------------------------------------------

/-- A key is there if its part of the strategy is. -/
theorem exists_chip_iff {key : String}
    : (∃ value, (key, value) ∈ s.chips)
      ↔ (key = "PE" ∧ s.filters.peMax.isSome) ∨ (key = "市值" ∧ s.filters.mcapMaxYi.isSome)
        ∨ (key = "换手" ∧ s.filters.turnMinPct.isSome) ∨ (key = "技术" ∧ s.filters.tech.isSome)
        ∨ (key = "止盈" ∧ s.exits.takeProfitPct.isSome) ∨ (key = "止损" ∧ s.exits.stopLossPct.isSome)
        ∨ (key = "形态" ∧ s.exits.pattern.isSome) := by
  have part {α : Type} (text : α → String) (o : Option α)
      : (∃ value, ∃ a, o = some a ∧ value = text a) ↔ o.isSome := by
    cases o <;> simp
  simp only [mem_chips_iff, exists_or, exists_and_left, part]

/-- An aspect is marked if a chip bears on it. -/
theorem mem_inferredTags_iff {tag : Tag}
    : tag ∈ s.inferredTags ↔ ∃ key ∈ tag.keys, ∃ value, (key, value) ∈ s.chips := by
  simp only [exists_chip_iff]
  cases tag with
  | riskControl =>
      have ends : s.exits.isEmpty = false ↔ s.exits.takeProfitPct.isSome
          ∨ s.exits.stopLossPct.isSome ∨ s.exits.pattern.isSome := by
        unfold Exits.isEmpty
        cases s.exits.takeProfitPct <;> cases s.exits.stopLossPct <;> simp
      simpa [inferredTags, Tag.keys] using ends
  | valuation | technical | activity => simp [inferredTags, Tag.keys]

theorem sublist_inferredTags (s : Strategy) : s.inferredTags.Sublist Tag.inOrder := by
  have mark (b : Bool) (tag : Tag) : (if b then [tag] else []).Sublist [tag] := by
    cases b <;> simp
  have unmark (b : Bool) (tag : Tag) : (if b then [] else [tag]).Sublist [tag] := by
    cases b <;> simp
  exact (((mark _ _).append (mark _ _)).append (mark _ _)).append (unmark _ _)

-----------------------------------------------------------------------------------------
-- The card
-----------------------------------------------------------------------------------------

/-- The lines of a text. -/
def linesOf (text : String) : List (List Char) := text.toList.splitOn '\n'

theorem linesOf_append (text rest : String)
    : linesOf (text ++ "\n" ++ rest) = linesOf text ++ linesOf rest := by
  simp only [linesOf, String.toList_append, List.splitOn_eq_splitOnP]
  rw [show "\n".toList = ['\n'] from rfl, List.append_assoc, List.singleton_append,
    List.splitOnP_append_cons _ _ (by decide)]

theorem linesOf_line {text : String} (single : '\n' ∉ text.toList)
    : linesOf text = [text.toList] := by
  rw [linesOf, List.splitOn_eq_splitOnP, List.splitOnP_eq_singleton]
  intro c member
  exact beq_false_of_ne fun same => single (same ▸ member)

/-- The lines of a text that starts with lines. By induction along these. -/
theorem linesOf_join {lines : List String} (single : ∀ line ∈ lines, '\n' ∉ line.toList)
    (rest : String)
    : linesOf (String.join (lines.map (· ++ "\n")) ++ rest)
      = lines.map String.toList ++ linesOf rest := by
  induction lines with
  | nil => simp
  | cons line lines ih =>
      obtain ⟨here, later⟩ := List.forall_mem_cons.1 single
      rw [List.map_cons, String.join_cons, String.append_assoc, linesOf_append, linesOf_line here,
        ih later]
      rfl

theorem notMem_plain (v : Binary64) : '\n' ∉ (Decimal.plain v).toList := by
  cases v with
  | nan => decide
  | infinite negative => cases negative <;> decide
  | finite negative units h =>
      intro member
      exact absurd (Phrase.mem_numerals_of_mem_plain rfl member) (by decide)

/-- There is no break in a chip. -/
theorem notMem_chip {key value : String} (member : (key, value) ∈ s.chips)
    : '\n' ∉ key.toList ∧ '\n' ∉ value.toList := by
  constructor
  · have single : keys.all (fun key => !key.toList.contains '\n') = true := by decide
    simpa using List.all_eq_true.1 single key (key_mem_keys member)
  · rcases mem_chips_iff.1 member with ⟨_, v, _, rfl⟩ | ⟨_, v, _, rfl⟩ | ⟨_, v, _, rfl⟩
      | ⟨_, t, _, rfl⟩ | ⟨_, v, _, rfl⟩ | ⟨_, v, _, rfl⟩ | ⟨_, p, _, rfl⟩
    case inr.inr.inr.inl => cases t <;> decide
    case inr.inr.inr.inr.inr.inr => cases p <;> decide
    all_goals simp [notMem_plain]

/-- What a card says before it comes to the constraints. -/
def heading (s : Strategy) : String :=
  "名称  " ++ s.name ++
    match s.id with
    | some id => "\n编号  " ++ id ++ "\n创建  " ++ s.createdAt.toMinute
    | none => ""

/-- The lines of a card about the constraints: a line to each under a title, or the one line of a
strategy without any.
-/
def ruleLines (s : Strategy) : List String :=
  if s.chips = [] then ["规则  " ++ s.summary]
  else "规则" :: s.chips.map fun chip => "  " ++ chip.1 ++ "  " ++ chip.2

/-- What a card says after the constraints. -/
def footing (s : Strategy) : String :=
  (if s.tags = [] then "" else "标签  " ++ String.intercalate " " (s.tags.map Tag.label) ++ "\n") ++
    (if s.filters.note = "" then "" else "备注  " ++ s.filters.note ++ "\n") ++
    if s.wording = "" then "" else "原文  " ++ s.wording ++ "\n"

theorem card_eq (s : Strategy)
    : s.card
      = s.heading ++ "\n" ++ (String.join (s.ruleLines.map (· ++ "\n")) ++ s.footing) := by
  have rules : String.join (s.ruleLines.map (· ++ "\n"))
      = if s.chips.isEmpty then "规则  " ++ s.summary ++ "\n"
        else
          "规则\n" ++
            String.join (s.chips.map fun chip => "  " ++ chip.1 ++ "  " ++ chip.2 ++ "\n") := by
    unfold ruleLines
    cases s.chips with
    | nil => simp
    | cons chip others =>
        rw [if_neg (List.cons_ne_nil _ _), List.map_cons, String.join_cons, List.map_map]
        rfl
  have tags : (if s.tags = [] then ""
        else "标签  " ++ String.intercalate " " (s.tags.map Tag.label) ++ "\n")
      = if s.tags.isEmpty then ""
        else "标签  " ++ String.intercalate " " (s.tags.map Tag.label) ++ "\n" := by
    cases s.tags <;> rfl
  rw [rules, footing, tags, heading]
  unfold card
  cases s.id <;> simp only [String.append_assoc] <;> rfl

theorem notMem_ruleLines {line : String} (member : line ∈ s.ruleLines) : '\n' ∉ line.toList := by
  unfold ruleLines at member
  split at member
  next none =>
    rw [List.mem_singleton.1 member, summary_eq_empty_iff.2 none]
    decide
  next =>
    rcases List.mem_cons.1 member with rfl | chip
    · decide
    · obtain ⟨⟨key, value⟩, inside, rfl⟩ := List.mem_map.1 chip
      simp [notMem_chip inside]

theorem linesOf_card (s : Strategy)
    : linesOf s.card
      = linesOf s.heading ++ s.ruleLines.map String.toList ++ linesOf s.footing := by
  rw [card_eq, linesOf_append, linesOf_join fun line member => notMem_ruleLines member,
    List.append_assoc]

-----------------------------------------------------------------------------------------
-- All of them
-----------------------------------------------------------------------------------------

/-- The descriptions of a strategy agree, whatever its limits are. There are chips unless nothing is
asked for, which is what the one fixed line says; any other line is the chips as clauses. The tags
are the aspects that chips bear on, each once and in order. The card has a line to each chip.
-/
theorem descriptions_agree (s : Strategy)
    : (s.chips = [] ↔ s.filters.isEmpty = true ∧ s.exits.isEmpty = true)
      ∧ (s.chips = [] ↔ s.summary = emptySummary)
      ∧ s.summary
        = (if s.chips = [] then emptySummary
          else String.intercalate " · " (s.chips.map clauseOf))
      ∧ (∀ tag, tag ∈ s.inferredTags ↔ ∃ key ∈ tag.keys, ∃ value, (key, value) ∈ s.chips)
      ∧ s.inferredTags.Sublist Tag.inOrder
      ∧ linesOf s.card
        = linesOf s.heading ++ s.ruleLines.map String.toList ++ linesOf s.footing := by
  refine ⟨chips_eq_nil_iff, summary_eq_empty_iff.symm, ?_, fun tag => mem_inferredTags_iff,
    sublist_inferredTags s, linesOf_card s⟩
  split
  next none => exact summary_eq_empty_iff.2 none
  next some => exact summary_of_chips some

end Strategy

end Screener
