import Screener.Proofs.Text.Lowercase
import Screener.Strategy.Description
import Screener.Timeline.Simulation

/-!
What a strategy does. It follows from what the strategy asks for and when it ends, in a
simulation also from its name; its identifier, its time, its tags and its wording have no part
in it.
-/

namespace Screener

attribute [ext] Strategy

namespace Strategy

/-- Both strategies ask for the same and end alike. -/
structure SameRule (s t : Strategy) : Prop where
  filters : s.filters = t.filters
  exits : s.exits = t.exits

namespace SameRule

variable {s t : Strategy}

theorem inferredTags (same : s.SameRule t) : s.inferredTags = t.inferredTags := by
  simp only [Strategy.inferredTags, same.filters, same.exits]

theorem clauses (same : s.SameRule t) : s.clauses = t.clauses := by
  simp only [Strategy.clauses, same.filters, same.exits]

theorem summary (same : s.SameRule t) : s.summary = t.summary := by
  rw [Strategy.summary, Strategy.summary, same.clauses]

theorem traits (same : s.SameRule t) : s.traits = t.traits := by
  obtain ⟨filters, exits⟩ := same
  rw [Strategy.traits.eq_def s, filters, exits]
  rfl

theorem suggestedName (same : s.SameRule t) : s.suggestedName = t.suggestedName := by
  rw [Strategy.suggestedName, Strategy.suggestedName, same.traits]

theorem screen (same : s.SameRule t) (securities : List Security)
    : s.screen securities = t.screen securities := by
  have selects : s.selects = t.selects := by
    funext security
    rw [selects, selects, same.filters]
  rw [Strategy.screen, Strategy.screen, selects]

/-- An event is told in the same words, whatever strategy of the rule it belongs to. -/
theorem explain (same : s.SameRule t) : Timeline.explain s = Timeline.explain t := by
  funext security leader kind
  cases kind with
  | buy =>
      have reasons : Timeline.buyReasons s security = Timeline.buyReasons t security := by
        simp only [Timeline.buyReasons, same.filters]
      simp only [Timeline.explain, reasons]
  | sell =>
      have reason : Timeline.sellReason s = Timeline.sellReason t := by
        simp only [Timeline.sellReason, same.exits]
      simp only [Timeline.explain, reason]
  | note => simp only [Timeline.explain, same.filters]

theorem simulate (same : s.SameRule t) (name : s.name = t.name) (security : Security)
    (days seed : UInt32) (market : Option Market.Snapshot)
    : Timeline.simulate s security days seed market
      = Timeline.simulate t security days seed market := by
  have selects : s.selects security = t.selects security := by
    rw [selects, selects, same.filters]
  have next : Timeline.nextEvent s security = Timeline.nextEvent t security := by
    funext days leader
    simp only [Timeline.nextEvent, selects, same.explain]
  simp only [Timeline.simulate, Timeline.drawEvents, next, name]

end SameRule

-----------------------------------------------------------------------------------------
-- Suggested names
-----------------------------------------------------------------------------------------

theorem mem_traits {s : Strategy} {trait : String} (member : trait ∈ s.traits)
    : trait ∈ ["低估值", "趋势", "突破", "反转", "小盘", "硬止损"] := by
  simp only [traits, List.mem_flatMap, List.mem_cons, List.not_mem_nil, or_false] at member
  obtain ⟨found, rfl | rfl | rfl | rfl, inside⟩ := member
  · obtain ⟨_, _, rfl⟩ := Option.map_eq_some_iff.1 (Option.mem_toList.1 inside)
    decide
  · obtain ⟨signal, _, rfl⟩ := Option.map_eq_some_iff.1 (Option.mem_toList.1 inside)
    cases signal <;> decide
  · obtain ⟨limit, _, small⟩ := Option.bind_eq_some_iff.1 (Option.mem_toList.1 inside)
    split at small
    · obtain rfl := Option.some.inj small
      decide
    · contradiction
  · obtain ⟨_, _, rfl⟩ := Option.map_eq_some_iff.1 (Option.mem_toList.1 inside)
    decide

/-- The words that suggested names are made of have no blank. -/
theorem solid_of_mem {word : String}
    (member : word ∈ ["自定义策略", "策略", "低估值", "趋势", "突破", "反转", "小盘", "硬止损"])
    : ∀ c ∈ word.toList, Text.isBlank c = false := by
  have solid
      : (["自定义策略", "策略", "低估值", "趋势", "突破", "反转", "小盘", "硬止损"].all fun word =>
          word.toList.all fun c => !Text.isBlank c) = true := by decide
  intro c inside
  have plain := List.all_eq_true.1 (List.all_eq_true.1 solid word member) c inside
  simpa using plain

/-- A suggested name has no blank, as its parts have none, and it is not empty. -/
theorem tight_suggestedName (s : Strategy) : Text.Tight s.suggestedName.toList := by
  rw [suggestedName]
  split
  · exact .of_forall (by decide) (solid_of_mem (by simp))
  · rw [String.toList_append, String.toList_join]
    refine .of_forall (by simp)
      (List.forall_mem_append.2 ⟨fun c member => ?_, solid_of_mem (by simp)⟩)
    obtain ⟨trait, inside, letter⟩ := List.mem_flatMap.1 member
    have known := mem_traits (List.mem_of_mem_take inside)
    exact solid_of_mem (List.mem_append_right ["自定义策略", "策略"] known) c letter

theorem suggestedName_ne_empty (s : Strategy) : s.suggestedName ≠ "" := by
  intro empty
  exact s.tight_suggestedName.ne_nil (String.toList_eq_nil_iff.2 empty)

theorem trimmed_suggestedName (s : Strategy)
    : Text.trimmed s.suggestedName = s.suggestedName := by
  rw [Text.trimmed, s.tight_suggestedName.trim_eq, String.ofList_toList]

end Strategy

end Screener
