import Screener.Proofs.Store.Creations
import Screener.Proofs.Strategy.Drafts

/-!
Tags of the strategies that stores return. They follow from the limits at creation. A store of
texts tells the tags of a strategy but no limit without a number, so that a tag may outlive the
limit that it stands for.
-/

namespace Screener

open StrategyStore (serve serveAll)

-----------------------------------------------------------------------------------------
-- Tags that outlive their limits
-----------------------------------------------------------------------------------------

namespace Strategy

/-- The tags are those that follow from the filters and exits. -/
def Tagged (s : Strategy) : Prop := s.tags = s.inferredTags

/-- Each tag stands for something that a document tells. A ceiling of the market value has no
tag, and among exits one that is told is enough.
-/
structure TagsTold (s : Strategy) : Prop where
  peMax : ∀ v, s.filters.peMax = some v → v.isFinite = true
  turnMinPct : ∀ v, s.filters.turnMinPct = some v → v.isFinite = true
  exits : s.exits.readBack.isEmpty = s.exits.isEmpty

/-- Strategies have the same tags just if they have limits of the same kinds. -/
theorem inferredTags_eq_iff {s t : Strategy}
    : s.inferredTags = t.inferredTags
      ↔ s.filters.peMax.isSome = t.filters.peMax.isSome
        ∧ s.filters.tech.isSome = t.filters.tech.isSome
        ∧ s.filters.turnMinPct.isSome = t.filters.turnMinPct.isSome
        ∧ s.exits.isEmpty = t.exits.isEmpty := by
  unfold inferredTags
  generalize s.filters.peMax.isSome = a, s.filters.tech.isSome = b,
    s.filters.turnMinPct.isSome = c, s.exits.isEmpty = d,
    t.filters.peMax.isSome = a', t.filters.tech.isSome = b',
    t.filters.turnMinPct.isSome = c', t.exits.isEmpty = d'
  revert a b c d a' b' c' d'
  decide

theorem isSome_filter_isFinite {x : Option Binary64}
    : x.isSome = (x.filter Binary64.isFinite).isSome ↔ ∀ v, x = some v → v.isFinite = true := by
  cases x with
  | none => simp
  | some v => cases finite : v.isFinite <;> simp [Option.filter, finite]

/-- A strategy keeps its tags in its document; they follow from what the document tells just if
each of them is told.
-/
theorem tagged_readBack_iff {s : Strategy} (tagged : s.Tagged)
    : s.readBack.Tagged ↔ s.TagsTold := by
  have same : s.readBack.Tagged ↔ s.inferredTags = s.readBack.inferredTags := by
    rw [← tagged]
    rfl
  rw [same, inferredTags_eq_iff]
  constructor
  · rintro ⟨peMax, _, turnMinPct, exits⟩
    exact ⟨isSome_filter_isFinite.1 peMax, isSome_filter_isFinite.1 turnMinPct, exits.symm⟩
  · rintro ⟨peMax, turnMinPct, exits⟩
    exact ⟨isSome_filter_isFinite.2 peMax, rfl, isSome_filter_isFinite.2 turnMinPct, exits.symm⟩

theorem Finite.tagsTold {s : Strategy} (finite : s.Finite) : s.TagsTold where
  peMax := finite .peMax
  turnMinPct := finite .turnMinPct
  exits := by rw [finite.exits_readBack]

end Strategy

-----------------------------------------------------------------------------------------
-- Strategies that a store returns
-----------------------------------------------------------------------------------------

/-- The strategies that an answer returns. -/
def StoreAnswer.strategies : StoreAnswer → List Strategy
  | created s => [s]
  | listed strategies => strategies
  | found s => s.toList
  | recorded _ | runs _ | refused _ => []

namespace StrategyStore

theorem mem_strategies_added {σ α : Type} {store : σ} {answer : α → StoreAnswer}
    {outcome : Except StoreProblem (α × σ)} {s : Strategy}
    (member : s ∈ (added store answer outcome).1.strategies)
    : ∃ a next, outcome = .ok (a, next) ∧ s ∈ (answer a).strategies := by
  match outcome with
  | .ok (a, next) => exact ⟨a, next, rfl, member⟩
  | .error problem => contradiction

theorem mem_strategies_looked {α : Type} {answer : α → StoreAnswer}
    {outcome : Except StoreProblem α} {s : Strategy}
    (member : s ∈ (looked answer outcome).strategies)
    : ∃ a, outcome = .ok a ∧ s ∈ (answer a).strategies := by
  match outcome with
  | .ok a => exact ⟨a, rfl, member⟩
  | .error problem => contradiction

/-- A strategy that an answer returns has been created, is listed or is found. -/
theorem mem_strategies_serve {σ : Type} [StrategyStore σ] {store : σ} {request : StoreRequest}
    {s : Strategy} (member : s ∈ (serve store request).1.strategies)
    : (∃ id now d next, create store id now d = .ok (s, next))
      ∨ (∃ strategies, list store = .ok strategies ∧ s ∈ strategies)
      ∨ ∃ id, get? store id = .ok (some s) := by
  cases request with
  | create id now d =>
      obtain ⟨t, next, created, same⟩ := mem_strategies_added member
      obtain rfl := List.mem_singleton.1 same
      exact .inl ⟨id, now, d, next, created⟩
  | list => exact .inr (.inl (mem_strategies_looked member))
  | get id =>
      obtain ⟨found, there, same⟩ := mem_strategies_looked member
      obtain rfl := Option.mem_toList.1 same
      exact .inr (.inr ⟨id, there⟩)
  | record id now strategyId params result =>
      obtain ⟨_, _, _, none⟩ := mem_strategies_added member
      contradiction
  | runs strategyId asked =>
      obtain ⟨_, _, none⟩ := mem_strategies_looked member
      contradiction

end StrategyStore

/-- Whatever the store is asked for, the tags of each strategy that it returns mirror its rule. -/
def ShowsTagged {σ : Type} [StrategyStore σ] (store : σ) : Prop :=
  ∀ request, ∀ s ∈ (serve store request).1.strategies, s.Tagged

/-- What is created has its own tags, so only looks at a store may show others. -/
theorem Creates.showsTagged_iff {σ : Type} [StrategyStore σ] (creates : Creates σ) {store : σ}
    : ShowsTagged store
      ↔ (∀ strategies, StrategyStore.list store = .ok strategies → ∀ s ∈ strategies, s.Tagged)
        ∧ ∀ id s, StrategyStore.get? store id = .ok (some s) → s.Tagged := by
  constructor
  · intro shows
    refine ⟨fun strategies listed s member => shows .list s ?_,
      fun id s found => shows (.get id) s ?_⟩
    · simp only [serve, listed]
      exact member
    · simp only [serve, found]
      exact List.mem_singleton_self s
  · rintro ⟨lists, finds⟩ request s member
    obtain ⟨id, now, d, next, created⟩ | ⟨strategies, listed, inside⟩ | ⟨id, found⟩ :=
      StrategyStore.mem_strategies_serve member
    · have same := creates store id now d
      rw [created] at same
      exact (Strategy.settled_of_stored same.symm).tagged
    · exact lists strategies listed s inside
    · exact finds id s found

theorem MemoryStore.showsTagged (history : List StoreRequest)
    : ShowsTagged (serveAll empty history).2 := by
  have settled := (sound_empty.serveAll history).settled
  refine creates.showsTagged_iff.2 ⟨?_, ?_⟩
  · rintro _ ⟨⟩ s member
    exact (settled s (List.mem_reverse.1 member)).tagged
  · intro id s found
    exact (settled s (List.mem_of_find?_eq_some (Except.ok.inj found))).tagged

namespace DocumentStore

/-- A store of texts shows tags that mirror the rules just if each tag is told. -/
theorem Holds.showsTagged_iff {texts : DocumentStore} {strategies : List Strategy}
    (holds : Holds texts strategies) (tagged : ∀ s ∈ strategies, s.Tagged)
    : ShowsTagged texts ↔ ∀ s ∈ strategies, s.TagsTold := by
  have listed := holds.list_eq
  rw [creates.showsTagged_iff]
  constructor
  · rintro ⟨lists, _⟩ s member
    refine (Strategy.tagged_readBack_iff (tagged s member)).1 (lists _ listed _ ?_)
    exact List.mem_map_of_mem (mem_latestFirst.2 member)
  · intro told
    have back (s : Strategy) (member : s ∈ strategies) : s.readBack.Tagged :=
      (Strategy.tagged_readBack_iff (tagged s member)).2 (told s member)
    refine ⟨fun others same t member => ?_, fun id t same => ?_⟩
    · obtain rfl := Except.ok.inj (listed.symm.trans same)
      obtain ⟨s, inside, rfl⟩ := List.mem_map.1 member
      exact back s (mem_latestFirst.1 inside)
    · have found := Except.ok.inj ((holds.get?_eq id).symm.trans same)
      obtain ⟨s, here, rfl⟩ := Option.map_eq_some_iff.1 found
      exact back s (List.mem_of_find?_eq_some here)

theorem showsTagged_serveAll_iff (history : List StoreRequest)
    : ShowsTagged (serveAll empty history).2 ↔ ∀ s ∈ storedBy history, s.TagsTold :=
  (holds_serveAll history).showsTagged_iff fun _ member => (settled_of_mem_storedBy member).tagged

end DocumentStore

/-- Tags in every state of a store, whatever it has been asked for. A store of values only ever
returns strategies whose tags mirror their rules. A store of texts does so just if each tag of
what was created stands for something that a document tells; this is so where strategies come
from forms, documents and texts whose numbers are finite.
-/
theorem showsTagged_serveAll (history : List StoreRequest)
    : ShowsTagged (serveAll MemoryStore.empty history).2
      ∧ (ShowsTagged (serveAll DocumentStore.empty history).2
        ↔ ∀ s ∈ createdIn (serveAll DocumentStore.empty history).1, s.TagsTold)
      ∧ ((∀ id now d, StoreRequest.create id now d ∈ history → d.Drafted) →
          ShowsTagged (serveAll DocumentStore.empty history).2) := by
  have told := DocumentStore.showsTagged_serveAll_iff history
  refine ⟨MemoryStore.showsTagged history, ?_, fun drafted => told.2 fun s member => ?_⟩
  · rwa [DocumentStore.creates.createdIn_serveAll]
  · obtain ⟨id, now, d, inside, stored⟩ := mem_storedBy.1 member
    have finite := (drafted id now d inside).finite
    exact (finite.of_sameRule (Strategy.sameRule_stored stored)).tagsTold

namespace BoundlessCeiling

def now : Timestamp := ⟨⟨2022, 9, 5, by decide⟩, 36610, 9000, by decide, by decide⟩

/-- The valuation is to be below a number of 309 digits, which no finite value is near to. -/
def spoken : List Char := ['P', 'E', '<'] ++ List.replicate 309 '9'

def draft : Strategy := Phrase.merge (String.ofList spoken) (.draft now)

def history : List StoreRequest := [.create "stg_1" now draft]

theorem trim_spoken : Text.trim (String.ofList spoken).toList = spoken := by
  rw [String.toList_ofList]
  decide +kernel

/-- The draft asks for a ceiling without a bound, and for nothing else. -/
theorem rule_draft
    : draft.filters = ⟨some (.infinite false), none, none, none, ""⟩ ∧ draft.exits = .none := by
  have told : Text.trim (String.ofList spoken).toList ≠ [] := by
    rw [trim_spoken]
    decide
  rw [draft, Phrase.merge_of_spoken _ told, trim_spoken, Phrase.named_withTags]
  decide +kernel

theorem name_draft : draft.name = draft.suggestedName := by
  refine (Phrase.name_merge _ ?_).trans (if_pos rfl)
  rw [trim_spoken]
  decide

/-- The ceiling is not told, so the strategy is found without it, under the tag that stands for
it.
-/
theorem found_unmirrored
    : ∃ s, (serve (serveAll DocumentStore.empty history).2 (.get "stg_1")).1 = .found (some s)
      ∧ s.tags = [.valuation] ∧ s.inferredTags = [] := by
  obtain ⟨filters, exits⟩ := rule_draft
  have named : Text.trimmed draft.name ≠ "" := by
    rw [name_draft, draft.trimmed_suggestedName]
    exact draft.suggestedName_ne_empty
  obtain ⟨s, stored⟩ := Strategy.exists_stored named "stg_1" now
  have same := Strategy.sameRule_stored stored
  have filters := same.filters.symm.trans filters
  have exits := same.exits.symm.trans exits
  have tagged := (Strategy.settled_of_stored stored).tagged
  have fresh : ∀ request ∈ ([] : List StoreRequest), request.newId? ≠ some "stg_1" :=
    List.forall_mem_nil _
  have first
      : (storedBy ([] ++ [.create "stg_1" now draft])).find? (fun s => s.id == some "stg_1")
        = some s := find?_storedBy fresh stored
  rw [List.nil_append, ← history] at first
  refine ⟨s.readBack, ?_, ?_, ?_⟩
  · rw [DocumentStore.serve_get, first]
    rfl
  · rw [Strategy.readBack, tagged, Strategy.inferredTags, filters, exits]
    rfl
  · rw [Strategy.inferredTags, Strategy.readBack, filters, exits]
    rfl

end BoundlessCeiling

end Screener
