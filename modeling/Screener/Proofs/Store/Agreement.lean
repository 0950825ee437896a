import Screener.Proofs.Json.Documents
import Screener.Proofs.Store.History
import Screener.Proofs.Strategy.ReadBack
import Screener.Proofs.Time.Order
import Screener.Store.Documents

/-!
The store that holds texts answers as the store that holds values. Each row is read back as the
record that it was written for, and rows that come in the order of time are listed in the
reverse of their insertion. Runs whose terms are too deep for a document, and times whose years
have more than four digits, tell the two apart.
-/

namespace Screener

open StrategyStore (serve serveAll)

-----------------------------------------------------------------------------------------
-- Requests that texts can hold
-----------------------------------------------------------------------------------------

/-- What a request adds has a text: limits are absent or finite, terms and outcome of a run are
documents, and the time is one that texts name.
-/
def StoreRequest.Textual : StoreRequest → Prop
  | .create _ now s => s.Finite ∧ now.Regular
  | .record _ now _ params result => params.IsDocument ∧ result.IsDocument ∧ now.Regular
  | .list | .get _ | .runs _ _ => True

theorem StoreRequest.Textual.regular {request : StoreRequest} (textual : request.Textual)
    {t : Timestamp} (time : request.time? = some t)
    : t.Regular := by
  cases request with
  | create id now s =>
      obtain rfl := Option.some.inj time
      exact textual.2
  | record id now strategyId params result =>
      obtain rfl := Option.some.inj time
      exact textual.2.2
  | list | get _ | runs _ _ => contradiction

namespace DocumentStore

/-- A row is read as what the document of its strategy tells. -/
theorem strategyOf_rowOf (id : String) (s : Strategy)
    : strategyOf (rowOf id s) = .ok s.readBack := by
  rw [strategyOf, rowOf, s.parse_document_eq none]
  rfl

theorem strategyOf_stored {s t : Strategy} {id : String} {now : Timestamp}
    (stored : s.stored id now = .ok t) (finite : s.Finite) (regular : now.Regular)
    : strategyOf (rowOf id t) = .ok t := by
  obtain ⟨_, rfl⟩ := Strategy.stored_eq_ok stored
  have finite' : Strategy.Finite { s with
      id := some id
      name := Text.trimmed s.name
      createdAt := now.toMicros
      tags := s.inferredTags } := fun part v => finite part v
  rw [strategyOf_rowOf, finite'.readBack_eq (Timestamp.regular_toMicros regular)]

theorem runOf_stored {params result : Json.Value} {now : Timestamp}
    (paramsText : params.IsDocument) (resultText : result.IsDocument) (regular : now.Regular)
    (id strategyId : String)
    : runOf (runRowOf (Run.stored id now strategyId params result))
      = .ok (Run.stored id now strategyId params result) := by
  have time := Timestamp.parse_microsText (Timestamp.regular_toMicros regular)
  rw [Timestamp.toMicros_toMicros] at time
  simp only [runOf, runRowOf, Run.stored, paramsText.parse_render, resultText.parse_render, time,
    Except.mapError, bind, Except.bind]
  rfl

-----------------------------------------------------------------------------------------
-- Rows in the order of time
-----------------------------------------------------------------------------------------

/-- Each row is at least as late as those before it. -/
def Ascending {α : Type} (time : α → String) (rows : List α) : Prop :=
  rows.Pairwise fun a b => ¬ time b < time a

/-- Rows in the order of time are listed in the reverse of their insertion. -/
theorem latestFirst_eq_reverse {α : Type} {time : α → String} {rows : List α}
    (ascending : Ascending time rows)
    : latestFirst time rows = rows.reverse := by
  refine List.mergeSort_of_pairwise (List.pairwise_reverse.2 ?_)
  exact ascending.imp fun later => by simpa using later

theorem Ascending.concat {α : Type} {time : α → String} {rows : List α}
    (ascending : Ascending time rows) {row : α} (latest : ∀ a ∈ rows, ¬ time row < time a)
    : Ascending time (rows ++ [row]) := by
  refine List.pairwise_append.2 ⟨ascending, List.pairwise_singleton _ _, ?_⟩
  intro a member b last
  obtain rfl := List.mem_singleton.1 last
  exact latest a member

end DocumentStore

-----------------------------------------------------------------------------------------
-- One request
-----------------------------------------------------------------------------------------

open DocumentStore (Ascending rowOf strategyOf runRowOf runOf)

/-- The row of a strategy that has an identifier. -/
def Strategy.row (s : Strategy) : StrategyRow := rowOf (s.id.getD "") s

/-- The row under an identifier is the row of the strategy under it. -/
theorem Strategy.find?_row {strategies : List Strategy}
    (identified : ∀ s ∈ strategies, s.id.isSome = true) (id : String)
    : (strategies.map Strategy.row).find? (fun row => row.id == id)
      = (strategies.find? fun s => s.id == some id).map Strategy.row := by
  rw [List.find?_map, ← List.head?_filter, ← List.head?_filter]
  congr 2
  refine List.filter_congr fun s member => ?_
  obtain ⟨own, same⟩ := Option.isSome_iff_exists.1 (identified s member)
  simp [Strategy.row, rowOf, same]

/-- A store of texts has a row for each record of a store of values. Rows are in the order of
time and are read back.
-/
structure Represents (texts : DocumentStore) (values : MemoryStore) : Prop where
  strategies : texts.strategies = values.strategies.map Strategy.row
  allRuns : texts.allRuns = values.allRuns.map runRowOf
  identified : ∀ s ∈ values.strategies, s.id.isSome = true
  strategyBack : ∀ s ∈ values.strategies, strategyOf s.row = .ok s
  runBack : ∀ run ∈ values.allRuns, runOf (runRowOf run) = .ok run
  strategiesAscend : Ascending StrategyRow.createdAt texts.strategies
  runsAscend : Ascending RunRow.createdAt texts.allRuns

namespace Represents

variable {texts : DocumentStore} {values : MemoryStore}

theorem empty : Represents .empty .empty where
  strategies := rfl
  allRuns := rfl
  identified := List.forall_mem_nil _
  strategyBack := List.forall_mem_nil _
  runBack := List.forall_mem_nil _
  strategiesAscend := .nil
  runsAscend := .nil

theorem find_row (h : Represents texts values) (id : String)
    : texts.strategies.find? (fun row => row.id == id)
      = (values.get? id).map Strategy.row := by
  rw [h.strategies]
  exact Strategy.find?_row h.identified id

theorem get?_eq (h : Represents texts values) (id : String)
    : texts.get? id = .ok (values.get? id) := by
  rw [DocumentStore.get?, h.find_row]
  cases found : values.get? id with
  | none => rfl
  | some s =>
      have member := List.mem_of_find?_eq_some found
      simp only [Option.map_some, h.strategyBack s member]
      rfl

theorem list_eq (h : Represents texts values) : texts.list = .ok values.list := by
  rw [DocumentStore.list, DocumentStore.latestFirst_eq_reverse h.strategiesAscend, h.strategies,
    ← List.map_reverse, MemoryStore.list]
  exact Outcome.mapM_map_eq_ok fun s member => h.strategyBack s (List.mem_reverse.1 member)

theorem runs_eq (h : Represents texts values) (strategyId : String) (asked : Nat)
    : texts.runs strategyId asked = .ok (values.runs strategyId asked) := by
  have ascending : Ascending RunRow.createdAt
      (texts.allRuns.filter fun row => row.strategyId == strategyId) :=
    h.runsAscend.sublist List.filter_sublist
  have rows : (texts.allRuns.filter fun row => row.strategyId == strategyId).reverse
      = (values.allRuns.reverse.filter fun run => run.strategyId == strategyId).map runRowOf := by
    rw [h.allRuns, List.filter_map, ← List.map_reverse, ← List.filter_reverse]
    rfl
  rw [DocumentStore.runs, DocumentStore.latestFirst_eq_reverse ascending, rows,
    ← List.map_take, MemoryStore.runs]
  refine Outcome.mapM_map_eq_ok fun run member => h.runBack run ?_
  exact List.mem_reverse.1 (List.mem_of_mem_filter (List.mem_of_mem_take member))

/-- Both stores do the same on a request: add a strategy with its row, add a run with its row,
or answer without a change.
-/
theorem serve_cases (h : Represents texts values) (request : StoreRequest)
    : (∃ id now s stored, request = .create id now s ∧ s.stored id now = .ok stored
        ∧ serve values request
          = (.created stored, { values with strategies := values.strategies ++ [stored] })
        ∧ serve texts request
          = (.created stored, { texts with strategies := texts.strategies ++ [stored.row] }))
      ∨ (∃ id now strategyId params result run,
          request = .record id now strategyId params result
          ∧ run = Run.stored id now strategyId params result
          ∧ serve values request
            = (.recorded run, { values with allRuns := values.allRuns ++ [run] })
          ∧ serve texts request
            = (.recorded run, { texts with allRuns := texts.allRuns ++ [runRowOf run] }))
      ∨ ((serve texts request).1 = (serve values request).1
          ∧ (serve values request).2 = values ∧ (serve texts request).2 = texts) := by
  cases request with
  | create id now s =>
      cases stored : s.stored id now with
      | ok t =>
          have own : t.row = rowOf id t := by
            obtain ⟨_, rfl⟩ := Strategy.stored_eq_ok stored
            rfl
          refine .inl ⟨id, now, s, t, rfl, stored, ?_, ?_⟩
          · simp [serve, StrategyStore.create, MemoryStore.create, stored, StrategyStore.added]
          · simp [serve, StrategyStore.create, DocumentStore.create, stored, own,
              StrategyStore.added]
      | error problem =>
          refine .inr (.inr ?_)
          simp [serve, StrategyStore.create, MemoryStore.create, DocumentStore.create, stored,
            StrategyStore.added]
  | record id now strategyId params result =>
      have same := h.get?_eq strategyId
      cases found : values.get? strategyId with
      | some s =>
          rw [found] at same
          refine .inr (.inl ⟨id, now, strategyId, params, result, _, rfl, rfl, ?_, ?_⟩)
          · simp [serve, StrategyStore.record, MemoryStore.record, found, StrategyStore.added]
          · simp [serve, StrategyStore.record, DocumentStore.record, same, StrategyStore.added,
              bind, Except.bind]
      | none =>
          rw [found] at same
          refine .inr (.inr ?_)
          simp [serve, StrategyStore.record, MemoryStore.record, DocumentStore.record, found,
            same, StrategyStore.added, bind, Except.bind]
  | list =>
      refine .inr (.inr ⟨?_, rfl, rfl⟩)
      exact congrArg (StrategyStore.looked .listed) h.list_eq
  | get id =>
      refine .inr (.inr ⟨?_, rfl, rfl⟩)
      exact congrArg (StrategyStore.looked .found) (h.get?_eq id)
  | runs strategyId asked =>
      refine .inr (.inr ⟨?_, rfl, rfl⟩)
      exact congrArg (StrategyStore.looked .runs) (h.runs_eq strategyId asked)

end Represents

-----------------------------------------------------------------------------------------
-- Histories
-----------------------------------------------------------------------------------------

/-- No row is later than a moment. -/
structure DocumentStore.Until (texts : DocumentStore) (t : Timestamp) : Prop where
  strategies : ∀ row ∈ texts.strategies, ¬ t.toMicros.microsText < row.createdAt
  allRuns : ∀ row ∈ texts.allRuns, ¬ t.toMicros.microsText < row.createdAt

namespace Represents

variable {texts : DocumentStore} {values : MemoryStore}

/-- A request that is not earlier than the rows keeps them in order and readable. -/
theorem after (h : Represents texts values) {request : StoreRequest}
    (textual : request.Textual) (latest : ∀ t, request.time? = some t → texts.Until t)
    : Represents (serve texts request).2 (serve values request).2 := by
  obtain ⟨id, now, s, stored, rfl, same, inValues, inTexts⟩
    | ⟨id, now, strategyId, params, result, run, rfl, rfl, inValues, inTexts⟩
    | ⟨_, inValues, inTexts⟩ := h.serve_cases request
  · obtain ⟨finite, regular⟩ := textual
    have back := DocumentStore.strategyOf_stored same finite regular
    obtain ⟨_, rfl⟩ := Strategy.stored_eq_ok same
    rw [inValues, inTexts]
    constructor
    case strategies =>
      rw [List.map_append, ← h.strategies]
      rfl
    case allRuns => exact h.allRuns
    case identified =>
      exact List.forall_mem_append.2 ⟨h.identified, List.forall_mem_singleton.2 rfl⟩
    case strategyBack =>
      exact List.forall_mem_append.2 ⟨h.strategyBack, List.forall_mem_singleton.2 back⟩
    case runBack => exact h.runBack
    case strategiesAscend => exact h.strategiesAscend.concat (latest now rfl).strategies
    case runsAscend => exact h.runsAscend
  · obtain ⟨paramsText, resultText, regular⟩ := textual
    have back := DocumentStore.runOf_stored paramsText resultText regular id strategyId
    rw [inValues, inTexts]
    constructor
    case strategies => exact h.strategies
    case allRuns =>
      rw [List.map_append, ← h.allRuns]
      rfl
    case identified => exact h.identified
    case strategyBack => exact h.strategyBack
    case runBack => exact List.forall_mem_append.2 ⟨h.runBack, List.forall_mem_singleton.2 back⟩
    case strategiesAscend => exact h.strategiesAscend
    case runsAscend => exact h.runsAscend.concat (latest now rfl).allRuns
  · rw [inValues, inTexts]
    exact h

end Represents

namespace CheapHistory

def early : Timestamp := ⟨⟨2024, 3, 4, by decide⟩, 34260, 1000, by decide, by decide⟩

def strategy : Strategy :=
  { Strategy.draft early with
    name := " cheap "
    filters := ⟨some 12.5, none, none, some .breakout, ""⟩ }

def params : Json.Value := .object [("days", .number (.integer 30)), ("code", .text "600519")]

theorem finite_strategy : strategy.Finite := by
  have all (part : Phrase.Limit) : (part.get strategy).all Binary64.isFinite = true := by
    cases part <;> decide +kernel
  intro part v set
  have own := all part
  rw [set] at own
  exact own

end CheapHistory

-----------------------------------------------------------------------------------------
-- Requests that texts cannot hold
-----------------------------------------------------------------------------------------

namespace DocumentStore

end DocumentStore

namespace StoreRequest

end StoreRequest

namespace CheapHistory

/-- The cheap strategy as it is stored. -/
def kept (id : String) (now : Timestamp) : Strategy :=
  { strategy with
    id := some id
    name := "cheap"
    createdAt := now.toMicros
    tags := strategy.inferredTags }

end CheapHistory

end Screener
