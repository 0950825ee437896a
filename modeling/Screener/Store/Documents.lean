import Screener.Json.Reading
import Screener.Store.Basic
import Screener.Strategy.Document

/-!
The store that holds texts: each record is a row with its document and the text of its time,
by which rows are ordered. Rows of one time are ordered by their insertion.
-/

namespace Screener

/-- A row of a strategy. -/
structure StrategyRow where
  id : String
  name : String
  text : String
  createdAt : String
deriving DecidableEq, Repr

/-- A row of a run. -/
structure RunRow where
  id : String
  strategyId : String
  params : String
  result : String
  createdAt : String
deriving DecidableEq, Repr

/-- Rows in the order of their insertion. -/
structure DocumentStore where
  strategies : List StrategyRow
  allRuns : List RunRow
deriving DecidableEq, Repr

namespace DocumentStore

def empty : DocumentStore := ⟨[], []⟩

/-- The rows with the latest time first, and the latest insertion of one time. -/
def latestFirst {α : Type} (time : α → String) (rows : List α) : List α :=
  rows.reverse.mergeSort fun a b => !(time a < time b)

/-- The row of a strategy that is stored under an identifier. -/
def rowOf (id : String) (s : Strategy) : StrategyRow :=
  ⟨id, s.name, s.document.render, s.createdAt.microsText⟩

/-- The strategy that a row holds. -/
def strategyOf (row : StrategyRow) : Except StoreProblem Strategy :=
  (Strategy.parse none row.text).mapError .badDocument

/-- The row of a run. -/
def runRowOf (run : Run) : RunRow :=
  ⟨run.id, run.strategyId, run.params.render, run.result.render, run.createdAt.microsText⟩

/-- The run that a row holds. -/
def runOf (row : RunRow) : Except StoreProblem Run := do
  let params ← (Json.Value.parse row.params).mapError .badDocument
  let result ← (Json.Value.parse row.result).mapError .badDocument
  let createdAt ← (Timestamp.parse row.createdAt).mapError (.badTime row.createdAt)
  return ⟨row.id, row.strategyId, params, result, createdAt⟩

-----------------------------------------------------------------------------------------
-- Operations
-----------------------------------------------------------------------------------------

def create (store : DocumentStore) (id : String) (now : Timestamp) (s : Strategy)
    : Except StoreProblem (Strategy × DocumentStore) := do
  let stored ← s.stored id now
  return (stored, { store with strategies := store.strategies ++ [rowOf id stored] })

def list (store : DocumentStore) : Except StoreProblem (List Strategy) :=
  (latestFirst StrategyRow.createdAt store.strategies).mapM strategyOf

def get? (store : DocumentStore) (id : String) : Except StoreProblem (Option Strategy) :=
  match store.strategies.find? fun row => row.id == id with
  | some row => (strategyOf row).map some
  | none => .ok none

/-- Adds a run of a strategy that is stored. -/
def record (store : DocumentStore) (id : String) (now : Timestamp) (strategyId : String)
    (params result : Json.Value)
    : Except StoreProblem (Run × DocumentStore) := do
  match ← store.get? strategyId with
  | none => .error (.unknownStrategy strategyId)
  | some _ =>
    let run := Run.stored id now strategyId params result
    .ok (run, { store with allRuns := store.allRuns ++ [runRowOf run] })

def runs (store : DocumentStore) (strategyId : String) (asked : Nat)
    : Except StoreProblem (List Run) :=
  let rows := store.allRuns.filter fun row => row.strategyId == strategyId
  ((latestFirst RunRow.createdAt rows).take (Run.limit asked)).mapM runOf

instance : StrategyStore DocumentStore where
  empty := empty
  create := create
  list := list
  get? := get?
  record := record
  runs := runs

end DocumentStore

end Screener
