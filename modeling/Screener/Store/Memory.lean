import Screener.Store.Basic

/-!
The store that holds values, in the order of their creation.
-/

namespace Screener

structure MemoryStore where
  strategies : List Strategy
  allRuns : List Run

namespace MemoryStore

def empty : MemoryStore := ⟨[], []⟩

def create (store : MemoryStore) (id : String) (now : Timestamp) (s : Strategy)
    : Except StoreProblem (Strategy × MemoryStore) := do
  let stored ← s.stored id now
  return (stored, { store with strategies := store.strategies ++ [stored] })

def list (store : MemoryStore) : List Strategy := store.strategies.reverse

def get? (store : MemoryStore) (id : String) : Option Strategy :=
  store.strategies.find? fun s => s.id == some id

/-- Adds a run of a strategy that is stored. -/
def record (store : MemoryStore) (id : String) (now : Timestamp) (strategyId : String)
    (params result : Json.Value)
    : Except StoreProblem (Run × MemoryStore) :=
  match store.get? strategyId with
  | none => .error (.unknownStrategy strategyId)
  | some _ =>
    let run := Run.stored id now strategyId params result
    .ok (run, { store with allRuns := store.allRuns ++ [run] })

def runs (store : MemoryStore) (strategyId : String) (asked : Nat) : List Run :=
  (store.allRuns.reverse.filter fun run => run.strategyId == strategyId).take (Run.limit asked)

instance : StrategyStore MemoryStore where
  empty := empty
  create := create
  list store := .ok store.list
  get? store id := .ok (store.get? id)
  record := record
  runs store strategyId asked := .ok (store.runs strategyId asked)

end MemoryStore

end Screener
