import Screener.Json.Value
import Screener.Strategy.Basic
import Screener.Text.Blank
import Screener.Time.Reading

/-!
Stores of strategies and of the runs made with them. Identifiers and times come from outside,
and the latest record is listed first.
-/

namespace Screener

/-- A recorded run of a strategy: its terms and its outcome. -/
structure Run where
  id : String
  strategyId : String
  params : Json.Value
  result : Json.Value
  createdAt : Timestamp

namespace Run

/-- The run as it is stored, its values in order of key and its time to the microsecond. -/
def stored (id : String) (now : Timestamp) (strategyId : String) (params result : Json.Value)
    : Run :=
  ⟨id, strategyId, params.canonical, result.canonical, now.toMicros⟩

def document (run : Run) : Json.Value :=
  .object
    [("id", .text run.id), ("strategyId", .text run.strategyId), ("params", run.params),
      ("result", run.result), ("createdAt", .text run.createdAt.text)]

/-- The number of runs that a listing holds at most, for a number that is asked for. -/
def limit (asked : Nat) : Nat := max 1 (min asked 100)

end Run

/-- Why a store refuses what it is asked for. -/
inductive StoreProblem where
  | unnamed
  | unknownStrategy (id : String)
  | badDocument (problem : Json.Problem)
  | badTime (text : String) (cause : TimeProblem)
deriving DecidableEq

/-- The strategy as it is stored: identified, with a trimmed name that is not empty, a time of
creation and its own tags.
-/
def Strategy.stored (s : Strategy) (id : String) (now : Timestamp)
    : Except StoreProblem Strategy :=
  let name := Text.trimmed s.name
  if name = "" then .error .unnamed
  else .ok { s with id := some id, name := name, createdAt := now.toMicros }.withTags

/-- A store that a value holds. -/
class StrategyStore (σ : Type) where
  /-- The store that holds nothing. -/
  empty : σ
  /-- Adds a strategy under an identifier. -/
  create : σ → (id : String) → (now : Timestamp) → Strategy →
    Except StoreProblem (Strategy × σ)
  /-- The strategies, the latest first. -/
  list : σ → Except StoreProblem (List Strategy)
  /-- The strategy with an identifier. -/
  get? : σ → (id : String) → Except StoreProblem (Option Strategy)
  /-- Adds a run of a strategy under an identifier. -/
  record : σ → (id : String) → (now : Timestamp) → (strategyId : String) →
    (params result : Json.Value) → Except StoreProblem (Run × σ)
  /-- The runs of a strategy, the latest first. -/
  runs : σ → (strategyId : String) → (asked : Nat) → Except StoreProblem (List Run)

/-- The strategy with an identifier, which must be there. -/
def StrategyStore.find {σ : Type} [StrategyStore σ] (store : σ) (id : String)
    : Except StoreProblem Strategy := do
  match ← get? store id with
  | some s => .ok s
  | none => .error (.unknownStrategy id)

end Screener
