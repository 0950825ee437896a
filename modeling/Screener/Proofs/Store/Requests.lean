import Screener.Store.Basic

/-!
Stores under requests. A request is answered and leaves a store; what is refused leaves the
store as it was. A history is a list of requests, answered one after another.
-/

namespace Screener

/-- What a store is asked for. Identifiers and times come from outside. -/
inductive StoreRequest where
  | create (id : String) (now : Timestamp) (s : Strategy)
  | list
  | get (id : String)
  | record (id : String) (now : Timestamp) (strategyId : String) (params result : Json.Value)
  | runs (strategyId : String) (asked : Nat)

/-- What a store answers. -/
inductive StoreAnswer where
  | created (s : Strategy)
  | listed (strategies : List Strategy)
  | found (s : Option Strategy)
  | recorded (run : Run)
  | runs (runs : List Run)
  | refused (problem : StoreProblem)

namespace StoreRequest

/-- The identifier under which a request adds a record. -/
def newId? : StoreRequest → Option String
  | create id _ _ | record id _ _ _ _ => some id
  | list | get _ | runs _ _ => none

/-- The time at which a request adds a record. -/
def time? : StoreRequest → Option Timestamp
  | create _ now _ | record _ now _ _ _ => some now
  | list | get _ | runs _ _ => none

end StoreRequest

namespace StoreAnswer

/-- The strategy that has been added. -/
def created? : StoreAnswer → Option Strategy
  | created s => some s
  | _ => none

/-- The run that has been added. -/
def recorded? : StoreAnswer → Option Run
  | recorded run => some run
  | _ => none

end StoreAnswer

namespace StrategyStore

variable {σ : Type} [StrategyStore σ]

/-- An answer with the store that it leaves, from an operation that adds to the store. -/
def added {α : Type} (store : σ) (answer : α → StoreAnswer)
    : Except StoreProblem (α × σ) → StoreAnswer × σ
  | .ok (a, store) => (answer a, store)
  | .error problem => (.refused problem, store)

/-- An answer from an operation that only looks at the store. -/
def looked {α : Type} (answer : α → StoreAnswer) : Except StoreProblem α → StoreAnswer
  | .ok a => answer a
  | .error problem => .refused problem

/-- The answer to a request with the store after it. -/
def serve (store : σ) : StoreRequest → StoreAnswer × σ
  | .create id now s => added store .created (create store id now s)
  | .list => (looked .listed (list store), store)
  | .get id => (looked .found (get? store id), store)
  | .record id now strategyId params result =>
    added store .recorded (record store id now strategyId params result)
  | .runs strategyId asked => (looked .runs (runs store strategyId asked), store)

/-- The answers to a history with the store after it. -/
def serveAll (store : σ) : List StoreRequest → List StoreAnswer × σ
  | [] => ([], store)
  | request :: history =>
    let first := serve store request
    let others := serveAll first.2 history
    (first.1 :: others.1, others.2)

end StrategyStore

/-- The strategies that answers have added, in their order. -/
def createdIn (answers : List StoreAnswer) : List Strategy :=
  answers.filterMap StoreAnswer.created?

/-- The runs that answers have added, in their order. -/
def recordedIn (answers : List StoreAnswer) : List Run :=
  answers.filterMap StoreAnswer.recorded?

end Screener
