import Screener.Json.Fields
import Screener.Store.Documents
import Screener.Text.Substring

/-!
A store of documents as one document, in which it can be kept between commands.
-/

namespace Screener

namespace StrategyRow

def document (row : StrategyRow) : Json.Value :=
  .object
    [("id", .text row.id), ("name", .text row.name), ("text", .text row.text),
      ("createdAt", .text row.createdAt)]

def reader : Json.Reader StrategyRow := fun text =>
  let fields :=
    Json.Fields.field "id" Json.string none <|
    Json.Fields.field "name" Json.string none <|
    Json.Fields.field "text" Json.string none <|
    Json.Fields.field "createdAt" Json.string none .done
  (fields.record "StrategyRow" text).map fun
    | ((id, name, document, createdAt, ()), rest) => (⟨id, name, document, createdAt⟩, rest)

end StrategyRow

namespace RunRow

def document (row : RunRow) : Json.Value :=
  .object
    [("id", .text row.id), ("strategyId", .text row.strategyId),
      ("params", .text row.params), ("result", .text row.result),
      ("createdAt", .text row.createdAt)]

def reader : Json.Reader RunRow := fun text =>
  let fields :=
    Json.Fields.field "id" Json.string none <|
    Json.Fields.field "strategyId" Json.string none <|
    Json.Fields.field "params" Json.string none <|
    Json.Fields.field "result" Json.string none <|
    Json.Fields.field "createdAt" Json.string none .done
  (fields.record "RunRow" text).map fun
    | ((id, strategyId, params, result, createdAt, ()), rest) =>
      (⟨id, strategyId, params, result, createdAt⟩, rest)

end RunRow

namespace DocumentStore

def document (store : DocumentStore) : Json.Value :=
  .object
    [("strategies", .list (store.strategies.map StrategyRow.document)),
      ("runs", .list (store.allRuns.map RunRow.document))]

def reader : Json.Reader DocumentStore := fun text =>
  let fields :=
    Json.Fields.field "strategies" (Json.list StrategyRow.reader) none <|
    Json.Fields.field "runs" (Json.list RunRow.reader) none .done
  (fields.record "DocumentStore" text).map fun
    | ((strategies, runs, ()), rest) => (⟨strategies, runs⟩, rest)

/-- The line that the file of a store starts with. -/
def heading : String := "screener store 1\n"

/-- The text that a store is kept in. -/
def toText (store : DocumentStore) : String := heading ++ store.document.render

/-- The store that a text keeps, if it keeps one. -/
def ofText? (text : String) : Option DocumentStore :=
  match Text.afterWord? heading.toList text.toList with
  | some rest =>
    match Json.document reader (String.ofList rest) with
    | .ok store => some store
    | .error _ => none
  | none => none

end DocumentStore

end Screener
