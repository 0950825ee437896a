import Screener.Json.Fields
import Screener.Strategy.Codes

/-!
Strategies as documents hold them. Every member may be left out; a signal or a shape that is
not asked for is the empty string.
-/

namespace Screener

/-- A named value, or nothing where there is null or a blank string. -/
def Json.namedOrBlank {α : Type} (names : List (String × α)) : Json.Reader (Option α) :=
  fun text => do
    let (found, rest) ← Json.optional Json.string text
    match found.map Text.trimmed with
    | none | some "" => .ok (none, rest)
    | some name => .ok (some (← Json.choose names name), rest)

namespace Filters

def document (f : Filters) : Json.Value :=
  .object
    [("peMax", .ofOption .ofFloat f.peMax), ("mcapMaxYi", .ofOption .ofFloat f.mcapMaxYi),
      ("turnMinPct", .ofOption .ofFloat f.turnMinPct),
      ("tech", .text ((f.tech.map Trigger.code).getD "")), ("note", .text f.note)]

def reader : Json.Reader Filters := fun text =>
  let limit := Json.optional Json.float
  let fields :=
    Json.Fields.field "peMax" limit (some .none) <|
    Json.Fields.field "mcapMaxYi" limit (some .none) <|
    Json.Fields.field "turnMinPct" limit (some .none) <|
    Json.Fields.field "tech" (Json.namedOrBlank Trigger.codes) (some .none) <|
    Json.Fields.field "note" Json.string (some "") .done
  (fields.record "Filters" text).map fun
    | ((peMax, mcapMaxYi, turnMinPct, tech, note, ()), rest) =>
      (⟨peMax, mcapMaxYi, turnMinPct, tech, note⟩, rest)

end Filters

namespace Exits

def document (e : Exits) : Json.Value :=
  .object
    [("takeProfitPct", .ofOption .ofFloat e.takeProfitPct),
      ("stopLossPct", .ofOption .ofFloat e.stopLossPct),
      ("exitPattern", .text ((e.pattern.map ExitPattern.code).getD ""))]

def reader : Json.Reader Exits := fun text =>
  let limit := Json.optional Json.float
  let fields :=
    Json.Fields.field "takeProfitPct" limit (some .none) <|
    Json.Fields.field "stopLossPct" limit (some .none) <|
    Json.Fields.field "exitPattern" (Json.namedOrBlank ExitPattern.codes) (some .none) .done
  (fields.record "Exits" text).map fun
    | ((takeProfitPct, stopLossPct, pattern, ()), rest) =>
      (⟨takeProfitPct, stopLossPct, pattern⟩, rest)

end Exits

namespace Strategy

def document (s : Strategy) : Json.Value :=
  .object
    [("id", .ofOption .text s.id), ("name", .text s.name),
      ("createdAt", .text s.createdAt.text), ("filters", s.filters.document),
      ("exits", s.exits.document), ("tags", .list (s.tags.map fun t => .text t.label)),
      ("nl", .text s.wording)]

/-- Reads a strategy; one without a time of creation was created now, if that is given. -/
def reader (now : Option Timestamp) : Json.Reader Strategy := fun text =>
  let fields :=
    Json.Fields.field "id" (Json.optional Json.string) (some none) <|
    Json.Fields.field "name" Json.string (some "") <|
    Json.Fields.field "createdAt" Json.moment now <|
    Json.Fields.field "filters" Filters.reader (some .none) <|
    Json.Fields.field "exits" Exits.reader (some .none) <|
    Json.Fields.field "tags" (Json.list (Json.named Tag.codes)) (some []) <|
    Json.Fields.field "nl" Json.string (some "") .done
  (fields.record "StrategyDsl" text).map fun
    | ((id, name, createdAt, filters, exits, tags, wording, ()), rest) =>
      (⟨id, name, createdAt, filters, exits, tags, wording⟩, rest)

/-- The strategy in a document. -/
def parse (now : Option Timestamp) (text : String) : Except Json.Problem Strategy :=
  Json.document (reader now) text

end Strategy

end Screener
