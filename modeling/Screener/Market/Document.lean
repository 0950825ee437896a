import Screener.Json.Fields
import Screener.Market.Snapshot

/-!
Snapshots as documents hold them. The two scores may be left out.
-/

namespace Screener.Market

namespace IndexQuote

def document (quote : IndexQuote) : Json.Value :=
  .object
    [("name", .text quote.name), ("value", .ofFloat quote.value),
      ("chgPct", .ofFloat quote.chgPct)]

def reader : Json.Reader IndexQuote := fun text =>
  let fields :=
    Json.Fields.field "name" Json.string none <|
    Json.Fields.field "value" Json.float none <|
    Json.Fields.field "chgPct" Json.float none .done
  (fields.record "IndexQuote" text).map fun
    | ((name, value, chgPct, ()), rest) => (⟨name, value, chgPct⟩, rest)

end IndexQuote

namespace Sector

def document (s : Sector) : Json.Value :=
  .object
    [("name", .text s.name), ("gainPct", .ofFloat s.gainPct),
      ("moneyYi", .ofFloat s.moneyYi)]

def reader : Json.Reader Sector := fun text =>
  let fields :=
    Json.Fields.field "name" Json.string none <|
    Json.Fields.field "gainPct" Json.float none <|
    Json.Fields.field "moneyYi" Json.float none .done
  (fields.record "Sector" text).map fun
    | ((name, gainPct, moneyYi, ()), rest) => (⟨name, gainPct, moneyYi⟩, rest)

end Sector

namespace Snapshot

def document (m : Snapshot) : Json.Value :=
  .object
    [("indices", .list (m.indices.map IndexQuote.document)),
      ("turnoverYi", .ofFloat m.turnoverYi),
      ("turnoverDeltaPct", .ofOption .ofFloat m.turnoverDeltaPct),
      ("northYi", .ofOption .ofFloat m.northYi),
      ("mainForceYi", .ofOption .ofFloat m.mainForceYi),
      ("adv", .ofWord m.adv), ("decl", .ofWord m.decl),
      ("volChangePct", .ofFloat m.volChangePct),
      ("upLimit", .ofWord m.upLimit), ("downLimit", .ofWord m.downLimit),
      ("sectors", .list (m.sectors.map Sector.document)),
      ("volIntensity", .ofWord m.volIntensity),
      ("sentimentScore", .ofWord m.sentimentScore)]

def reader : Json.Reader Snapshot := fun text =>
  let fields :=
    Json.Fields.field "indices" (Json.list IndexQuote.reader) none <|
    Json.Fields.field "turnoverYi" Json.float none <|
    Json.Fields.field "turnoverDeltaPct" (Json.optional Json.float) (some none) <|
    Json.Fields.field "northYi" (Json.optional Json.float) (some none) <|
    Json.Fields.field "mainForceYi" (Json.optional Json.float) (some none) <|
    Json.Fields.field "adv" Json.word none <|
    Json.Fields.field "decl" Json.word none <|
    Json.Fields.field "volChangePct" Json.float none <|
    Json.Fields.field "upLimit" Json.word none <|
    Json.Fields.field "downLimit" Json.word none <|
    Json.Fields.field "sectors" (Json.list Sector.reader) none <|
    Json.Fields.field "volIntensity" Json.word (some 0) <|
    Json.Fields.field "sentimentScore" Json.word (some 0) .done
  (fields.record "MarketSnapshot" text).map fun
    | ((indices, turnoverYi, turnoverDeltaPct, northYi, mainForceYi, adv, decl, volChangePct,
        upLimit, downLimit, sectors, volIntensity, sentimentScore, ()), rest) =>
      (⟨indices, turnoverYi, turnoverDeltaPct, northYi, mainForceYi, adv, decl, volChangePct,
        upLimit, downLimit, sectors, volIntensity, sentimentScore⟩, rest)

/-- The snapshot in a document. -/
def parse (text : String) : Except Json.Problem Snapshot := Json.document reader text

end Snapshot

end Screener.Market
