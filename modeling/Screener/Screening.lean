import Screener.Json.Value
import Screener.Security.Document
import Screener.Strategy.Basic

/-!
Screening: the securities that satisfy the filters of a strategy. Exits take no part, and a
figure that is not a number satisfies no limit.
-/

namespace Screener

/-- The security satisfies the filters. -/
def Filters.passes (f : Filters) (s : Security) : Bool :=
  f.peMax.all (fun limit => s.pe ≤ limit) &&
    f.mcapMaxYi.all (fun limit => s.mcapYi ≤ limit) &&
    f.turnMinPct.all (fun limit => limit ≤ s.turnoverPct) &&
    f.tech.all s.tech.shows

/-- The strategy selects the security. -/
def Strategy.selects (strategy : Strategy) (s : Security) : Bool := strategy.filters.passes s

/-- The securities that a strategy selects, in their order. -/
def Strategy.screen (strategy : Strategy) (securities : List Security) : List Security :=
  securities.filter strategy.selects

-----------------------------------------------------------------------------------------
-- Results
-----------------------------------------------------------------------------------------

/-- A screening on a day of trade: the number of securities looked at and those selected. -/
structure Screening where
  tradeDate : String
  total : Nat
  selected : List Security
deriving DecidableEq

namespace Screening

/-- The screening of a universe by a strategy. -/
def of (strategy : Strategy) (securities : List Security) (tradeDate : String) : Screening :=
  ⟨tradeDate, securities.length, strategy.screen securities⟩

/-- The number of selected securities that a record keeps. -/
def kept : Nat := 100

/-- What a record of the screening says of its terms. -/
def params (s : Screening) : Json.Value :=
  .object [("kind", .text "screen"), ("trade_date", .text s.tradeDate)]

/-- What a record of the screening says of its outcome. -/
def result (s : Screening) : Json.Value :=
  let items := s.selected.take kept
  .object
    [("count", .ofNat items.length), ("items", .list (items.map Security.document)),
      ("total", .ofNat s.total), ("trade_date", .text s.tradeDate)]

end Screening

end Screener
