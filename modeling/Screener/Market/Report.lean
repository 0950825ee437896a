import Screener.Market.Commentary
import Screener.Market.Feed
import Screener.Text.Columns

/-!
Reports on the market, as text and as a document.
-/

namespace Screener.Market

open Text (padLeft padRight)

namespace Resolved

/-- The line that names the source. -/
def sourceLine (r : Resolved) : String :=
  match r.source with
  | .live => "行情来源：实时\n"
  | .invented seed _ => "行情来源：本地示例（seed " ++ Nat.repr seed.toNat ++ "）\n"

/-- The line of an index. -/
def indexLine (quote : IndexQuote) : String :=
  "  " ++ padRight 6 quote.name ++ " " ++ padLeft 10 (Figures.number 2 (some quote.value)) ++
    " " ++ padLeft 8 (Figures.percent 2 (some quote.chgPct)) ++ "\n"

/-- The lines of a headline. -/
def headlineLines (h : Snapshot.Headline) : String :=
  "  " ++ h.title ++ "\n    " ++ h.detail ++ "\n"

/-- The line of a sector. -/
def sectorLine (s : Sector) : String :=
  "  " ++ padRight 6 s.name ++ " 涨跌 " ++ padLeft 7 (Figures.percent 2 (some s.gainPct)) ++
    "  资金 " ++ padLeft 8 (Figures.money (some s.moneyYi)) ++ "\n"

/-- The lines on flows, breadth and scores. -/
def figureLines (m : Snapshot) : String :=
  "\n成交额 " ++ Figures.money (some m.turnoverYi) ++
    "（较昨日 " ++ Figures.percent 1 m.turnoverDeltaPct ++
    "）  北向 " ++ Figures.money m.northYi ++
    "  主力净额 " ++ Figures.money m.mainForceYi ++ "\n" ++
  "涨跌家数 " ++ Nat.repr m.adv.toNat ++ " / " ++ Nat.repr m.decl.toNat ++
    "（比值 " ++ Figures.number 2 (some m.ratio) ++
    "）  量能变化 " ++ Figures.percent 1 (some m.volChangePct) ++
    "  涨停/跌停 " ++ Nat.repr m.upLimit.toNat ++ " / " ++ Nat.repr m.downLimit.toNat ++
    "\n" ++
  "波动强度 " ++ Nat.repr m.volIntensity.toNat ++ "/100  情绪 " ++
    Nat.repr m.sentimentScore.toNat ++ "/100 " ++ m.mood.label ++ "\n"

/-- The report as text. -/
def report (r : Resolved) : String :=
  let m := r.snapshot
  r.sourceLine ++
    "\n指数\n" ++ String.join (m.indices.map indexLine) ++
    figureLines m ++
    "\n" ++ String.join (m.narrative.map (· ++ "\n")) ++
    "\n脉冲\n" ++ String.join (m.pulse.map headlineLines) ++
    "\n板块（涨幅）\n" ++ String.join ((m.ranked .gain).map sectorLine)

/-- The report as a document. -/
def document (r : Resolved) : Json.Value :=
  let m := r.snapshot
  let (source, seed) :=
    match r.source with
    | .live => ("live", Json.Value.null)
    | .invented seed _ => ("generated", .ofWord seed)
  .object
    [("source", .text source), ("seed", seed), ("snapshot", m.document),
      ("advDeclRatio", .ofFloat m.ratio), ("sentimentLabel", .text m.mood.label),
      ("narrative", .list (m.narrative.map .text)),
      ("pulse", .list (m.pulse.map fun h =>
        .object [("title", .text h.title), ("detail", .text h.detail)]))]

end Resolved

end Screener.Market
