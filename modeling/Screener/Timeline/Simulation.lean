import Screener.Draws
import Screener.Decimal.Shortest
import Screener.Figures
import Screener.Market.Snapshot
import Screener.Screening
import Screener.Timeline.Basic

/-!
Simulated timelines. The key of a run determines its seed, and every draw of the run comes
from that one stream: the first sets the number of events, then three go to each event,
whatever its kind.
-/

namespace Screener.Timeline

-----------------------------------------------------------------------------------------
-- Explanations
-----------------------------------------------------------------------------------------

/-- What speaks for buying: the filters that the security passes, or its strong shape. -/
def buyReasons (strategy : Strategy) (s : Security) : List String :=
  let reasons :=
    [match strategy.filters.tech with
      | some trigger => some ("技术触发：" ++ trigger.label ++ "（示例匹配）。")
      | none =>
        if s.tech.breakout then some "结构偏强：疑似突破后回踩承接（示例）。" else none,
      strategy.filters.peMax.map fun limit =>
        "估值过滤：PE " ++ Figures.number 1 (some s.pe) ++ " ≤ " ++ Decimal.plain limit ++ "。",
      strategy.filters.mcapMaxYi.map fun limit =>
        "市值过滤：" ++ Figures.number 0 (some s.mcapYi) ++ "亿 ≤ " ++ Decimal.plain limit ++
          "亿。",
      strategy.filters.turnMinPct.map fun limit =>
        "活跃度：换手 " ++ Figures.number 1 (some s.turnoverPct) ++ "% ≥ " ++
          Decimal.plain limit ++ "%。"].flatMap Option.toList
  if reasons.isEmpty then ["策略较宽：以盘面确认作为入场条件（示例）。"] else reasons

/-- What speaks for selling: the first exit of the strategy, or a weak market. -/
def sellReason (strategy : Strategy) : String :=
  match strategy.exits.stopLossPct, strategy.exits.pattern with
  | some limit, _ => "风控触发：止损 " ++ Decimal.plain limit ++ "%（示例）。"
  | none, some pattern => "形态触发：" ++ pattern.label ++ "（示例）。"
  | none, none => "退出：情绪转弱或结构破坏（示例）。"

/-- The hint at the sector that leads the market. -/
def sectorHint (sector : String) : String := "主线参考：" ++ sector ++ "（示例），关注板块共振。"

/-- The hint at the signal that the strategy asks for. -/
def triggerHint (trigger : Trigger) : String := "你的策略偏向：" ++ trigger.label ++ "。"

/-- One of two pieces of advice: the first if the next draw is above a bound. -/
def advice (bound : Binary64) (above otherwise : String) : StateM UInt32 String :=
  return if bound < (← Draws.next) then above else otherwise

/-- The explanation of an event: what speaks for it, with the advice that a draw chooses. -/
def explain (strategy : Strategy) (s : Security) (leader : Option String) (kind : Kind)
    : StateM UInt32 String := do
  match kind with
  | .buy =>
    let closing ← advice 0.5 "建议：分批试错，止损线先设定再下单。" "建议：等二次确认，避免追涨。"
    return String.intercalate " " (buyReasons strategy s ++ [closing])
  | .sell =>
    let closing ← advice 0.5 "建议：先减仓，再看反抽。 " "建议：果断离场，等待下一次触发。"
    return String.intercalate " " [sellReason strategy, closing]
  | .note =>
    let warning ← advice 0.55 "注意：量能不足时少做突破。 " "注意：强势回踩更有性价比。 "
    return String.intercalate " "
      ((leader.map sectorHint).toList ++ [warning] ++
        (strategy.filters.tech.map triggerHint).toList)

-----------------------------------------------------------------------------------------
-- Events
-----------------------------------------------------------------------------------------

/-- The day that a draw stands for, from the first to the last of the window. -/
def dayOf (days : UInt32) (draw : Binary64) : Nat :=
  (draw * Binary64.ofNat days.toNat).toWhole 1 days.toNat

/-- The score that a draw stands for, around a level for selected securities or for others.
-/
def score (selected : Bool) (draw : Binary64) : Binary64 :=
  (if selected then 0.72 else 0.38) + (draw - 0.5) * 0.45

/-- The kind that a score stands for. -/
def Kind.ofScore (score : Binary64) : Kind :=
  if 0.72 < score then .buy else if score < 0.3 then .sell else .note

/-- The number of events that a draw stands for. -/
def countOf (draw : Binary64) : Nat := (4 + draw * 7).toWhole 2 12

/-- The next event of a run: a draw for its day, one for its score, and its explanation. -/
def nextEvent (strategy : Strategy) (s : Security) (days : UInt32) (leader : Option String)
    : StateM UInt32 Event := do
  let day := dayOf days (← Draws.next)
  let kind := Kind.ofScore (score (strategy.selects s) (← Draws.next))
  return .on day kind (← explain strategy s leader kind)

/-- The events of a run in the order of their draws. -/
def drawEvents (strategy : Strategy) (s : Security) (days : UInt32) (leader : Option String)
    : StateM UInt32 (List Event) := do
  let count := countOf (← Draws.next)
  (List.range count).mapM fun _ => nextEvent strategy s days leader

/-- The number of events that a timeline shows. -/
def shown : Nat := 10

/-- The timeline of a strategy on a security: the first events by day, those of one day in
the order of their draws. A market only adds hints at its leading sector.
-/
def simulate (strategy : Strategy) (s : Security) (days seed : UInt32)
    (market : Option Market.Snapshot)
    : List Event :=
  let days := window days
  let key := SeedKey.of s.code strategy.name days seed
  let leader := (market.bind fun m => m.leader? .gain).map Market.Sector.name
  let events := Draws.outcome (drawEvents strategy s days leader) key.runSeed
  (events.mergeSort fun a b => a.sortKey ≤ b.sortKey).take shown

end Screener.Timeline
