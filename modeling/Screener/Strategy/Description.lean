import Screener.Decimal.Shortest
import Screener.Strategy.Basic

/-!
Descriptions of a strategy: in one line, in chips of key and value, as a name and as a card.
-/

namespace Screener.Strategy

/-- The constraints of a strategy, each as a key and a value. -/
def chips (s : Strategy) : List (String × String) :=
  [s.filters.peMax.map fun v => ("PE", "≤" ++ Decimal.plain v),
    s.filters.mcapMaxYi.map fun v => ("市值", "≤" ++ Decimal.plain v ++ "亿"),
    s.filters.turnMinPct.map fun v => ("换手", "≥" ++ Decimal.plain v ++ "%"),
    s.filters.tech.map fun t => ("技术", t.label),
    s.exits.takeProfitPct.map fun v => ("止盈", Decimal.plain v ++ "%"),
    s.exits.stopLossPct.map fun v => ("止损", Decimal.plain v ++ "%"),
    s.exits.pattern.map fun p => ("形态", p.label)].flatMap Option.toList

/-- The line that stands for a strategy without constraints. -/
def emptySummary : String := "（空策略：仅用于手动观察/记录）"

/-- The clauses of the line that describes a strategy. -/
def clauses (s : Strategy) : List String :=
  [s.filters.peMax.map fun v => "PE≤" ++ Decimal.plain v,
    s.filters.mcapMaxYi.map fun v => "市值≤" ++ Decimal.plain v ++ "亿",
    s.filters.turnMinPct.map fun v => "换手≥" ++ Decimal.plain v ++ "%",
    s.filters.tech.map fun t => "技术：" ++ t.label,
    s.exits.takeProfitPct.map fun v => "止盈" ++ Decimal.plain v ++ "%",
    s.exits.stopLossPct.map fun v => "止损" ++ Decimal.plain v ++ "%",
    s.exits.pattern.map fun p => "形态：" ++ p.label].flatMap Option.toList

/-- The strategy in one line. -/
def summary (s : Strategy) : String :=
  if s.clauses.isEmpty then emptySummary else String.intercalate " · " s.clauses

/-- The traits that may enter a name, the most telling first. -/
def traits (s : Strategy) : List String :=
  [s.filters.peMax.map fun _ => "低估值",
    s.filters.tech.map fun
      | .risingAverage => "趋势"
      | .breakout => "突破"
      | .rebound => "反转",
    s.filters.mcapMaxYi.bind fun v => if v ≤ 300 then some "小盘" else none,
    s.exits.stopLossPct.map fun _ => "硬止损"].flatMap Option.toList

/-- A name from at most three traits. -/
def suggestedName (s : Strategy) : String :=
  if s.traits.isEmpty then "自定义策略" else String.join (s.traits.take 3) ++ "策略"

/-- The line of a card under a heading, if there is something to say. -/
private def cardLine (heading text : String) : String :=
  if text = "" then "" else heading ++ "  " ++ text ++ "\n"

/-- The strategy as a card of several lines. -/
def card (s : Strategy) : String :=
  "名称  " ++ s.name ++ "\n" ++
    (match s.id with
      | some id => "编号  " ++ id ++ "\n创建  " ++ s.createdAt.toMinute ++ "\n"
      | none => "") ++
    (if s.chips.isEmpty then "规则  " ++ s.summary ++ "\n"
      else
        "规则\n" ++
          String.join (s.chips.map fun (key, value) => "  " ++ key ++ "  " ++ value ++ "\n")) ++
    (if s.tags.isEmpty then ""
      else "标签  " ++ String.intercalate " " (s.tags.map Tag.label) ++ "\n") ++
    cardLine "备注" s.filters.note ++ cardLine "原文" s.wording

end Screener.Strategy
