import Screener.Figures
import Screener.Market.Snapshot
import Screener.Security.Basic

/-!
Comments on a single security: its move, its valuation, its turnover, its sector and its
signals, and a note where there is little to say.
-/

namespace Screener.Commentary

/-- A remark that is made where something holds. -/
private def remark (holds : Bool) (text : String) : List String :=
  if holds then [text] else []

/-- Remarks on the figures of a security. -/
def onFigures (s : Security) : List String :=
  let change := Figures.percent 2 (some s.changePct)
  let pe := Figures.number 1 (some s.pe)
  let turnover := Figures.number 1 (some s.turnoverPct)
  remark (3 ≤ s.changePct)
      ("涨幅偏强（" ++ change ++ "），注意是否来自板块共振而非单独脉冲。") ++
    remark (s.changePct ≤ -2)
      ("回撤明显（" ++ change ++ "），若无基本面催化，优先看支撑与量能。") ++
    remark (s.pe ≤ 12)
      ("估值偏低（PE " ++ pe ++ "），更适合做“低估值修复+趋势确认”。") ++
    remark (60 ≤ s.pe)
      ("估值偏高（PE " ++ pe ++ "），更适合做“强趋势/题材催化”，风控更硬。") ++
    remark (5 ≤ s.turnoverPct)
      ("换手活跃（" ++ turnover ++ "%），更容易走出短线情绪波段。") ++
    remark (s.turnoverPct ≤ 1.2)
      ("换手偏低（" ++ turnover ++ "%），更像中线资金博弈，信号需更确认。")

/-- The remark on the sector of a security, or else on the leading one. -/
def onSector (s : Security) (m : Market.Snapshot) : List String :=
  match m.sector? s.industry, m.leader? .gain with
  | some sector, _ =>
    ["板块参考：" ++ s.industry ++ " 涨跌 " ++ Figures.percent 2 (some sector.gainPct) ++
      "，资金 " ++ Figures.money (some sector.moneyYi) ++ "（示例）。"]
  | none, some leader =>
    ["板块主线：当前领先的是 " ++ leader.name ++
      "（示例）。如果你做主线，优先顺着它找结构更好的标的。"]
  | none, none => []

/-- The remark on the signals of a security. -/
def onSignals (s : Security) : String :=
  if s.techLabels.isEmpty then "技术状态：暂无明显触发（示例）。"
  else "技术状态：" ++ String.intercalate "、" s.techLabels ++ "。"

/-- The comments on a security in its market, if that is known. -/
def of (s : Security) (market : Option Market.Snapshot) : List String :=
  let remarks :=
    onFigures s ++ (market.map (onSector s)).getD [] ++ [onSignals s]
  if remarks.length < 3 then
    remarks ++ ["提示：这份解读来自规则模板；接入真实行情/财务/新闻后可更个性化。"]
  else remarks

end Screener.Commentary
