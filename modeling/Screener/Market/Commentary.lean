import Screener.Figures
import Screener.Market.Snapshot

/-!
What a snapshot suggests: three sentences on stance, risk and liquidity, and a few headlines.
-/

namespace Screener.Market.Snapshot

/-- How willing the sentiment is to act. -/
inductive Stance where
  | bold
  | wary
  | watchful
deriving DecidableEq, Repr

def stance (m : Snapshot) : Stance :=
  if 66 ≤ m.sentimentScore then .bold
  else if m.sentimentScore ≤ 38 then .wary
  else .watchful

/-- What the stance inclines to. -/
def bias (m : Snapshot) : String :=
  match m.stance with
  | .bold => "倾向顺势做强势主线"
  | .wary => "倾向防守与低风险试错"
  | .watchful => "倾向观察与小仓试错"

/-- The risk that the intensity of the moves brings. -/
def risk (m : Snapshot) : String :=
  if 70 ≤ m.volIntensity then "波动较大：单笔仓位更小，止损更硬"
  else if m.volIntensity ≤ 35 then "波动较小：更适合趋势跟随"
  else "波动中等：控节奏"

/-- What the change in turnover says; an unknown one is steady. -/
def liquidity (m : Snapshot) : String :=
  match m.turnoverDeltaPct with
  | some delta =>
    if 4 ≤ delta then "量能上行：更容易走出合力"
    else if delta ≤ -4 then "量能下行：谨慎追高"
    else "量能平稳：注意分化"
  | none => "量能平稳：注意分化"

/-- The three sentences. -/
def narrative (m : Snapshot) : List String :=
  ["今日操作倾向：" ++ m.bias ++ "。", "风险提示：" ++ m.risk ++ "。",
    "量能判断：" ++ m.liquidity ++ "。"]

/-- A headline with its detail. -/
structure Headline where
  title : String
  detail : String
deriving DecidableEq, Repr

/-- The headline on the sector that gains most. -/
def gainHeadline (best : Sector) : Headline where
  title := "主线优先级：" ++ best.name
  detail :=
    "涨幅领先 " ++ Figures.percent 2 (some best.gainPct) ++
      "，适合优先观察强势股的“回踩承接”。"

/-- The headline on the sector that draws most money. -/
def moneyHeadline (best : Sector) : Headline where
  title := "资金偏好：" ++ best.name
  detail :=
    "资金净流 " ++ Figures.money (some best.moneyYi) ++
      "，若情绪不差，可考虑“顺资金”而非猜题材。"

/-- The headline on how much to hold. -/
def positionHeadline (m : Snapshot) : Headline where
  title := "仓位建议：" ++ m.mood.shortLabel
  detail :=
    match m.stance with
    | .bold => "可以用“分批试错→确认加仓”的节奏，止损线更清晰。"
    | .wary => "先保命：减少追涨，更多用“低位试错+快止损”。"
    | .watchful => "等待分化后的确定性：把出手变成“规则触发”。"

/-- The headlines; without sectors only the last one is left. -/
def pulse (m : Snapshot) : List Headline :=
  ((m.leader? .gain).map gainHeadline).toList ++
    ((m.leader? .money).map moneyHeadline).toList ++ [m.positionHeadline]

end Screener.Market.Snapshot
