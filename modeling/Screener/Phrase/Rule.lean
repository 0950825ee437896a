import Screener.Phrase.Pattern
import Screener.Strategy.Description

/-!
The rules that read a strategy from free text, and how what they find is merged into a
strategy. Among rules that set the same part the last one that finds something wins.
-/

namespace Screener.Phrase

/-- The limits of a strategy. -/
inductive Limit where
  | peMax
  | mcapMaxYi
  | turnMinPct
  | takeProfitPct
  | stopLossPct
deriving DecidableEq, Repr

/-- The limit that a strategy sets. -/
def Limit.get (s : Strategy) : Limit → Option Binary64
  | .peMax => s.filters.peMax
  | .mcapMaxYi => s.filters.mcapMaxYi
  | .turnMinPct => s.filters.turnMinPct
  | .takeProfitPct => s.exits.takeProfitPct
  | .stopLossPct => s.exits.stopLossPct

/-- The strategy with a limit set. -/
def Limit.set (v : Binary64) (s : Strategy) : Limit → Strategy
  | .peMax => { s with filters.peMax := some v }
  | .mcapMaxYi => { s with filters.mcapMaxYi := some v }
  | .turnMinPct => { s with filters.turnMinPct := some v }
  | .takeProfitPct => { s with exits.takeProfitPct := some v }
  | .stopLossPct => { s with exits.stopLossPct := some v }

/-- What a rule looks for, and the part that it sets. -/
inductive Clause where
  | limit (limit : Limit) (phrase : NumberPhrase)
  | trigger (trigger : Trigger) (words : WordSequence)
  | exit (pattern : ExitPattern) (words : WordSequence)
deriving DecidableEq, Repr

/-- A clause under the name that reports use. -/
structure Rule where
  name : String
  clause : Clause
deriving DecidableEq, Repr

/-- What a rule finds. -/
inductive Hit where
  | number (v : Binary64)
  | words
deriving DecidableEq

/-- The ways to say that something is at most a number. A longer way stands before one that it
starts with.
-/
def ceilingWords : List String := ["小于", "低于", "<=", "≤", "不超过", "<"]

/-- The ways to say that something is at least a number. -/
def floorWords : List String := ["大于", "高于", ">=", "≥", "不少于", ">"]

/-- The rules in their order. -/
def rules : List Rule :=
  [⟨"pe_max", .limit .peMax (.bounded ["pe", "市盈率"] ceilingWords true)⟩,
    ⟨"mcap_max", .limit .mcapMaxYi (.bounded ["市值"] ceilingWords false)⟩,
    ⟨"turn_min", .limit .turnMinPct (.bounded ["换手"] floorWords false)⟩,
    ⟨"tech_ma_up_5",
      .trigger .risingAverage ⟨[["5日", "五日"], ["均线", "ma"], ["向上", "上行"]], false⟩⟩,
    ⟨"tech_break_20d",
      .trigger .breakout ⟨[["突破"], ["20日", "二十日"], ["高点", "新高"]], false⟩⟩,
    ⟨"tech_rsi_oversold", .trigger .rebound ⟨[["rsi", "超卖"], ["回升", "反弹"]], true⟩⟩,
    ⟨"take_profit", .limit .takeProfitPct (.signed ["止盈"])⟩,
    ⟨"stop_loss", .limit .stopLossPct (.signed ["止损"])⟩,
    ⟨"exit_close_below_ma10",
      .exit .closeBelowAverage ⟨[["跌破"], ["10日", "十日"], ["线", "均线"]], false⟩⟩,
    ⟨"exit_bearish_engulfing", .exit .bearishEngulfing ⟨[["看跌吞没", "吞没形态"]], false⟩⟩,
    ⟨"exit_volume_breakdown", .exit .volumeBreakdown ⟨[["放量"], ["下破", "破位"]], false⟩⟩]

namespace Rule

/-- What the rule finds in a text. -/
def scan (rule : Rule) (text : List Char) : Option Hit :=
  match rule.clause with
  | .limit _ phrase => (phrase.scan text).map .number
  | .trigger _ words | .exit _ words => if words.scan text then some .words else none

/-- The strategy with what the rule finds in a text. -/
def apply (text : List Char) (s : Strategy) (rule : Rule) : Strategy :=
  match rule.clause with
  | .limit limit phrase =>
    match phrase.scan text with
    | some v => limit.set v s
    | none => s
  | .trigger trigger words =>
    if words.scan text then { s with filters.tech := some trigger } else s
  | .exit pattern words =>
    if words.scan text then { s with exits.pattern := some pattern } else s

end Rule

/-- The strategy with a name, a suggested one if it has none. -/
def named (s : Strategy) : Strategy :=
  if s.name = "" then { s with name := s.suggestedName } else s

/-- The strategy with what a text says merged into it. A blank text says nothing; any other
is kept as the wording.
-/
def merge (text : String) (base : Strategy) : Strategy :=
  let spoken := Text.trim text.toList
  if spoken.isEmpty then base.withTags
  else
    (named (rules.foldl (Rule.apply spoken)
      { base with wording := String.ofList spoken })).withTags

/-- The names of the rules that find something in a text, in order. -/
def matchedRules (text : String) : List String :=
  (rules.filter fun rule => (rule.scan (Text.trim text.toList)).isSome).map Rule.name

end Screener.Phrase
