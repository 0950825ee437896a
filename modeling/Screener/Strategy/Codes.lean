import Screener.Strategy.Basic
import Screener.Text.Blank

/-!
The codes that documents, forms and command lines use for signals, shapes and tags.
-/

namespace Screener

/-- The value that a code stands for, blanks around it aside. -/
def decodeName? {α : Type} (codes : List (String × α)) (text : String) : Option α :=
  (codes.find? fun entry => entry.1 == Text.trimmed text).map (·.2)

namespace Trigger

def code : Trigger → String
  | .risingAverage => "ma_up_5"
  | .breakout => "break_20d"
  | .rebound => "rsi_oversold"

/-- The signals by their codes. -/
def codes : List (String × Trigger) := all.map fun t => (t.code, t)

def ofCode? (text : String) : Option Trigger := decodeName? codes text

end Trigger

namespace ExitPattern

/-- The shapes in the order in which they are listed. -/
def all : List ExitPattern := [.closeBelowAverage, .bearishEngulfing, .volumeBreakdown]

def code : ExitPattern → String
  | .closeBelowAverage => "close_below_ma10"
  | .bearishEngulfing => "bearish_engulfing"
  | .volumeBreakdown => "volume_breakdown"

/-- The shapes by their codes. -/
def codes : List (String × ExitPattern) := all.map fun p => (p.code, p)

def ofCode? (text : String) : Option ExitPattern := decodeName? codes text

end ExitPattern

/-- The tags by their labels. -/
def Tag.codes : List (String × Tag) :=
  [Tag.valuation, .technical, .activity, .riskControl].map fun t => (t.label, t)

end Screener
