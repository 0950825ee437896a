import Screener.Security.Basic
import Screener.SeedKey
import Screener.Time.Timestamp

/-!
Strategies: which securities to choose, and when to leave them. Each limit may be left out,
which means that nothing is asked for. Tags follow from the limits.
-/

namespace Screener

/-- A shape of the price that ends a position. -/
inductive ExitPattern where
  | closeBelowAverage
  | bearishEngulfing
  | volumeBreakdown
deriving DecidableEq, Repr

/-- How a shape is called on the screen. -/
def ExitPattern.label : ExitPattern → String
  | .closeBelowAverage => "跌破10日线"
  | .bearishEngulfing => "看跌吞没"
  | .volumeBreakdown => "放量下破"

/-- What a security has to satisfy, with a note. -/
structure Filters where
  peMax : Option Binary64
  mcapMaxYi : Option Binary64
  turnMinPct : Option Binary64
  tech : Option Trigger
  note : String
deriving DecidableEq

/-- Filters that ask for nothing. -/
def Filters.none : Filters := ⟨.none, .none, .none, .none, ""⟩

/-- Nothing is asked for; a note asks for nothing. -/
def Filters.isEmpty (f : Filters) : Bool :=
  f.peMax.isNone && f.mcapMaxYi.isNone && f.turnMinPct.isNone && f.tech.isNone

/-- When a position ends. -/
structure Exits where
  takeProfitPct : Option Binary64
  stopLossPct : Option Binary64
  pattern : Option ExitPattern
deriving DecidableEq

/-- Exits that end nothing. -/
def Exits.none : Exits := ⟨.none, .none, .none⟩

def Exits.isEmpty (e : Exits) : Bool :=
  e.takeProfitPct.isNone && e.stopLossPct.isNone && e.pattern.isNone

/-- The aspects of a strategy that are marked on it. -/
inductive Tag where
  | valuation
  | technical
  | activity
  | riskControl
deriving DecidableEq, Repr

def Tag.label : Tag → String
  | .valuation => "估值"
  | .technical => "技术"
  | .activity => "活跃"
  | .riskControl => "风控"

/-- A strategy, a draft until it has been given an identifier. The wording is the free text
that it was read from.
-/
structure Strategy where
  id : Option String
  name : String
  createdAt : Timestamp
  filters : Filters
  exits : Exits
  tags : List Tag
  wording : String
deriving DecidableEq

namespace Strategy

/-- The empty draft without a name. -/
def draft (now : Timestamp) : Strategy := ⟨none, "", now, .none, .none, [], ""⟩

/-- The tags that follow from filters and exits. -/
def inferredTags (s : Strategy) : List Tag :=
  (if s.filters.peMax.isSome then [.valuation] else []) ++
    (if s.filters.tech.isSome then [.technical] else []) ++
    (if s.filters.turnMinPct.isSome then [.activity] else []) ++
    (if s.exits.isEmpty then [] else [.riskControl])

/-- The strategy with the tags that follow from it. -/
def withTags (s : Strategy) : Strategy := { s with tags := s.inferredTags }

/-- The name that enters the key of a simulation. -/
def seedName (s : Strategy) : String := if s.name = "" then draftName else s.name

end Strategy

end Screener
