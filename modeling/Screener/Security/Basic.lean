import Screener.Binary64.Basic

/-!
Securities as a provider lists them, and the technical signals that they can show.
-/

namespace Screener

/-- A technical signal. -/
inductive Trigger where
  | risingAverage
  | breakout
  | rebound
deriving DecidableEq, Repr

namespace Trigger

/-- The signals in the order in which they are listed. -/
def all : List Trigger := [.risingAverage, .breakout, .rebound]

/-- How a signal is called on the screen. -/
def label : Trigger → String
  | .risingAverage => "5日均线上行"
  | .breakout => "突破20日高点"
  | .rebound => "RSI超卖回升"

end Trigger

/-- The signals that a security shows. -/
structure TechFlags where
  risingAverage : Bool
  breakout : Bool
  rebound : Bool
deriving DecidableEq, Repr

/-- The signal is shown. -/
def TechFlags.shows (tech : TechFlags) : Trigger → Bool
  | .risingAverage => tech.risingAverage
  | .breakout => tech.breakout
  | .rebound => tech.rebound

/-- Where a security belongs. -/
structure Profile where
  region : String
  concepts : List String
deriving DecidableEq, Repr

/-- A security with its figures. The capitalisation is in hundred millions. -/
structure Security where
  code : String
  name : String
  industry : String
  mcapYi : Binary64
  pe : Binary64
  turnoverPct : Binary64
  price : Binary64
  changePct : Binary64
  tech : TechFlags
  profile : Profile
deriving DecidableEq

/-- The labels of the signals that a security shows. -/
def Security.techLabels (s : Security) : List String :=
  (Trigger.all.filter s.tech.shows).map Trigger.label

end Screener
