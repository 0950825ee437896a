import Screener.Market.Sentiment

/-!
A snapshot of the market: indices, flows, breadth and sectors, with the two scores that
follow from them.
-/

namespace Screener.Market

/-- An index with its level and its change. -/
structure IndexQuote where
  name : String
  value : Binary64
  chgPct : Binary64
deriving DecidableEq

/-- A sector with its gain and the money that flows into it, in hundred millions. -/
structure Sector where
  name : String
  gainPct : Binary64
  moneyYi : Binary64
deriving DecidableEq

structure Snapshot where
  indices : List IndexQuote
  turnoverYi : Binary64
  turnoverDeltaPct : Option Binary64
  northYi : Option Binary64
  mainForceYi : Option Binary64
  adv : UInt32
  decl : UInt32
  volChangePct : Binary64
  upLimit : UInt32
  downLimit : UInt32
  sectors : List Sector
  volIntensity : UInt32
  sentimentScore : UInt32
deriving DecidableEq

/-- What sectors are ranked by. -/
inductive Ranking where
  | gain
  | money
deriving DecidableEq, Repr

def Ranking.key : Ranking → Sector → Binary64
  | .gain, s => s.gainPct
  | .money, s => s.moneyYi

namespace Snapshot

/-- The change of the index at a place; an index that is not there has not moved. -/
def indexChange (m : Snapshot) (i : Nat) : Binary64 :=
  match m.indices[i]? with
  | some quote => quote.chgPct
  | none => 0

/-- The snapshot with both scores computed from its other parts. -/
def withScores (m : Snapshot) : Snapshot :=
  { m with
    volIntensity := UInt32.ofNat (intensity (m.indexChange 0) (m.indexChange 2) m.volChangePct)
    sentimentScore :=
      UInt32.ofNat (sentiment m.adv m.decl m.volChangePct m.upLimit m.downLimit) }

/-- The number of advancing shares to each declining one. -/
def ratio (m : Snapshot) : Binary64 := advanceDeclineRatio m.adv m.decl

/-- The mood that the sentiment stands for. -/
def mood (m : Snapshot) : Mood := .ofScore m.sentimentScore.toNat

/-- The sectors, highest first; equal ones keep their order. -/
def ranked (m : Snapshot) (ranking : Ranking) : List Sector :=
  m.sectors.mergeSort fun a b => !(ranking.key a).lt (ranking.key b)

/-- The sector at the head of a ranking. -/
def leader? (m : Snapshot) (ranking : Ranking) : Option Sector := (m.ranked ranking).head?

/-- The first sector with a name. -/
def sector? (m : Snapshot) (name : String) : Option Sector :=
  m.sectors.find? fun s => s.name == name

end Snapshot

end Screener.Market
