import Screener.Binary64.Logarithm

/-!
The two scores of a market: how warm its mood is, from breadth, volume and limit moves, and
how strongly it moves. Both are whole numbers held in a range.
-/

namespace Screener.Market

/-- The number of advancing shares to each declining one, which are at least one. -/
def advanceDeclineRatio (adv decl : UInt32) : Binary64 :=
  Binary64.ofNat adv.toNat / Binary64.ofNat (max decl.toNat 1)

/-- The share of breadth in the sentiment, on a logarithmic scale given by `ln`. -/
def breadthScore (ln : Binary64 → Binary64) (adv decl : UInt32) : Binary64 :=
  (ln (advanceDeclineRatio adv decl) / ln 1.5 * 40 + 50).clamp 0 100

/-- The share of a change in volume. -/
def volumeScore (volChangePct : Binary64) : Binary64 := (50 + volChangePct * 1.3).clamp 0 100

/-- The share of the shares at their upper and lower limits. -/
def limitScore (upLimit downLimit : UInt32) : Binary64 :=
  (50 + (Binary64.ofNat upLimit.toNat - Binary64.ofNat downLimit.toNat) * 0.35).clamp 0 100

/-- The sentiment over a given logarithm. -/
def sentimentWith (ln : Binary64 → Binary64) (adv decl : UInt32) (volChangePct : Binary64)
    (upLimit downLimit : UInt32)
    : Nat :=
  (breadthScore ln adv decl * 0.55 + volumeScore volChangePct * 0.25 +
    limitScore upLimit downLimit * 0.2).toWhole 0 100

/-- The sentiment, from `0` to `100`. -/
def sentiment (adv decl : UInt32) (volChangePct : Binary64) (upLimit downLimit : UInt32)
    : Nat :=
  sentimentWith Binary64.ln adv decl volChangePct upLimit downLimit

/-- The intensity of the moves, from `6` to `99`, from the changes of the first and the third
index and of the volume.
-/
def intensity (firstPct thirdPct volChangePct : Binary64) : Nat :=
  (firstPct.abs * 18 + thirdPct.abs * 14 + volChangePct.abs * 1.2).toWhole 6 99

-----------------------------------------------------------------------------------------
-- Moods
-----------------------------------------------------------------------------------------

/-- The bands of sentiment. -/
inductive Mood where
  | euphoric
  | warm
  | neutral
  | cool
  | frozen
deriving DecidableEq, Repr

namespace Mood

/-- The band that a score falls into. -/
def ofScore (score : Nat) : Mood :=
  if 78 ≤ score then .euphoric
  else if 60 ≤ score then .warm
  else if 45 ≤ score then .neutral
  else if 28 ≤ score then .cool
  else .frozen

/-- The name of a band. -/
def shortLabel : Mood → String
  | .euphoric => "高亢"
  | .warm => "偏暖"
  | .neutral => "中性"
  | .cool => "偏冷"
  | .frozen => "冰点"

/-- What a band advises. -/
def advice : Mood → String
  | .euphoric => "追随主线，别逆势"
  | .warm => "可择强而上"
  | .neutral => "等确认再加仓"
  | .cool => "控仓等机会"
  | .frozen => "以防守为主"

/-- The name with the advice. -/
def label (mood : Mood) : String := mood.shortLabel ++ "：" ++ mood.advice

end Mood

end Screener.Market
