import Screener.FileProblem
import Screener.Market.Document
import Screener.Market.Invented

/-!
Where a snapshot comes from: a live feed, or an invented one where there is no feed or it
fails. The two are never mixed, and the scores of a feed are computed anew.
-/

namespace Screener.Market

/-- Why a feed gives no snapshot. -/
inductive FeedProblem where
  | reported (reason : String)
  | unreadable (path : String) (cause : FileProblem)
  | malformed (path : String) (problem : Json.Problem)
  | noIndices
deriving DecidableEq

def FeedProblem.message : FeedProblem → String
  | .reported reason => reason
  | .unreadable path cause => "failed to read " ++ path ++ ": " ++ cause.message
  | .malformed path problem => "malformed snapshot " ++ path ++ ": " ++ problem.message
  | .noIndices => "snapshot has no indices"

/-- The snapshot in a feed file, which needs an index at least. -/
def readFeed (path : String) (content : Except FileProblem String)
    : Except FeedProblem Snapshot :=
  match content with
  | .error cause => .error (.unreadable path cause)
  | .ok text =>
    match Snapshot.parse text with
    | .error problem => .error (.malformed path problem)
    | .ok m => if m.indices.isEmpty then .error .noIndices else .ok m

/-- Where a snapshot was taken from. -/
inductive Source where
  | live
  | invented (seed : UInt32) (failure : Option FeedProblem)
deriving DecidableEq

/-- A snapshot with its source. -/
structure Resolved where
  snapshot : Snapshot
  source : Source
deriving DecidableEq

/-- The snapshot of a feed, with its scores computed; else the one invented from a seed. -/
def resolve (feed : Option (Except FeedProblem Snapshot)) (seed : UInt32) : Resolved :=
  match feed with
  | none => ⟨invented seed, .invented seed none⟩
  | some (.ok m) => ⟨m.withScores, .live⟩
  | some (.error problem) => ⟨invented seed, .invented seed (some problem)⟩

/-- What is said when a feed has failed. -/
def Source.notice? : Source → Option String
  | .invented seed (some problem) =>
    some ("实时行情获取失败（market feed error: " ++ problem.message ++
      "），已切换为本地示例数据（seed " ++ Nat.repr seed.toNat ++ "）。")
  | _ => none

end Screener.Market
