import Screener.Json.Value
import Screener.Text.Columns

/-!
Timelines: events on the days before now, each a chance to buy or to sell, or a note.
-/

namespace Screener.Timeline

inductive Kind where
  | buy
  | sell
  | note
deriving DecidableEq, Repr

namespace Kind

def title : Kind → String
  | .buy => "出现买点（示例）"
  | .sell => "触发退出（示例）"
  | .note => "观察提示（示例）"

def tag : Kind → String
  | .buy => "BUY"
  | .sell => "SELL"
  | .note => "NOTE"

/-- The word that documents use. -/
def word : Kind → String
  | .buy => "buy"
  | .sell => "sell"
  | .note => "note"

end Kind

/-- An event, some days before now. Title and tag tell its kind, and a timeline is sorted by
the key.
-/
structure Event where
  day : Nat
  kind : Kind
  title : String
  tag : String
  explanation : String
  sortKey : Nat
deriving DecidableEq, Repr

/-- The event of a kind, some days before now. -/
def Event.on (day : Nat) (kind : Kind) (explanation : String) : Event :=
  ⟨day, kind, kind.title, kind.tag, explanation, day⟩

/-- The event as a document. -/
def Event.document (e : Event) : Json.Value :=
  .object
    [("dayOffset", .ofNat e.day), ("kind", .text e.kind.word), ("title", .text e.title),
      ("tag", .text e.tag), ("explanation", .text e.explanation),
      ("sortKey", .ofNat e.sortKey)]

/-- The lines of an event in a report. -/
def Event.lines (e : Event) : String :=
  Text.padLeft 6 (Nat.repr e.day ++ "天前") ++ "  [" ++ e.tag ++ "] " ++ e.title ++
    "\n        " ++ e.explanation ++ "\n"

/-- The report on a timeline. -/
def report (events : List Event) : String :=
  if events.isEmpty then "这段时间没有触发事件（示例）。你可以换策略或调时间范围。\n"
  else String.join (events.map Event.lines)

-----------------------------------------------------------------------------------------
-- Windows
-----------------------------------------------------------------------------------------

/-- A number of days, held between `20` and `120`. -/
def window (days : UInt32) : UInt32 :=
  if days < 20 then 20 else if 120 < days then 120 else days

/-- The number of days where none is given. -/
def defaultWindow : UInt32 := 60

end Screener.Timeline
