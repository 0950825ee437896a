import Screener.Store.Basic
import Screener.Strategy.Description

/-!
Reports on what a store holds: a line to each strategy and to each run.
-/

namespace Screener

/-- The line of a stored strategy. -/
def Strategy.line (s : Strategy) : String :=
  s.id.getD "" ++ "  " ++ s.name ++ "  " ++ s.summary ++ "\n"

namespace Run

/-- The string under a key, or a dash. -/
private def textOrDash (key : String) (v : Json.Value) : String :=
  (v.member key).asText?.getD "-"

/-- What was run, in a few words. -/
def detail (run : Run) : String :=
  let count := (run.result.member "count").render
  if (run.params.member "kind").asText? = some "screen" then
    "screen trade_date=" ++ textOrDash "trade_date" run.params ++ " hits=" ++ count
  else
    "code=" ++ textOrDash "code" run.params ++
      " days=" ++ (run.params.member "days").render ++ " events=" ++ count

/-- The line of a run. -/
def line (run : Run) : String :=
  run.id ++ "  " ++ run.createdAt.toSecond ++ "  " ++ run.detail ++ "\n"

/-- The lines of several runs. -/
def report (runs : List Run) : String := String.join (runs.map line)

end Run

end Screener
