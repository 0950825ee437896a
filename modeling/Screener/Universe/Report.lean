import Screener.Commentary
import Screener.Text.Columns

/-!
Reports on securities: a table with a line to each, and a page on one of them.
-/

namespace Screener

open Text (padLeft padRight)

/-- The line of a security in a table. -/
def Security.line (s : Security) : String :=
  s.code ++ "  " ++ padRight 6 s.name ++ " " ++ padRight 6 s.industry ++
    " PE " ++ padLeft 6 (Figures.number 1 (some s.pe)) ++
    "  市值 " ++ padLeft 7 (Figures.number 0 (some s.mcapYi)) ++
    "亿  换手 " ++ padLeft 5 (Figures.number 1 (some s.turnoverPct)) ++
    "%  " ++ padLeft 9 (Figures.number 2 (some s.price)) ++
    "  " ++ padLeft 7 (Figures.percent 2 (some s.changePct)) ++ "\n"

/-- The table of several securities. -/
def Universe.report (rows : List Security) : String := String.join (rows.map Security.line)

/-- The page on a security in its market. -/
def Security.report (s : Security) (market : Market.Snapshot) : String :=
  s.code ++ " " ++ s.name ++ "  " ++ s.industry ++ "\n" ++
    "价格 " ++ Figures.number 2 (some s.price) ++
      "  涨跌 " ++ Figures.percent 2 (some s.changePct) ++
      "  PE " ++ Figures.number 1 (some s.pe) ++
      "  市值 " ++ Figures.number 0 (some s.mcapYi) ++
      "亿  换手 " ++ Figures.number 1 (some s.turnoverPct) ++ "%\n" ++
    "地区 " ++ s.profile.region ++
      "  概念 " ++ String.intercalate "、" s.profile.concepts ++ "\n" ++
    "\n解读\n" ++
    String.join ((Commentary.of s (some market)).map fun remark => "- " ++ remark ++ "\n")

end Screener
