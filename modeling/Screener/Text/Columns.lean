/-!
Columns of a table, measured in characters. A text wider than its column stays whole.
-/

namespace Screener.Text

/-- The text at the left of a column. -/
def padRight (width : Nat) (text : String) : String :=
  String.ofList (text.toList ++ List.replicate (width - text.toList.length) ' ')

/-- The text at the right of a column. -/
def padLeft (width : Nat) (text : String) : String :=
  String.ofList (List.replicate (width - text.toList.length) ' ' ++ text.toList)

end Screener.Text
