import Screener.Text.Utf8

/-!
The symbols that a table is written in. A table is either text, or bytes that need not be
text; both are split by the same marks.
-/

namespace Screener.Csv

/-- What a symbol does in a table. -/
inductive Mark where
  | comma
  | quote
  | carriageReturn
  | lineFeed
  | other
deriving DecidableEq, Repr

/-- The mark of a code in ASCII. -/
def markOf (code : Nat) : Mark :=
  if code = 44 then .comma
  else if code = 34 then .quote
  else if code = 13 then .carriageReturn
  else if code = 10 then .lineFeed
  else .other

/-- Symbols that tables are written in. -/
class Symbols (α : Type) where
  /-- What a symbol does. -/
  mark : α → Mark
  /-- The number of bytes that a symbol takes. -/
  size : α → Nat
  /-- What follows the byte order mark that a table may start with. -/
  afterOrderMark? : List α → Option (List α)
  /-- The text of a run of symbols, or the number of bytes before it ceases to be text. -/
  text : List α → Except Nat String

instance : Symbols Char where
  mark c := markOf c.toNat
  size c := c.utf8Size
  afterOrderMark?
    | c :: rest => if c = '\uFEFF' then some rest else none
    | [] => none
  text run := .ok (String.ofList run)

instance : Symbols UInt8 where
  mark b := markOf b.toNat
  size _ := 1
  afterOrderMark?
    | 0xEF :: 0xBB :: 0xBF :: rest => some rest
    | _ => none
  text run := (Text.decode 0 run).map String.ofList

end Screener.Csv
