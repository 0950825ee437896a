import Screener.Csv.Record
import Screener.Decimal.Literal
import Screener.FileProblem
import Screener.Security.Basic
import Screener.Text.Blank
import Screener.Text.Lowercase
import Screener.Text.Quoted

/-!
Universes kept as tables, one security to a row under a header. Loading is all or nothing:
the first row with something wrong refuses the table.
-/

namespace Screener.Universe

/-- The columns of a table, in order. -/
inductive Column where
  | code
  | name
  | industry
  | mcapYi
  | pe
  | turnoverPct
  | price
  | changePct
  | risingAverage
  | breakout
  | rebound
  | region
  | concepts
deriving DecidableEq, Repr

namespace Column

def all : List Column :=
  [.code, .name, .industry, .mcapYi, .pe, .turnoverPct, .price, .changePct,
    .risingAverage, .breakout, .rebound, .region, .concepts]

/-- The name that messages and the header use. -/
def title : Column → String
  | .code => "code"
  | .name => "name"
  | .industry => "industry"
  | .mcapYi => "mcap_yi"
  | .pe => "pe"
  | .turnoverPct => "turnover_pct"
  | .price => "price"
  | .changePct => "change_pct"
  | .risingAverage => "ma5_up"
  | .breakout => "break_20d"
  | .rebound => "rsi_rebound"
  | .region => "region"
  | .concepts => "concepts"

/-- The cell of a row in a column, without the blanks around it. -/
def cell? (column : Column) (row : List String) : Option (List Char) :=
  (row[all.idxOf column]?).map fun cell => Text.trim cell.toList

end Column

-----------------------------------------------------------------------------------------
-- Problems
-----------------------------------------------------------------------------------------

/-- What is wrong with a table. Rows are counted from the header, which is the first. -/
inductive TableProblem where
  | unreadable (path : String) (cause : FileProblem)
  | unequalLength (position : Csv.Position) (found expected : Nat)
  | notText (position : Csv.Position) (field index : Nat)
  | missingColumn (row : Nat) (column : Column)
  | emptyCode (row : Nat)
  | badNumber (row : Nat) (column : Column) (cell : String) (cause : Decimal.LiteralError)
  | badFlag (row : Nat) (column : Column) (cell : String)
deriving DecidableEq, Repr

namespace TableProblem

/-- A row and what a message says of it. -/
private def inRow (row : Nat) (rest : String) : String :=
  "row " ++ Nat.repr row ++ ": " ++ rest

def message : TableProblem → String
  | .unreadable path cause => "failed to read " ++ path ++ ": " ++ cause.message
  | .unequalLength position found expected =>
    "CSV parse error: CSV error: record " ++ Nat.repr position.record ++
      " (line: " ++ Nat.repr position.line ++ ", byte: " ++ Nat.repr position.byte ++
      "): found record with " ++ Nat.repr found ++
      " fields, but the previous record has " ++ Nat.repr expected ++ " fields"
  | .notText position field index =>
    "CSV parse error: CSV parse error: record " ++ Nat.repr position.record ++
      " (line " ++ Nat.repr position.line ++ ", field: " ++ Nat.repr field ++
      ", byte: " ++ Nat.repr position.byte ++
      "): invalid utf-8: invalid UTF-8 in field " ++ Nat.repr field ++
      " near byte index " ++ Nat.repr index
  | .missingColumn row column => inRow row ("missing " ++ column.title ++ " column")
  | .emptyCode row => inRow row "empty code"
  | .badNumber row column cell cause =>
    inRow row ("invalid " ++ column.title ++ " value " ++ Text.quoted cell ++ ": " ++
      cause.message)
  | .badFlag row column cell =>
    inRow row ("invalid " ++ column.title ++ " flag " ++ Text.quoted cell)

end TableProblem

-----------------------------------------------------------------------------------------
-- Rows
-----------------------------------------------------------------------------------------

/-- The parts of a text between bars, without the blanks around them; blank parts are left
out.
-/
def conceptsOf (cell : List Char) : List String :=
  ((cell.splitOn '|').map Text.trim |>.filter (!·.isEmpty)).map String.ofList

section Row

variable (row : Nat) (cells : List String)

/-- The trimmed cell of a column that must be there. -/
def cell (column : Column) : Except TableProblem (List Char) :=
  match column.cell? cells with
  | some text => .ok text
  | none => .error (.missingColumn row column)

/-- The number in a column. -/
def numberCell (column : Column) : Except TableProblem Binary64 := do
  let text ← cell row cells column
  match Decimal.literal text with
  | .ok value => .ok value
  | .error cause => .error (.badNumber row column (String.ofList text) cause)

/-- The truth value that a cell in lowercase stands for. -/
def flag? (text : String) : Option Bool :=
  if text = "1" ∨ text = "true" ∨ text = "yes" then some true
  else if text = "0" ∨ text = "false" ∨ text = "no" ∨ text = "" then some false
  else none

/-- The truth value in a column, in any case. -/
def flagCell (column : Column) : Except TableProblem Bool := do
  let text := String.ofList (Text.lower (← cell row cells column))
  match flag? text with
  | some value => .ok value
  | none => .error (.badFlag row column text)

/-- The security in a row, or what is first wrong with it. Region and concepts may be
missing.
-/
def securityOfRow : Except TableProblem Security := do
  let code ← cell row cells .code
  if code.isEmpty then .error (.emptyCode row)
  let name ← cell row cells .name
  let industry ← cell row cells .industry
  let mcapYi ← numberCell row cells .mcapYi
  let pe ← numberCell row cells .pe
  let turnoverPct ← numberCell row cells .turnoverPct
  let price ← numberCell row cells .price
  let changePct ← numberCell row cells .changePct
  let risingAverage ← flagCell row cells .risingAverage
  let breakout ← flagCell row cells .breakout
  let rebound ← flagCell row cells .rebound
  return {
    code := String.ofList code
    name := String.ofList name
    industry := String.ofList industry
    mcapYi, pe, turnoverPct, price, changePct
    tech := ⟨risingAverage, breakout, rebound⟩
    profile :=
      ⟨String.ofList ((Column.region.cell? cells).getD []),
        conceptsOf ((Column.concepts.cell? cells).getD [])⟩ }

end Row

-----------------------------------------------------------------------------------------
-- Tables
-----------------------------------------------------------------------------------------

variable {α : Type} [Csv.Symbols α]

/-- The cells of a record as text. The record has to be as wide as the header; `index`
counts the records after that.
-/
def cellsOf (width index : Nat) (record : Csv.Record α)
    : Except TableProblem (List String) :=
  if record.fields.length ≠ width then
    .error (.unequalLength record.position record.fields.length width)
  else
    record.fields.zipIdx.mapM fun (field, i) =>
      match Csv.Symbols.text field with
      | .ok text => .ok text
      | .error byte =>
        .error (.notText (if index = 0 then .start else record.position) i byte)

/-- The security in a record. -/
def securityOf (width : Nat) (record : Csv.Record α) (index : Nat)
    : Except TableProblem Security := do
  securityOfRow (index + 2) (← cellsOf width index record)

/-- The universe in a table. The first record is the header, whatever it holds. -/
def ofTable (table : List α) : Except TableProblem (List Security) :=
  match Csv.records table with
  | [] => .ok []
  | header :: records =>
    records.zipIdx.mapM fun (record, index) => securityOf header.fields.length record index

end Screener.Universe
