import Screener.Proofs.Csv.ReadBack
import Screener.Proofs.Outcome
import Screener.Proofs.Phrase.Numbers
import Screener.Universe.Table

/-!
Universes read back. A security is written to a line with a cell to each column; what a column is
read as depends on its own cell alone, and each reading undoes the writing of that column.
-/

namespace Screener

open Text (Tight trim trimmed)

-----------------------------------------------------------------------------------------
-- Cells
-----------------------------------------------------------------------------------------

/-- The texts of a security say what they say without blanks around them, there is a code, and no
concept is mistaken for several.
-/
structure Security.Tidy (s : Security) : Prop where
  coded : s.code ≠ ""
  code : trimmed s.code = s.code
  name : trimmed s.name = s.name
  industry : trimmed s.industry = s.industry
  region : trimmed s.profile.region = s.profile.region
  concepts : ∀ concept ∈ s.profile.concepts,
    concept ≠ "" ∧ trimmed concept = concept ∧ '|' ∉ concept.toList

namespace Universe

/-- A truth value as a digit. -/
def flagText (b : Bool) : String := if b then "1" else "0"

/-- What is written of a security in a column. -/
def Column.text (s : Security) : Column → String
  | .code => s.code
  | .name => s.name
  | .industry => s.industry
  | .mcapYi => Decimal.plain s.mcapYi
  | .pe => Decimal.plain s.pe
  | .turnoverPct => Decimal.plain s.turnoverPct
  | .price => Decimal.plain s.price
  | .changePct => Decimal.plain s.changePct
  | .risingAverage => flagText s.tech.risingAverage
  | .breakout => flagText s.tech.breakout
  | .rebound => flagText s.tech.rebound
  | .region => s.profile.region
  | .concepts => String.intercalate "|" s.profile.concepts

/-- The cells of a security, column by column. -/
def cellsWritten (s : Security) : List String := Column.all.map (Column.text s)

theorem cell?_cellsWritten (s : Security) (column : Column)
    : column.cell? (cellsWritten s) = some (trim (column.text s).toList) := by
  cases column <;> rfl

theorem cell_cellsWritten (row : Nat) (s : Security) (column : Column)
    : cell row (cellsWritten s) column = .ok (trim (column.text s).toList) := by
  rw [cell, cell?_cellsWritten]

theorem trim_toList {text : String} (tidy : trimmed text = text)
    : trim text.toList = text.toList := by
  rw [← String.toList_ofList (l := trim text.toList)]
  exact congrArg String.toList tidy

/-- The plain text of a number has no blanks around it. -/
theorem trim_plain (v : Binary64) : trim (Decimal.plain v).toList = (Decimal.plain v).toList := by
  cases v with
  | nan => decide
  | infinite negative => cases negative <;> decide
  | finite negative units h =>
      refine (Tight.of_forall ?_ fun c member => ?_).trim_eq
      · obtain ⟨n, text, -⟩ := Decimal.Numeral.exists_of_plain negative h
        obtain ⟨c, rest, front, -⟩ := n.exists_head
        simp [text, Decimal.Numeral.chars, front]
      · have inside := Phrase.mem_numerals_of_mem_plain rfl member
        exact Phrase.NumberPhrase.isBlank_of_mem_numerals (List.mem_cons_of_mem _ inside)

theorem numberCell_cellsWritten (row : Nat) (s : Security) {column : Column} {v : Binary64}
    (written : column.text s = Decimal.plain v)
    : numberCell row (cellsWritten s) column = .ok v := by
  rw [numberCell, cell_cellsWritten, written, trim_plain]
  dsimp only [bind, Except.bind]
  rw [Decimal.literal_plain]

theorem flag?_flagText (b : Bool)
    : flag? (String.ofList (Text.lower (trim (flagText b).toList))) = some b := by
  cases b <;> decide +kernel

theorem flagCell_cellsWritten (row : Nat) (s : Security) {column : Column} {b : Bool}
    (written : column.text s = flagText b)
    : flagCell row (cellsWritten s) column = .ok b := by
  rw [flagCell, cell_cellsWritten, written]
  dsimp only [bind, Except.bind]
  rw [flag?_flagText]

/-- Joined concepts are parted again. -/
theorem conceptsOf_intercalate {concepts : List String}
    (tidy : ∀ concept ∈ concepts,
      concept ≠ "" ∧ trimmed concept = concept ∧ '|' ∉ concept.toList)
    : conceptsOf (trim (String.intercalate "|" concepts).toList) = concepts := by
  by_cases some : concepts = []
  · subst some
    decide +kernel
  have cells : concepts.map String.toList ≠ [] := by simpa using some
  have filled : ∀ cell ∈ concepts.map String.toList, cell ≠ [] := by
    refine List.forall_mem_map.2 fun concept member none => ?_
    exact (tidy concept member).1 (String.toList_eq_nil_iff.1 none)
  have trims : ∀ cell ∈ concepts.map String.toList, trim cell = cell :=
    List.forall_mem_map.2 fun concept member => trim_toList (tidy concept member).2.1
  have tight : ∀ cell ∈ concepts.map String.toList, Tight cell := by
    intro cell member
    rw [← trims cell member]
    refine Text.tight_trim ?_
    rw [trims cell member]
    exact filled cell member
  have apart : ∀ cell ∈ concepts.map String.toList, '|' ∉ cell :=
    List.forall_mem_map.2 fun concept member => (tidy concept member).2.2
  have all : ∀ cell ∈ concepts.map String.toList, (!cell.isEmpty) = true := by
    simpa using filled
  rw [String.toList_intercalate, (Tight.intercalate _ cells tight).trim_eq, conceptsOf,
    show "|".toList = ['|'] from rfl, List.splitOn_intercalate '|' apart cells,
    List.map_congr_left trims, List.map_id', List.filter_eq_self.2 all, List.map_map]
  simp [Function.comp_def, String.ofList_toList]

/-- The row of a tidy security is read as the security. -/
theorem securityOfRow_cellsWritten (row : Nat) {s : Security} (tidy : s.Tidy)
    : securityOfRow row (cellsWritten s) = .ok s := by
  have code : cell row (cellsWritten s) .code = .ok s.code.toList := by
    rw [cell_cellsWritten, Column.text, trim_toList tidy.code]
  have name : cell row (cellsWritten s) .name = .ok s.name.toList := by
    rw [cell_cellsWritten, Column.text, trim_toList tidy.name]
  have industry : cell row (cellsWritten s) .industry = .ok s.industry.toList := by
    rw [cell_cellsWritten, Column.text, trim_toList tidy.industry]
  have region : Column.region.cell? (cellsWritten s) = some s.profile.region.toList := by
    rw [cell?_cellsWritten, Column.text, trim_toList tidy.region]
  have concepts := cell?_cellsWritten s .concepts
  have coded : s.code.toList.isEmpty = false := by simpa using tidy.coded
  have mcapYi := numberCell_cellsWritten row s (rfl : Column.mcapYi.text s = _)
  have pe := numberCell_cellsWritten row s (rfl : Column.pe.text s = _)
  have turnoverPct := numberCell_cellsWritten row s (rfl : Column.turnoverPct.text s = _)
  have price := numberCell_cellsWritten row s (rfl : Column.price.text s = _)
  have changePct := numberCell_cellsWritten row s (rfl : Column.changePct.text s = _)
  have risingAverage := flagCell_cellsWritten row s (rfl : Column.risingAverage.text s = _)
  have breakout := flagCell_cellsWritten row s (rfl : Column.breakout.text s = _)
  have rebound := flagCell_cellsWritten row s (rfl : Column.rebound.text s = _)
  unfold securityOfRow
  rw [code]
  simp only [name, industry, mcapYi, pe, turnoverPct, price, changePct, risingAverage,
    breakout, rebound, region, concepts, bind, Except.bind, coded]
  rw [if_neg Bool.false_ne_true, Option.getD_some, Option.getD_some, Column.text,
    conceptsOf_intercalate tidy.concepts]
  simp only [String.ofList_toList]
  rfl

-----------------------------------------------------------------------------------------
-- Tables
-----------------------------------------------------------------------------------------

/-- The header that tables are documented with. -/
def header : String :=
  "code,name,industry,mcap_yi,pe,turnover_pct,price,change_pct," ++
    "ma5_up,break_20d,rsi_rebound,region,concepts"

/-- The line of a security: its cells between quotes, with commas between them. -/
def line (s : Security) : List Char :=
  [','].intercalate ((cellsWritten s).map fun cell => Csv.inQuotes cell.toList)

/-- A universe as a table: the header and a line to each security, with breaks between the lines
and perhaps some more at the end.
-/
def exported (newline closing : List Char) (securities : List Security) : List Char :=
  newline.intercalate (header.toList :: securities.map line) ++ closing

/-- The titles of the columns, as they are written. -/
def titles : List (List Char) := Column.all.map fun column => column.title.toList

theorem header_eq : header.toList = [','].intercalate titles := by decide +kernel

theorem exported_eq (newline closing : List Char) (securities : List Security)
    : exported newline closing securities
      = Csv.written newline closing
          (titles :: securities.map fun s =>
            (cellsWritten s).map fun cell => Csv.inQuotes cell.toList) := by
  rw [exported, Csv.written, header_eq, List.map_cons, List.map_map]
  rfl

/-- Titles are written as they are, for no mark stands in them, and cells between quotes. -/
theorem writes_exported (securities : List Security)
    : List.Forall₂ (List.Forall₂ Csv.Writes)
        (titles :: securities.map fun s =>
          (cellsWritten s).map fun cell => Csv.inQuotes cell.toList)
        (titles :: securities.map fun s => (cellsWritten s).map String.toList) := by
  refine .cons (List.forall₂_same.2 ?_) ?_
  · have unmarked : (titles.all fun title =>
        !title.isEmpty && title.all fun c => Csv.markOf c.toNat == .other) = true := by
      decide +kernel
    intro title member
    have own := List.all_eq_true.1 unmarked title member
    rw [Bool.and_eq_true, List.all_eq_true] at own
    exact .plain (by simpa using own.1) fun c inside => eq_of_beq (own.2 c inside)
  · refine List.forall₂_map_left_iff.2 (List.forall₂_map_right_iff.2 ?_)
    refine List.forall₂_same.2 fun s _ => ?_
    refine List.forall₂_map_left_iff.2 (List.forall₂_map_right_iff.2 ?_)
    exact List.forall₂_same.2 fun cell _ => .quoted cell.toList

variable {α : Type} [Csv.Symbols α] [Csv.Script α]

open Csv.Script (spell)

/-- The cells of a record are the texts that they were spelled from. -/
theorem cellsOf_spelled (index : Nat) {record : Csv.Record α} {cells : List String}
    (fields : record.fields = cells.map fun cell => cell.toList.flatMap spell)
    : cellsOf cells.length index record = .ok cells := by
  rw [cellsOf, fields, if_neg (by simp)]
  refine Outcome.mapM_zipIdx_eq_ok ?_ 0
  refine List.forall₂_map_left_iff.2 (List.forall₂_same.2 fun cell _ i => ?_)
  dsimp only
  rw [Csv.Script.text_spelled, String.ofList_toList]

theorem length_cellsWritten (s : Security) : (cellsWritten s).length = 13 := rfl

theorem securityOf_spelled (index : Nat) {record : Csv.Record α} {s : Security} (tidy : s.Tidy)
    (fields : record.fields = (cellsWritten s).map fun cell => cell.toList.flatMap spell)
    : securityOf 13 record index = .ok s := by
  have cells := cellsOf_spelled index fields
  rw [length_cellsWritten] at cells
  rw [securityOf, cells]
  exact securityOfRow_cellsWritten (index + 2) tidy

theorem head?_exported (newline closing : List Char) (securities : List Security)
    : (exported newline closing securities).head? = some 'c' := by
  obtain ⟨rest, front⟩ : ∃ rest, header.toList = 'c' :: rest :=
    ⟨header.toList.tail, by decide +kernel⟩
  rw [exported, front]
  cases securities.map line with
  | nil => rfl
  | cons line lines =>
      rw [List.intercalate_cons_cons]
      rfl

/-- What is exported is loaded, in whatever symbols it is spelled. -/
theorem ofTable_spelled {newline closing : List Char} (breaks : newline ≠ [])
    (newlines : Csv.LineEnds newline) (closings : Csv.LineEnds closing)
    {securities : List Security} (tidy : ∀ s ∈ securities, s.Tidy)
    : ofTable ((exported newline closing securities).flatMap spell : List α) = .ok securities := by
  have plain : (exported newline closing securities).head? ≠ some '\uFEFF' := by
    rw [head?_exported]
    decide
  have filled : ∀ line ∈ titles :: securities.map fun s =>
      (cellsWritten s).map fun cell => Csv.inQuotes cell.toList, line ≠ [] := by
    refine List.forall_mem_cons.2 ⟨List.cons_ne_nil _ _, List.forall_mem_map.2 fun s _ => ?_⟩
    exact List.cons_ne_nil _ _
  rw [exported_eq] at plain ⊢
  have rows := Csv.rows_written (α := α) (writes_exported securities) filled breaks newlines
    closings plain
  rw [ofTable]
  split
  next none =>
    rw [none] at rows
    contradiction
  next first records read =>
    rw [read, List.map_cons, List.map_cons, List.cons.injEq, List.map_map] at rows
    have width : first.fields.length = 13 := by
      rw [rows.1, List.length_map]
      rfl
    have each : List.Forall₂
        (fun (s : Security) (record : Csv.Record α) =>
          record.fields = (cellsWritten s).map fun cell => cell.toList.flatMap spell)
        securities records := by
      have same := rows.2.symm
      rw [← List.forall₂_eq_eq_eq] at same
      refine (List.forall₂_map_left_iff.1 (List.forall₂_map_right_iff.1 same)).imp ?_
      intro s record fields
      rw [← fields, Function.comp_apply, List.map_map]
      rfl
    rw [width]
    refine Outcome.mapM_zipIdx_eq_ok ?_ 0
    have both := (List.forall₂_and_left _ _).2 ⟨tidy, each⟩
    exact both.flip.imp fun record s ⟨tidy, fields⟩ index => securityOf_spelled index tidy fields

/-- A universe of tidy securities that is exported to a table is loaded from it unchanged, from the
characters of the table and from its bytes.
-/
theorem ofTable_exported {newline closing : List Char} (breaks : newline ≠ [])
    (newlines : Csv.LineEnds newline) (closings : Csv.LineEnds closing)
    {securities : List Security} (tidy : ∀ s ∈ securities, s.Tidy)
    : ofTable (exported newline closing securities) = .ok securities
      ∧ ofTable (String.ofList (exported newline closing securities)).toUTF8.data.toList
        = .ok securities := by
  have characters := ofTable_spelled (α := Char) breaks newlines closings tidy
  have bytes := ofTable_spelled (α := UInt8) breaks newlines closings tidy
  constructor
  · rwa [show (spell : Char → List Char) = fun c => [c] from rfl, List.flatMap_singleton']
      at characters
  · rw [Text.toUTF8_ofList]
    exact bytes

/-- A security with marks and breaks in its texts and no finite figure but the two zeros. -/
def oddity : Security :=
  ⟨"A,\"1\"", "甲\r\n乙", "", .nan, .infinite false, .infinite true, 0, -0, ⟨true, false, true⟩,
    ⟨"", ["\"", "x, y"]⟩⟩

example : String.ofList (exported ['\n'] ['\n'] [oddity])
    = header ++ "\n\"A,\"\"1\"\"\",\"甲\r\n乙\",\"\"," ++
      "\"NaN\",\"inf\",\"-inf\",\"0\",\"-0\",\"1\",\"0\",\"1\",\"\",\"\"\"|x, y\"\n" := by
  decide +kernel

theorem tidy_oddity : oddity.Tidy where
  coded := by decide
  code := by decide +kernel
  name := by decide +kernel
  industry := by decide +kernel
  region := by decide +kernel
  concepts := by decide +kernel

/-- Witness: the odd security twice, in a table with breaks of two characters and none at the end.
-/
theorem ofTable_exported_oddity
    : ofTable (String.ofList (exported ['\r', '\n'] [] [oddity, oddity])).toUTF8.data.toList
      = .ok [oddity, oddity] := by
  have breaks : Csv.LineEnds ['\r', '\n'] :=
    List.forall_mem_cons.2 ⟨.inl rfl, List.forall_mem_singleton.2 (.inr rfl)⟩
  refine (ofTable_exported (List.cons_ne_nil _ _) breaks (List.forall_mem_nil _) ?_).2
  simpa using tidy_oddity

end Universe

end Screener
