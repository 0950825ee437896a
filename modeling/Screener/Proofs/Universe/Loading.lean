import Screener.Proofs.Outcome
import Screener.Proofs.Text.Lowercase
import Screener.Universe.Basic
import Screener.Universe.Table

/-!
What is wrong with a table, if anything. A record is first read as cells, then its columns are
checked in order, and records are checked in order too: a table is loaded if all of them pass, and
otherwise refused for the first fault of the first record that has one.
-/

namespace Screener.Universe

open Outcome (Checks checks_ok checks_error)

-----------------------------------------------------------------------------------------
-- Columns
-----------------------------------------------------------------------------------------

namespace Column

/-- The columns that every row must have, in the order in which they are checked. -/
def required : List Column :=
  [.code, .name, .industry, .mcapYi, .pe, .turnoverPct, .price, .changePct, .risingAverage,
    .breakout, .rebound]

/-- What the cells of a column are. -/
inductive Kind where
  | code
  | text
  | number
  | flag
deriving DecidableEq

def kind : Column → Kind
  | .code => .code
  | .name | .industry | .region | .concepts => .text
  | .mcapYi | .pe | .turnoverPct | .price | .changePct => .number
  | .risingAverage | .breakout | .rebound => .flag

/-- The texts of truth values in lowercase. -/
def flagTexts : List String := ["1", "true", "yes", "0", "false", "no", ""]

/-- A trimmed cell is one that a column of the kind may have. -/
def Kind.Takes (cell : List Char) : Kind → Prop
  | .code => cell ≠ []
  | .text => True
  | .number => ∃ v, Decimal.literal cell = .ok v
  | .flag => String.ofList (Text.lower cell) ∈ flagTexts

/-- The row has the column, with a cell that the column may have. -/
def Sound (cells : List String) (column : Column) : Prop :=
  ∃ cell, column.cell? cells = some cell ∧ column.kind.Takes cell

/-- What is wrong with a column of a row. -/
inductive Fault (row : Nat) (cells : List String) : Column → TableProblem → Prop where
  | missing {column : Column} (none : column.cell? cells = none)
    : Fault row cells column (.missingColumn row column)
  | emptyCode (blank : Column.code.cell? cells = some [])
    : Fault row cells .code (.emptyCode row)
  | badNumber {column : Column} {cell : List Char} {cause : Decimal.LiteralError}
    (number : column.kind = .number) (there : column.cell? cells = some cell)
    (bad : Decimal.literal cell = .error cause)
    : Fault row cells column (.badNumber row column (String.ofList cell) cause)
  | badFlag {column : Column} {cell : List Char} (flag : column.kind = .flag)
    (there : column.cell? cells = some cell)
    (bad : String.ofList (Text.lower cell) ∉ flagTexts)
    : Fault row cells column (.badFlag row column (String.ofList (Text.lower cell)))

/-- The message gives the row and names the column. -/
def Names (row : Nat) (column : Column) (message : String) : Prop :=
  ∃ verb ∈ ["missing ", "empty ", "invalid "], ∃ rest,
    message = "row " ++ Nat.repr row ++ ": " ++ verb ++ column.title ++ rest

variable {row : Nat} {cells : List String} {column : Column} {p : TableProblem}

theorem Fault.not_sound (fault : Fault row cells column p) : ¬column.Sound cells := by
  rintro ⟨cell, there, takes⟩
  cases fault with
  | missing none => simp [none] at there
  | emptyCode blank =>
      obtain rfl := Option.some.inj (blank.symm.trans there)
      exact takes rfl
  | badNumber number other bad =>
      obtain rfl := Option.some.inj (other.symm.trans there)
      rw [number] at takes
      obtain ⟨v, good⟩ := takes
      simp [bad] at good
  | badFlag flag other bad =>
      obtain rfl := Option.some.inj (other.symm.trans there)
      rw [flag] at takes
      exact bad takes

theorem Fault.names (fault : Fault row cells column p) : column.Names row p.message := by
  cases fault with
  | missing =>
      refine ⟨"missing ", by simp, " column", ?_⟩
      change "row " ++ Nat.repr row ++ ": " ++ ("missing " ++ column.title ++ " column") = _
      simp only [String.append_assoc]
  | emptyCode =>
      refine ⟨"empty ", by simp, "", ?_⟩
      change "row " ++ Nat.repr row ++ ": " ++ ("empty " ++ "code") = _
      rw [String.append_empty, ← String.append_assoc]
      rfl
  | @badNumber column cell cause =>
      refine ⟨"invalid ", by simp,
        " value " ++ Text.quoted (String.ofList cell) ++ ": " ++ cause.message, ?_⟩
      change "row " ++ Nat.repr row ++ ": " ++ ("invalid " ++ column.title ++ " value " ++
        Text.quoted (String.ofList cell) ++ ": " ++ cause.message) = _
      simp only [String.append_assoc]
  | @badFlag column cell =>
      refine ⟨"invalid ", by simp,
        " flag " ++ Text.quoted (String.ofList (Text.lower cell)), ?_⟩
      change "row " ++ Nat.repr row ++ ": " ++ ("invalid " ++ column.title ++ " flag " ++
        Text.quoted (String.ofList (Text.lower cell))) = _
      simp only [String.append_assoc]

end Column

-----------------------------------------------------------------------------------------
-- Rows
-----------------------------------------------------------------------------------------

section Row

open Column (Sound Fault)

variable {row : Nat} {cells : List String} {column : Column}

/-- A column that is read has to be there, whatever else is asked of it. -/
theorem checks_cell {β : Type} {columns : List Column} {f : List Char → Except TableProblem β}
    (others : ∀ text, column.cell? cells = some text →
      Checks (Sound cells) (Fault row cells) (column :: columns) (f text))
    : Checks (Sound cells) (Fault row cells) (column :: columns)
        (cell row cells column >>= f) := by
  unfold cell
  cases there : column.cell? cells with
  | none => exact checks_error (.missing there)
  | some text => exact others text there

theorem checks_numberCell (number : column.kind = .number)
    : Checks (Sound cells) (Fault row cells) [column] (numberCell row cells column) := by
  unfold numberCell
  refine checks_cell fun text there => ?_
  cases read : Decimal.literal text with
  | ok v => exact checks_ok ⟨text, there, by rw [number]; exact ⟨v, read⟩⟩
  | error cause => exact checks_error (.badNumber number there read)

/-- The texts of truth values are those that stand for one. -/
theorem isSome_flag? (text : String) : (flag? text).isSome = true ↔ text ∈ Column.flagTexts := by
  unfold flag? Column.flagTexts
  split
  next yes => exact iff_of_true rfl (by rcases yes with rfl | rfl | rfl <;> simp)
  next =>
    split
    next no => exact iff_of_true rfl (by rcases no with rfl | rfl | rfl | rfl <;> simp)
    next => simp_all

theorem checks_flagCell (flag : column.kind = .flag)
    : Checks (Sound cells) (Fault row cells) [column] (flagCell row cells column) := by
  unfold flagCell
  refine checks_cell fun text there => ?_
  have known := isSome_flag? (String.ofList (Text.lower text))
  dsimp only
  cases read : flag? (String.ofList (Text.lower text)) with
  | some b =>
      rw [read] at known
      exact checks_ok ⟨text, there, by rw [flag]; exact known.1 rfl⟩
  | none =>
      rw [read] at known
      exact checks_error (.badFlag flag there (mt known.2 Bool.false_ne_true))

/-- The code must not be empty. -/
theorem checks_code {columns : List Column} {f : List Char → Except TableProblem Security}
    (others : ∀ code, Checks (Sound cells) (Fault row cells) columns (f code))
    : Checks (Sound cells) (Fault row cells) (.code :: columns)
        (cell row cells .code >>= fun code =>
          if code.isEmpty then .error (.emptyCode row) else f code) := by
  refine checks_cell fun code there => ?_
  cases code with
  | nil => exact checks_error (.emptyCode there)
  | cons c code => exact .cons ⟨c :: code, there, List.cons_ne_nil c code⟩ (others (c :: code))

/-- A row is read by checking its columns in order. -/
theorem checks_securityOfRow (row : Nat) (cells : List String)
    : Checks (Sound cells) (Fault row cells) Column.required (securityOfRow row cells) := by
  unfold securityOfRow
  refine checks_code fun _ => ?_
  -- Name and industry may be anything.
  iterate 2 refine checks_cell fun text there => .cons ⟨text, there, trivial⟩ ?_
  iterate 5 refine (checks_numberCell rfl).bind fun _ _ => ?_
  iterate 3 refine (checks_flagCell rfl).bind fun _ _ => ?_
  exact List.forall_mem_nil _

/-- The row has a number in the column. -/
def IsNumber (cells : List String) (column : Column) (v : Binary64) : Prop :=
  ∃ cell, column.cell? cells = some cell ∧ Decimal.literal cell = .ok v

/-- The row has a truth value in the column. -/
def IsFlag (cells : List String) (column : Column) (b : Bool) : Prop :=
  ∃ cell, column.cell? cells = some cell ∧ flag? (String.ofList (Text.lower cell)) = some b

/-- The security is the one in the row. Its region and its concepts may be missing there. -/
structure Shows (cells : List String) (s : Security) : Prop where
  code : Column.code.cell? cells = some s.code.toList
  name : Column.name.cell? cells = some s.name.toList
  industry : Column.industry.cell? cells = some s.industry.toList
  mcapYi : IsNumber cells .mcapYi s.mcapYi
  pe : IsNumber cells .pe s.pe
  turnoverPct : IsNumber cells .turnoverPct s.turnoverPct
  price : IsNumber cells .price s.price
  changePct : IsNumber cells .changePct s.changePct
  risingAverage : IsFlag cells .risingAverage s.tech.risingAverage
  breakout : IsFlag cells .breakout s.tech.breakout
  rebound : IsFlag cells .rebound s.tech.rebound
  region : s.profile.region.toList = (Column.region.cell? cells).getD []
  concepts : s.profile.concepts = conceptsOf ((Column.concepts.cell? cells).getD [])

theorem cell_eq_ok {text : List Char} (read : cell row cells column = .ok text)
    : column.cell? cells = some text := by
  unfold cell at read
  split at read
  next there => rw [there, Except.ok.inj read]
  next => contradiction

theorem numberCell_eq_ok {v : Binary64} (read : numberCell row cells column = .ok v)
    : IsNumber cells column v := by
  obtain ⟨text, there, read⟩ := Outcome.bind_eq_ok.1 read
  refine ⟨text, cell_eq_ok there, ?_⟩
  split at read
  next same => rw [same, Except.ok.inj read]
  next => contradiction

theorem flagCell_eq_ok {b : Bool} (read : flagCell row cells column = .ok b)
    : IsFlag cells column b := by
  obtain ⟨text, there, read⟩ := Outcome.bind_eq_ok.1 read
  refine ⟨text, cell_eq_ok there, ?_⟩
  dsimp only at read
  split at read
  next same => rw [same, Except.ok.inj read]
  next => contradiction

/-- The security that is made of a row is the one in it. -/
theorem shows_of_eq_ok {s : Security} (made : securityOfRow row cells = .ok s) : Shows cells s := by
  unfold securityOfRow at made
  obtain ⟨code, hasCode, made⟩ := Outcome.bind_eq_ok.1 made
  split at made
  next => contradiction
  obtain ⟨name, hasName, made⟩ := Outcome.bind_eq_ok.1 made
  obtain ⟨industry, hasIndustry, made⟩ := Outcome.bind_eq_ok.1 made
  obtain ⟨mcapYi, hasMcapYi, made⟩ := Outcome.bind_eq_ok.1 made
  obtain ⟨pe, hasPe, made⟩ := Outcome.bind_eq_ok.1 made
  obtain ⟨turnoverPct, hasTurnoverPct, made⟩ := Outcome.bind_eq_ok.1 made
  obtain ⟨price, hasPrice, made⟩ := Outcome.bind_eq_ok.1 made
  obtain ⟨changePct, hasChangePct, made⟩ := Outcome.bind_eq_ok.1 made
  obtain ⟨risingAverage, hasRisingAverage, made⟩ := Outcome.bind_eq_ok.1 made
  obtain ⟨breakout, hasBreakout, made⟩ := Outcome.bind_eq_ok.1 made
  obtain ⟨rebound, hasRebound, made⟩ := Outcome.bind_eq_ok.1 made
  obtain rfl := Except.ok.inj made
  exact {
    code := String.toList_ofList (l := _) ▸ cell_eq_ok hasCode
    name := String.toList_ofList (l := _) ▸ cell_eq_ok hasName
    industry := String.toList_ofList (l := _) ▸ cell_eq_ok hasIndustry
    mcapYi := numberCell_eq_ok hasMcapYi
    pe := numberCell_eq_ok hasPe
    turnoverPct := numberCell_eq_ok hasTurnoverPct
    price := numberCell_eq_ok hasPrice
    changePct := numberCell_eq_ok hasChangePct
    risingAverage := flagCell_eq_ok hasRisingAverage
    breakout := flagCell_eq_ok hasBreakout
    rebound := flagCell_eq_ok hasRebound
    region := String.toList_ofList
    concepts := rfl }

end Row

-----------------------------------------------------------------------------------------
-- Records
-----------------------------------------------------------------------------------------

section Records

variable {α : Type} [Csv.Symbols α] {width index : Nat} {record : Csv.Record α}
  {cells : List String} {p : TableProblem}

/-- The record is as wide as the header, and its fields are the texts of the cells. -/
structure Reads (width : Nat) (record : Csv.Record α) (cells : List String) : Prop where
  wide : record.fields.length = width
  texts : List.Forall₂ (fun field cell => Csv.Symbols.text field = .ok cell) record.fields cells

/-- What keeps a record from being read as cells: its width, or else the first field that is no
text.
-/
inductive ReaderFault (width index : Nat) (record : Csv.Record α) : TableProblem → Prop where
  | unequalLength (other : record.fields.length ≠ width)
    : ReaderFault width index record
        (.unequalLength record.position record.fields.length width)
  | notText {before after : List (List α)} {field : List α} {byte : Nat}
    (wide : record.fields.length = width) (split : record.fields = before ++ field :: after)
    (texts : ∀ f ∈ before, ∃ cell, Csv.Symbols.text f = .ok cell)
    (bad : Csv.Symbols.text field = .error byte)
    : ReaderFault width index record
        (.notText (if index = 0 then .start else record.position) before.length byte)

theorem Reads.unique {cells' : List String} (reads : Reads width record cells)
    (other : Reads width record cells')
    : cells = cells' := by
  have same := Outcome.mapM_eq_ok_iff.2 reads.texts
  rw [Outcome.mapM_eq_ok_iff.2 other.texts] at same
  exact (Except.ok.inj same).symm

theorem ReaderFault.not_reads (fault : ReaderFault width index record p) (cells : List String)
    : ¬Reads width record cells := by
  rintro ⟨wide, texts⟩
  cases fault with
  | unequalLength other => exact other wide
  | @notText _ _ field _ _ split _ bad =>
      obtain ⟨cell, good⟩ := Outcome.exists_of_forall₂ texts field (by rw [split]; simp)
      simp [bad] at good

theorem reads_of_eq_ok (read : cellsOf width index record = .ok cells)
    : Reads width record cells := by
  unfold cellsOf at read
  split at read
  next => contradiction
  next same =>
    refine ⟨Decidable.not_not.1 same, Outcome.forall₂_of_zipIdx <|
      (Outcome.mapM_eq_ok_iff.1 read).imp fun (field, i) cell known => ?_⟩
    dsimp only at known
    split at known
    next text => rw [text, Except.ok.inj known]
    next => contradiction

/-- The fields of a record that is wide enough are read in order. -/
theorem checks_cellsOf (index : Nat) (wide : record.fields.length = width)
    : Checks (fun field => ∃ cell, Csv.Symbols.text field.1 = .ok cell)
        (fun field problem => ∃ byte, Csv.Symbols.text field.1 = .error byte
          ∧ problem
            = .notText (if index = 0 then .start else record.position) field.2 byte)
        record.fields.zipIdx (cellsOf width index record) := by
  rw [cellsOf, if_neg (Decidable.not_not.2 wide)]
  refine Checks.mapM (fun (field, i) => ?_) _
  dsimp only
  cases read : Csv.Symbols.text field with
  | ok text => exact checks_ok ⟨text, read⟩
  | error byte => exact checks_error ⟨byte, read, rfl⟩

theorem fault_of_eq_error (failed : cellsOf width index record = .error p)
    : ReaderFault width index record p := by
  by_cases wide : record.fields.length = width
  · have checks := checks_cellsOf index wide
    rw [failed] at checks
    obtain ⟨before, ⟨field, i⟩, after, split, texts, byte, bad, rfl⟩ := checks
    obtain ⟨whole, place⟩ := Outcome.zipIdx_eq_append_cons split
    rw [place, Nat.zero_add]
    exact .notText wide whole (List.forall_mem_map.2 texts) bad
  · rw [cellsOf, if_pos wide] at failed
    obtain rfl := Except.error.inj failed
    exact .unequalLength wide

/-- The record is read as cells, and they are sound in every column that a row must have. -/
def RecordSound (width : Nat) (record : Csv.Record α) : Prop :=
  ∃ cells, Reads width record cells ∧ ∀ column ∈ Column.required, column.Sound cells

/-- What is wrong with a record: it is not read, or else a column has a fault and those before it
are sound. The message names the column.
-/
inductive RecordFault (width index : Nat) (record : Csv.Record α) (p : TableProblem) : Prop where
  | reader (fault : ReaderFault width index record p)
  | row {cells : List String} {before after : List Column} {column : Column}
    (reads : Reads width record cells) (split : Column.required = before ++ column :: after)
    (sound : ∀ c ∈ before, c.Sound cells) (fault : column.Fault (index + 2) cells p)
    (names : column.Names (index + 2) p.message)

theorem RecordFault.not_sound (fault : RecordFault width index record p)
    : ¬RecordSound width record := by
  rintro ⟨cells, reads, sound⟩
  cases fault with
  | reader fault => exact fault.not_reads cells reads
  | @row _ _ _ column other split _ fault =>
      rw [reads.unique other] at sound
      exact fault.not_sound (sound column (by rw [split]; simp))

theorem checks_securityOf (width : Nat) (entry : Csv.Record α × Nat)
    : Checks (fun entry => RecordSound width entry.1)
        (fun entry p => RecordFault width entry.2 entry.1 p) [entry]
        (securityOf width entry.1 entry.2) := by
  unfold securityOf
  cases read : cellsOf width entry.2 entry.1 with
  | error p => exact checks_error (.reader (fault_of_eq_error read))
  | ok cells =>
      have reads := reads_of_eq_ok read
      have checks := checks_securityOfRow (entry.2 + 2) cells
      change Checks _ _ _ (securityOfRow (entry.2 + 2) cells)
      cases made : securityOfRow (entry.2 + 2) cells with
      | ok s =>
          rw [made] at checks
          exact checks_ok ⟨cells, reads, checks⟩
      | error p =>
          rw [made] at checks
          obtain ⟨before, column, after, split, sound, fault⟩ := checks
          exact checks_error (.row reads split sound fault fault.names)

theorem shows_of_securityOf {s : Security} (made : securityOf width record index = .ok s)
    : ∃ cells, Reads width record cells ∧ Shows cells s := by
  obtain ⟨cells, read, made⟩ := Outcome.bind_eq_ok.1 made
  exact ⟨cells, reads_of_eq_ok read, shows_of_eq_ok made⟩

end Records

-----------------------------------------------------------------------------------------
-- Tables
-----------------------------------------------------------------------------------------

section Tables

variable {α : Type} [Csv.Symbols α]

/-- The number of fields in the header of a table. -/
def widthOf (table : List α) : Nat :=
  ((Csv.records table).head?.map fun header => header.fields.length).getD 0

/-- The records of a table behind its header. -/
def dataOf (table : List α) : List (Csv.Record α) := (Csv.records table).tail

theorem ofTable_eq (table : List α)
    : ofTable table
      = (dataOf table).zipIdx.mapM fun entry => securityOf (widthOf table) entry.1 entry.2 := by
  unfold ofTable dataOf widthOf
  cases Csv.records table <;> rfl

theorem Shows.trimmed_code {cells : List String} {s : Security} (shows : Shows cells s)
    : Text.trimmed s.code = s.code := by
  obtain ⟨cell, _, trims⟩ := Option.map_eq_some_iff.1 shows.code
  rw [Text.trimmed, ← trims, Text.trim_trim, trims, String.ofList_toList]

/-- A security with a trimmed code is found under that code, unless one before it is. -/
theorem find?_of_mem {securities : List Security} {s : Security} (member : s ∈ securities)
    (tidy : Text.trimmed s.code = s.code)
    : ∃ before first after, securities = before ++ first :: after ∧ first.code = s.code
        ∧ (∀ other ∈ before, other.code ≠ s.code) ∧ find? securities s.code = some first := by
  unfold find?
  rw [tidy]
  have there : (securities.find? fun t => t.code == s.code).isSome = true :=
    List.find?_isSome.2 ⟨s, member, beq_self_eq_true s.code⟩
  obtain ⟨first, found⟩ := Option.isSome_iff_exists.1 there
  obtain ⟨same, before, after, split, others⟩ := List.find?_eq_some_iff_append.1 found
  refine ⟨before, first, after, split, eq_of_beq same, fun other inside => ?_, found⟩
  simpa using others other inside

/-- What a table leads to. It is loaded just if each of its records is read and sound, and then to
the securities in these, where the first with a code is found under it. Otherwise it is refused for
the first record with a fault, and the message says in which row and column of that.
-/
theorem loading_law (table : List α)
    : ((∃ securities, ofTable table = .ok securities)
        ↔ ∀ record ∈ dataOf table, RecordSound (widthOf table) record)
      ∧ (∀ securities, ofTable table = .ok securities →
          List.Forall₂
              (fun record s => ∃ cells, Reads (widthOf table) record cells ∧ Shows cells s)
              (dataOf table) securities
            ∧ ∀ s ∈ securities, ∃ before first after, securities = before ++ first :: after
                ∧ first.code = s.code ∧ (∀ other ∈ before, other.code ≠ s.code)
                ∧ find? securities s.code = some first)
      ∧ ∀ p, ofTable table = .error p →
          ∃ before record after, dataOf table = before ++ record :: after
            ∧ (∀ earlier ∈ before, RecordSound (widthOf table) earlier)
            ∧ RecordFault (widthOf table) before.length record p := by
  have checks := Checks.mapM (checks_securityOf (widthOf table)) (dataOf table).zipIdx
  rw [← ofTable_eq] at checks
  refine ⟨?_, fun securities made => ?_, fun p failed => ?_⟩
  · rw [checks.exists_ok_iff fun entry p => RecordFault.not_sound,
      ← List.forall_mem_map (P := RecordSound (widthOf table)), List.zipIdx_map_fst]
  · rw [ofTable_eq] at made
    have shown : List.Forall₂
        (fun record s => ∃ cells, Reads (widthOf table) record cells ∧ Shows cells s)
        (dataOf table) securities :=
      Outcome.forall₂_of_zipIdx
        ((Outcome.mapM_eq_ok_iff.1 made).imp fun entry s => shows_of_securityOf)
    refine ⟨shown, fun s inside => find?_of_mem inside ?_⟩
    obtain ⟨record, cells, _, shows⟩ := Outcome.exists_of_forall₂ shown.flip s inside
    exact shows.trimmed_code
  · rw [failed] at checks
    obtain ⟨before, ⟨record, index⟩, after, split, sound, fault⟩ := checks
    obtain ⟨whole, place⟩ := Outcome.zipIdx_eq_append_cons split
    rw [place, Nat.zero_add] at fault
    exact ⟨before.map Prod.fst, record, after.map Prod.fst, whole, List.forall_mem_map.2 sound,
      fault⟩

namespace Sparse

/-- A row with a code between blanks and no more of the other cells than there must be. -/
def row : String := " 1　,甲,,.5,1.,1e3,-0,inf,Yes,,0"

/-- The security in the row. -/
def security : Security :=
  ⟨"1", "甲", "", 0.5, 1, 1000, -0, .infinite false, ⟨true, false, false⟩, ⟨"", []⟩⟩

/-- The row twice under a header without any titles. -/
def twice : List Char := (",,,,,,,,,,\n" ++ row ++ "\n" ++ row).toList

/-- The row, then one with two faults, and one that is too short. -/
def faulty : List Char := (",,,,,,,,,,\n" ++ row ++ "\n2,乙,,1,n/a,1,1,1,maybe,,\n3").toList

/-- Witness: a table that is loaded, and one that is refused for the first fault of its third row.
-/
theorem loading_law_sparse
    : (ofTable twice = .ok [security, security]
        ∧ ∃ before first after, [security, security] = before ++ first :: after
          ∧ first.code = security.code ∧ (∀ other ∈ before, other.code ≠ security.code)
          ∧ find? [security, security] security.code = some first)
      ∧ ofTable faulty = .error (.badNumber 3 .pe "n/a" .invalid)
      ∧ ∃ before record after, dataOf faulty = before ++ record :: after
          ∧ (∀ earlier ∈ before, RecordSound (widthOf faulty) earlier)
          ∧ RecordFault (widthOf faulty) before.length record
              (.badNumber 3 .pe "n/a" .invalid) := by
  have made : ofTable twice = .ok [security, security] := by decide +kernel
  have failed : ofTable faulty = .error (.badNumber 3 .pe "n/a" .invalid) := by decide +kernel
  exact ⟨⟨made, ((loading_law twice).2.1 _ made).2 security (by simp)⟩, failed,
    (loading_law faulty).2.2 _ failed⟩

end Sparse

end Tables

end Screener.Universe
