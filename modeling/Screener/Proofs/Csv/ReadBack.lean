import Mathlib.Data.List.Forall2
import Mathlib.Tactic.SplitIfs
import Screener.Csv.Record
import Screener.Proofs.Text.Substring
import Screener.Proofs.Text.Utf8

/-!
Tables read back. A cell is written as it is if no mark stands in it, and else between quotes;
either way reading comes to its end with the cell and nothing else, so that lines of cells and
tables of lines follow by induction. The symbols may be characters or the bytes of these.
-/

namespace Screener.Csv

open Symbols (mark)

-----------------------------------------------------------------------------------------
-- Texts in symbols
-----------------------------------------------------------------------------------------

/-- Symbols that any text can be spelled in. What marks a table is a single symbol, and no other
character is spelled with one.
-/
class Script (α : Type) [Symbols α] where
  spell : Char → List α
  filled : ∀ c, spell c ≠ []
  marked : ∀ c, markOf c.toNat ≠ .other → ∃ s, spell c = [s] ∧ mark s = markOf c.toNat
  unmarked : ∀ c, markOf c.toNat = .other → ∀ s ∈ spell c, mark s = .other
  text_spelled : ∀ text : List Char, Symbols.text (text.flatMap spell) = .ok (String.ofList text)
  afterOrderMark?_spelled : ∀ text : List Char, text.head? ≠ some '\uFEFF' →
    Symbols.afterOrderMark? (text.flatMap spell) = none

instance : Script Char where
  spell c := [c]
  filled c := List.cons_ne_nil c []
  marked c _ := ⟨c, rfl, rfl⟩
  unmarked c other s member := by
    rw [List.mem_singleton.1 member]
    exact other
  text_spelled text := by
    rw [List.flatMap_singleton']
    rfl
  afterOrderMark?_spelled text other := by
    rw [List.flatMap_singleton']
    cases text with
    | nil => rfl
    | cons c rest => exact if_neg fun same => other (congrArg some same)

/-- There is no mark outside of ASCII. -/
theorem markOf_of_le {code : Nat} (beyond : 128 ≤ code) : markOf code = .other := by
  unfold markOf
  rw [if_neg (by omega), if_neg (by omega), if_neg (by omega), if_neg (by omega)]

/-- A character within ASCII is one byte, which is its code. -/
theorem utf8EncodeChar_eq {c : Char} (ascii : c.toNat < 128)
    : String.utf8EncodeChar c = [UInt8.ofNat c.toNat] := by
  have first : c.val.toNat ≤ 127 := Nat.le_of_lt_succ ascii
  unfold String.utf8EncodeChar
  exact if_pos first

instance : Script UInt8 where
  spell := String.utf8EncodeChar
  filled c none := by
    have size := String.length_utf8EncodeChar c
    rw [none] at size
    exact absurd size.symm (Nat.ne_of_gt c.utf8Size_pos)
  marked c other := by
    have ascii := Nat.lt_of_not_le fun beyond => other (markOf_of_le beyond)
    refine ⟨UInt8.ofNat c.toNat, utf8EncodeChar_eq ascii, ?_⟩
    change markOf (UInt8.ofNat c.toNat).toNat = _
    rw [Text.toNat_ofNat (by omega)]
  unmarked c other s member := by
    change markOf s.toNat = .other
    by_cases ascii : c.toNat < 128
    · rw [utf8EncodeChar_eq ascii, List.mem_singleton] at member
      rw [member, Text.toNat_ofNat (by omega), other]
    · exact markOf_of_le (Text.le_of_mem_utf8EncodeChar (Nat.le_of_not_lt ascii) member)
  text_spelled text := by
    change (Text.decode 0 _).map String.ofList = _
    rw [Text.decode_utf8]
    rfl
  afterOrderMark?_spelled text other := by
    cases text with
    | nil => rfl
    | cons c rest =>
        -- The first three bytes tell that no other character than the order mark comes first.
        have code := Text.firstCode?_append c (rest.flatMap String.utf8EncodeChar)
        rw [List.flatMap_cons]
        generalize String.utf8EncodeChar c ++ rest.flatMap String.utf8EncodeChar = bytes at code ⊢
        change (match bytes with | 0xEF :: 0xBB :: 0xBF :: rest => some rest | _ => none) = none
        split
        next after =>
          have mark : Text.firstCode? (0xEF :: 0xBB :: 0xBF :: after) = some 0xFEFF :=
            Text.firstCode?_three (a := 15) (b := 59) (c := 63) after rfl rfl rfl
              (by decide) (by decide) (by decide)
          rw [mark, Option.some.injEq] at code
          refine absurd (congrArg some ?_) other
          rw [← Char.ofNat_toNat c, ← code]
        next => rfl

-----------------------------------------------------------------------------------------
-- Reading by rows
-----------------------------------------------------------------------------------------

variable {α : Type} [Symbols α]

/-- Two readings that have come to the same fields by different places. -/
structure Partial.Alike (p q : Partial α) : Prop where
  stage : p.stage = q.stage
  fields : p.fields = q.fields
  field : p.field = q.field

/-- What a symbol does to a reading is not a matter of the place. -/
theorem Partial.Alike.step {p q : Partial α} (alike : p.Alike q) (c : α)
    : (p.step c).1.Alike (q.step c).1
      ∧ (p.step c).2.map Record.fields = (q.step c).2.map Record.fields := by
  obtain ⟨began, line, byte, stage, fields, field⟩ := p
  obtain ⟨began', line', byte', stage', fields', field'⟩ := q
  obtain ⟨same, same', same''⟩ := alike
  dsimp only at same same' same''
  subst same same' same''
  cases stage <;>
    simp only [Partial.step, Partial.advance, Partial.outside, Partial.push] <;>
    split_ifs <;>
    exact ⟨⟨rfl, rfl, rfl⟩, rfl⟩

/-- Nor are the rows. By induction along the table. -/
theorem Partial.Alike.records {p q : Partial α} (alike : p.Alike q) (table : List α)
    : (p.records table).map Record.fields = (q.records table).map Record.fields := by
  induction table generalizing p q with
  | nil =>
      have last : p.finish.fields = q.finish.fields := by
        rw [Partial.finish, Partial.finish, alike.fields, alike.field]
      rw [Partial.records, Partial.records, alike.stage]
      split
      · rfl
      · rw [List.map_singleton, List.map_singleton, last]
  | cons c table ih =>
      obtain ⟨next, ended⟩ := alike.step c
      rw [Partial.records, Partial.records]
      revert next ended
      rcases p.step c with ⟨p', _ | record⟩ <;> rcases q.step c with ⟨q', _ | record'⟩ <;>
        intro next ended
      · exact ih next
      · contradiction
      · contradiction
      · rw [List.map_cons, List.map_cons, ih next, Option.some.inj ended]

/-- The rows that are read on from a stage, with the fields and the field so far. -/
def rowsFrom (stage : Stage) (fields : List (List α)) (field : List α) (table : List α)
    : List (List (List α)) :=
  ((⟨.start, 1, 0, stage, fields, field⟩ : Partial α).records table).map Record.fields

theorem rows_records (p : Partial α) (table : List α)
    : (p.records table).map Record.fields = rowsFrom p.stage p.fields p.field table := by
  have alike : p.Alike ⟨.start, 1, 0, p.stage, p.fields, p.field⟩ := ⟨rfl, rfl, rfl⟩
  exact alike.records table

section Rules

variable {stage : Stage} {c quote : α} (fields : List (List α)) (field table : List α)

/-- The stage is one at which a field may start. -/
def Stage.Opens (stage : Stage) : Prop := stage = .before ∨ stage = .fieldStart

/-- The stage is one at which a field may end. -/
def Stage.Closes (stage : Stage) : Prop := stage = .plain ∨ stage = .afterQuote

/-- The rules that follow are what one symbol does. -/
theorem rowsFrom_cons (c : α)
    : rowsFrom stage fields field (c :: table)
      = match (⟨.start, 1, 0, stage, fields, field⟩ : Partial α).step c with
        | (p, some record) => record.fields :: rowsFrom p.stage p.fields p.field table
        | (p, none) => rowsFrom p.stage p.fields p.field table := by
  rw [rowsFrom, Partial.records]
  rcases (⟨.start, 1, 0, stage, fields, field⟩ : Partial α).step c with ⟨p, _ | record⟩
  · exact rows_records p table
  · exact congrArg (record.fields :: ·) (rows_records p table)

theorem rowsFrom_before_lineEnd (ends : Partial.isLineEnd c = true)
    : rowsFrom .before fields field (c :: table) = rowsFrom .before fields field table := by
  simp only [rowsFrom_cons, Partial.step, Partial.advance, ends, if_true]

theorem rowsFrom_quote (opens : stage.Opens) (quote : mark c = .quote)
    : rowsFrom stage fields field (c :: table) = rowsFrom .quoted fields field table := by
  rcases opens with rfl | rfl <;>
    simp [rowsFrom_cons, Partial.step, Partial.advance, Partial.isLineEnd, quote]

theorem rowsFrom_quoted (other : mark c ≠ .quote)
    : rowsFrom .quoted fields field (c :: table)
      = rowsFrom .quoted fields (c :: field) table := by
  simp [rowsFrom_cons, Partial.step, Partial.advance, Partial.push, other]

theorem rowsFrom_quoted_quote (quote : mark c = .quote)
    : rowsFrom .quoted fields field (c :: table) = rowsFrom .afterQuote fields field table := by
  simp [rowsFrom_cons, Partial.step, Partial.advance, quote]

theorem rowsFrom_afterQuote_quote (quote : mark c = .quote)
    : rowsFrom .afterQuote fields field (c :: table)
      = rowsFrom .quoted fields (c :: field) table := by
  simp [rowsFrom_cons, Partial.step, Partial.advance, Partial.push, quote]

theorem rowsFrom_other (outside : stage.Opens ∨ stage = .plain) (other : mark c = .other)
    : rowsFrom stage fields field (c :: table)
      = rowsFrom .plain fields (c :: field) table := by
  rcases outside with (rfl | rfl) | rfl <;>
    simp [rowsFrom_cons, Partial.step, Partial.advance, Partial.outside, Partial.push,
      Partial.isLineEnd, other]

theorem rowsFrom_comma (closes : stage.Closes) (comma : mark c = .comma)
    : rowsFrom stage fields field (c :: table)
      = rowsFrom .fieldStart (field.reverse :: fields) [] table := by
  rcases closes with rfl | rfl <;>
    simp [rowsFrom_cons, Partial.step, Partial.advance, Partial.outside, comma]

/-- At the end of its line a row is complete; lines without a symbol are passed over. -/
theorem rowsFrom_end (closes : stage.Closes)
    (ends : ∀ c ∈ table.head?, Partial.isLineEnd c = true)
    : rowsFrom stage fields field table
      = (field.reverse :: fields).reverse :: rowsFrom .before [] [] table := by
  cases table with
  | nil => rcases closes with rfl | rfl <;> rfl
  | cons c table =>
      have here := ends c rfl
      have apart : mark c ≠ .comma ∧ mark c ≠ .quote := by
        constructor <;> intro same <;> simp [Partial.isLineEnd, same] at here
      rw [rowsFrom_before_lineEnd _ _ _ here]
      rcases closes with rfl | rfl <;>
        simp [rowsFrom_cons, Partial.step, Partial.advance, Partial.outside, Partial.finish,
          Partial.next, Partial.start, here, apart]

/-- A run of symbols belongs to the field if each of them does, whatever comes before and after. -/
theorem rowsFrom_run {run : List α}
    (each : ∀ s ∈ run, ∀ field table : List α,
      rowsFrom stage fields field (s :: table) = rowsFrom stage fields (s :: field) table)
    : rowsFrom stage fields field (run ++ table)
      = rowsFrom stage fields (run.reverse ++ field) table := by
  induction run generalizing field with
  | nil => rfl
  | cons s run ih =>
      obtain ⟨here, later⟩ := List.forall_mem_cons.1 each
      rw [List.cons_append, here, ih (s :: field) later, List.reverse_cons, List.append_assoc]
      rfl

theorem rowsFrom_before_run {run : List α} (ends : ∀ s ∈ run, Partial.isLineEnd s = true)
    : rowsFrom .before fields field (run ++ table) = rowsFrom .before fields field table := by
  induction run with
  | nil => rfl
  | cons s run ih =>
      obtain ⟨here, later⟩ := List.forall_mem_cons.1 ends
      rw [List.cons_append, rowsFrom_before_lineEnd _ _ _ here, ih later]

end Rules

-----------------------------------------------------------------------------------------
-- Cells
-----------------------------------------------------------------------------------------

/-- Wherever a field may start, the symbols are read as the cell. -/
def Spells (symbols cell : List α) : Prop :=
  ∀ stage : Stage, stage.Opens → ∀ fields rest,
    ∃ stage' : Stage, stage'.Closes
      ∧ rowsFrom stage fields [] (symbols ++ rest) = rowsFrom stage' fields cell.reverse rest

/-- A text between quotes; the quotes in it are doubled. -/
def inQuotes (text : List Char) : List Char :=
  '"' :: text.flatMap (fun c => if c = '"' then ['"', '"'] else [c]) ++ ['"']

/-- The ways to write a cell: as it is, or between quotes. -/
inductive Writes : List Char → List Char → Prop where
  | plain {cell : List Char} (some : cell ≠ []) (unmarked : ∀ c ∈ cell, markOf c.toNat = .other)
    : Writes cell cell
  | quoted (cell : List Char) : Writes (inQuotes cell) cell

variable [Script α]

open Script (spell)

theorem exists_spell_quote : ∃ s : α, spell '"' = [s] ∧ mark s = .quote :=
  Script.marked '"' (by decide)

theorem eq_quote_of_markOf {c : Char} (quote : markOf c.toNat = .quote) : c = '"' := by
  unfold markOf at quote
  split_ifs at quote with _ code
  rw [← Char.ofNat_toNat c, code]

theorem mark_ne_quote {c : Char} (other : c ≠ '"') {s : α} (member : s ∈ spell c)
    : mark s ≠ .quote := by
  by_cases plain : markOf c.toNat = .other
  · rw [Script.unmarked c plain s member]
    decide
  · obtain ⟨s', single, same⟩ := Script.marked (α := α) c plain
    rw [single, List.mem_singleton] at member
    rw [member, same]
    exact fun quote => other (eq_quote_of_markOf quote)

/-- Between quotes a text is read up to its end. By induction along the text: a doubled quote is
one, and no other character ends the quotes.
-/
theorem rowsFrom_doubled (text : List Char) (fields : List (List α)) (field rest : List α)
    : rowsFrom .quoted fields field
        ((text.flatMap fun c => if c = '"' then ['"', '"'] else [c]).flatMap spell ++ rest)
      = rowsFrom .quoted fields ((text.flatMap spell).reverse ++ field) rest := by
  induction text generalizing field with
  | nil => rfl
  | cons c text ih =>
      rw [List.flatMap_cons, List.flatMap_append, List.append_assoc, List.flatMap_cons,
        List.reverse_append, List.append_assoc]
      by_cases quote : c = '"'
      · obtain ⟨s, single, mark⟩ := exists_spell_quote (α := α)
        subst quote
        rw [if_pos rfl, List.flatMap_cons, List.flatMap_cons, List.flatMap_nil, single]
        simp only [List.cons_append, List.nil_append]
        rw [rowsFrom_quoted_quote _ _ _ mark, rowsFrom_afterQuote_quote _ _ _ mark, ih]
        rfl
      · rw [if_neg quote, List.flatMap_singleton,
          rowsFrom_run _ _ _ fun s member _ _ => rowsFrom_quoted _ _ _ (mark_ne_quote quote member),
          ih]

/-- However a cell is written, it is read. -/
theorem Writes.spells {symbols cell : List Char} (writes : Writes symbols cell)
    : Spells (symbols.flatMap spell : List α) (cell.flatMap spell) := by
  intro stage opens fields rest
  cases writes with
  | plain some unmarked =>
      have others : ∀ s ∈ (symbols.flatMap spell : List α), mark s = .other := by
        intro s member
        obtain ⟨c, here, spelled⟩ := List.mem_flatMap.1 member
        exact Script.unmarked c (unmarked c here) s spelled
      refine ⟨.plain, .inl rfl, ?_⟩
      cases spelled : (symbols.flatMap spell : List α) with
      | nil =>
          obtain ⟨c, here⟩ := List.exists_mem_of_ne_nil symbols some
          exact absurd (List.flatMap_eq_nil_iff.1 spelled c here) (Script.filled c)
      | cons first run =>
          rw [spelled] at others
          obtain ⟨here, later⟩ := List.forall_mem_cons.1 others
          rw [List.cons_append, rowsFrom_other _ _ _ (.inl opens) here,
            rowsFrom_run _ _ _ fun s member _ _ => rowsFrom_other _ _ _ (.inr rfl) (later s member),
            List.reverse_cons]
  | quoted cell =>
      obtain ⟨s, single, mark⟩ := exists_spell_quote (α := α)
      refine ⟨.afterQuote, .inr rfl, ?_⟩
      rw [inQuotes, List.cons_append, List.flatMap_cons, List.flatMap_append,
        List.flatMap_singleton, single, List.append_assoc, List.append_assoc, List.singleton_append,
        rowsFrom_quote _ _ _ opens mark, rowsFrom_doubled, List.singleton_append,
        rowsFrom_quoted_quote _ _ _ mark, List.append_nil]

-----------------------------------------------------------------------------------------
-- Lines and tables
-----------------------------------------------------------------------------------------

omit [Script α] in
/-- Cells with commas between them are read as a row. By induction along the cells. -/
theorem rowsFrom_line {comma : α} (parts : mark comma = .comma) {line row : List (List α)}
    (spelled : List.Forall₂ Spells line row) (some : line ≠ []) {stage : Stage}
    (opens : stage.Opens) (fields : List (List α)) {rest : List α}
    (ends : ∀ c ∈ rest.head?, Partial.isLineEnd c = true)
    : rowsFrom stage fields [] ([comma].intercalate line ++ rest)
      = (fields.reverse ++ row) :: rowsFrom .before [] [] rest := by
  induction spelled generalizing stage fields with
  | nil => contradiction
  | @cons symbols cell line row here later ih =>
      cases later with
      | nil =>
          obtain ⟨stage', closes, read⟩ := here stage opens fields rest
          rw [List.intercalate_singleton, read, rowsFrom_end _ _ _ closes ends,
            List.reverse_reverse, List.reverse_cons]
      | cons next others =>
          obtain ⟨stage', closes, read⟩ := here stage opens fields
            (comma :: ([comma].intercalate (_ :: _) ++ rest))
          rw [List.intercalate_cons_cons, List.append_assoc, List.append_assoc,
            List.singleton_append, read, rowsFrom_comma _ _ _ closes parts, List.reverse_reverse,
            ih (List.cons_ne_nil _ _) (.inr rfl), List.reverse_cons, List.append_assoc]
          rfl

omit [Script α] in
/-- Lines with breaks between them are read as rows. By induction along the lines. -/
theorem rowsFrom_lines {comma : α} (parts : mark comma = .comma) {lines rows : List (List (List α))}
    (spelled : List.Forall₂ (List.Forall₂ Spells) lines rows) (some : ∀ line ∈ lines, line ≠ [])
    {newline closing : List α} (breaks : newline ≠ [])
    (newlines : ∀ s ∈ newline, Partial.isLineEnd s = true)
    (closings : ∀ s ∈ closing, Partial.isLineEnd s = true)
    : rowsFrom .before [] [] (newline.intercalate (lines.map [comma].intercalate) ++ closing)
      = rows := by
  have stops : rowsFrom .before [] [] closing = [] := by
    rw [← List.append_nil closing, rowsFrom_before_run _ _ _ closings]
    rfl
  induction spelled with
  | nil => exact stops
  | @cons line row lines rows here later ih =>
      obtain ⟨filled, others⟩ := List.forall_mem_cons.1 some
      have first {rest : List α} (ends : ∀ c ∈ rest.head?, Partial.isLineEnd c = true) :=
        rowsFrom_line parts here filled (.inl rfl : Stage.before.Opens) [] ends
      cases later with
      | nil =>
          rw [List.map_singleton, List.intercalate_singleton,
            first fun s head => closings s (List.mem_of_mem_head? head), stops]
          rfl
      | @cons line' row' lines rows next later =>
          have ends : ∀ s ∈ (newline ++ (newline.intercalate ((line' :: lines).map
              [comma].intercalate) ++ closing)).head?, Partial.isLineEnd s = true := by
            obtain ⟨s, run, rfl⟩ := List.exists_cons_of_ne_nil breaks
            rintro s' ⟨⟩
            exact newlines s List.mem_cons_self
          rw [List.map_cons, List.map_cons, List.intercalate_cons_cons, List.append_assoc,
            List.append_assoc, ← List.map_cons, first ends,
            rowsFrom_before_run _ _ _ newlines, ih others]
          rfl

/-- A text of nothing but ends of line. -/
def LineEnds (text : List Char) : Prop := ∀ c ∈ text, c = '\r' ∨ c = '\n'

/-- A table as text: written cells with commas between them, lines with breaks between them, and
perhaps more breaks at the end.
-/
def written (newline closing : List Char) (lines : List (List (List Char))) : List Char :=
  newline.intercalate (lines.map [','].intercalate) ++ closing

theorem isLineEnd_of_lineEnds {text : List Char} (ends : LineEnds text) {s : α}
    (member : s ∈ text.flatMap spell)
    : Partial.isLineEnd s = true := by
  obtain ⟨c, here, spelled⟩ := List.mem_flatMap.1 member
  have marks : markOf c.toNat = .carriageReturn ∨ markOf c.toNat = .lineFeed := by
    rcases ends c here with rfl | rfl
    · exact .inl rfl
    · exact .inr rfl
  have some : markOf c.toNat ≠ .other := by
    rcases marks with same | same <;> rw [same] <;> decide
  obtain ⟨s', single, same⟩ := Script.marked (α := α) c some
  rw [single, List.mem_singleton] at spelled
  rw [Partial.isLineEnd, spelled, same]
  rcases marks with mark | mark <;> rw [mark] <;> rfl

/-- A table is read as the rows that were written, in whatever symbols it is spelled. -/
theorem rows_written {newline closing : List Char} {lines rows : List (List (List Char))}
    (writes : List.Forall₂ (List.Forall₂ Writes) lines rows) (filled : ∀ line ∈ lines, line ≠ [])
    (breaks : newline ≠ []) (newlines : LineEnds newline) (closings : LineEnds closing)
    (plain : (written newline closing lines).head? ≠ some '\uFEFF')
    : (records ((written newline closing lines).flatMap spell : List α)).map Record.fields
      = rows.map (List.map (List.flatMap spell)) := by
  obtain ⟨comma, single, parts⟩ := Script.marked (α := α) ',' (by decide)
  have spelled : List.Forall₂ (List.Forall₂ (Spells (α := α)))
      (lines.map (List.map (List.flatMap spell))) (rows.map (List.map (List.flatMap spell))) := by
    refine List.forall₂_map_left_iff.2 (List.forall₂_map_right_iff.2 (writes.imp ?_))
    intro line row cells
    refine List.forall₂_map_left_iff.2 (List.forall₂_map_right_iff.2 (cells.imp ?_))
    exact fun symbols cell writes => writes.spells
  have spaced : (newline.flatMap spell : List α) ≠ [] := by
    obtain ⟨c, here⟩ := List.exists_mem_of_ne_nil newline breaks
    exact fun none => Script.filled (α := α) c (List.flatMap_eq_nil_iff.1 none c here)
  have table : ((written newline closing lines).flatMap spell : List α)
      = (newline.flatMap spell).intercalate
          ((lines.map (List.map (List.flatMap spell))).map [comma].intercalate)
        ++ closing.flatMap spell := by
    rw [written, List.flatMap_append, Text.flatMap_intercalate, List.map_map, List.map_map]
    congr 2
    refine List.map_congr_left fun line _ => ?_
    rw [Function.comp_apply, Text.flatMap_intercalate, List.flatMap_singleton, single]
    rfl
  have read := rowsFrom_lines parts spelled
    (List.forall_mem_map.2 fun line member => by simpa using filled line member) spaced
    (fun s => isLineEnd_of_lineEnds newlines) (fun s => isLineEnd_of_lineEnds closings)
  rw [records, Script.afterOrderMark?_spelled _ plain, table, rows_records]
  exact read

end Screener.Csv
