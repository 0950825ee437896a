import Screener.Csv.Symbols

/-!
Records of comma-separated tables. Commas part the fields of a record and ends of line the
records; lines without a symbol are passed over. A field that starts with a quote runs to the
next quote that is not doubled, and what stands between that quote and the next comma still
belongs to it.
-/

namespace Screener.Csv

open Symbols (mark size)

/-- A place in a table: the number of records before it, its line and its byte. -/
structure Position where
  record : Nat
  line : Nat
  byte : Nat
deriving DecidableEq, Repr

/-- Where every table starts. -/
def Position.start : Position := ⟨0, 1, 0⟩

/-- A record with the place where its reading began, before any lines passed over. -/
structure Record (α : Type) where
  position : Position
  fields : List (List α)
deriving DecidableEq, Repr

/-- Where reading stands in a record. -/
inductive Stage where
  | before
  | fieldStart
  | plain
  | quoted
  | afterQuote
deriving DecidableEq, Repr

/-- A record that is being read: the place where that began, how far it has come, and the
fields and the current field so far, both backwards.
-/
structure Partial (α : Type) where
  began : Position
  line : Nat
  byte : Nat
  stage : Stage
  fields : List (List α)
  field : List α

namespace Partial

variable {α : Type}

/-- Nothing of the record at a place has been read. -/
def start (position : Position) : Partial α :=
  ⟨position, position.line, position.byte, .before, [], []⟩

/-- The record, when its last field has ended. -/
def finish (p : Partial α) : Record α :=
  ⟨p.began, (p.field.reverse :: p.fields).reverse⟩

/-- The next record, which is read from where this one ends. -/
def next (p : Partial α) : Partial α := start ⟨p.began.record + 1, p.line, p.byte⟩

variable [Symbols α]

/-- One symbol further on. -/
def advance (p : Partial α) (c : α) : Partial α :=
  { p with
    line := if mark c = .lineFeed then p.line + 1 else p.line
    byte := p.byte + size c }

/-- The symbol joins the current field. -/
def push (p : Partial α) (stage : Stage) (c : α) : Partial α :=
  { p with stage := stage, field := c :: p.field }

/-- The symbol ends the line. -/
def isLineEnd (c : α) : Bool := mark c == .carriageReturn || mark c == .lineFeed

/-- A symbol that stands outside quotes: a comma ends the field, an end of line ends the
record, and all else joins the field.
-/
def outside (p : Partial α) (c : α) : Partial α × Option (Record α) :=
  if mark c = .comma then
    ({ p with stage := .fieldStart, fields := p.field.reverse :: p.fields, field := [] }, none)
  else if isLineEnd c then (p.next, some p.finish)
  else (p.push .plain c, none)

/-- Reads one symbol, which may end the record. -/
def step (p : Partial α) (c : α) : Partial α × Option (Record α) :=
  let p := p.advance c
  match p.stage with
  | .before =>
    if isLineEnd c then (p, none)
    else if mark c = .quote then ({ p with stage := .quoted }, none)
    else p.outside c
  | .fieldStart =>
    if mark c = .quote then ({ p with stage := .quoted }, none) else p.outside c
  | .plain => p.outside c
  | .quoted =>
    if mark c = .quote then ({ p with stage := .afterQuote }, none)
    else (p.push .quoted c, none)
  | .afterQuote => if mark c = .quote then (p.push .quoted c, none) else p.outside c

/-- The records from here to the end, where an unfinished one ends too. -/
def records (p : Partial α) : List α → List (Record α)
  | [] => if p.stage = .before then [] else [p.finish]
  | c :: rest =>
    match p.step c with
    | (p, some record) => record :: p.records rest
    | (p, none) => p.records rest

end Partial

/-- The records of a table. -/
def records {α : Type} [Symbols α] (table : List α) : List (Record α) :=
  match Symbols.afterOrderMark? table with
  | some rest =>
    { (Partial.start Position.start : Partial α) with byte := 3 }.records rest
  | none => (Partial.start Position.start : Partial α).records table

end Screener.Csv
