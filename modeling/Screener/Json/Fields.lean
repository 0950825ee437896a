import Screener.Json.Reading

/-!
Records as documents hold them. A record is described once by its fields, in order, and read
either from an object, whose members come in any order, or from a list in the declared order.
-/

namespace Screener.Json

-----------------------------------------------------------------------------------------
-- Single values
-----------------------------------------------------------------------------------------

/-- The refusal of the value that stands here, by what it is found to be. -/
def refuse {α : Type} (expected : String) (text : List Char) : Except Problem α :=
  let found (f : Found) : Except Problem α := .error (.invalidType f expected)
  match skipSpace text with
  | [] => malformed .endInValue
  | 'n' :: rest => afterName ['u', 'l', 'l'] rest >>= fun _ => found .null
  | 't' :: rest => afterName ['r', 'u', 'e'] rest >>= fun _ => found (.boolean true)
  | 'f' :: rest => afterName ['a', 'l', 's', 'e'] rest >>= fun _ => found (.boolean false)
  | '"' :: rest => readText rest >>= fun (s, _) => found (.text s)
  | '[' :: _ => found .list
  | '\x7b' :: _ => found .object
  | c :: rest =>
    if c = '-' ∨ Decimal.isDigit c then
      readNumber (c :: rest) >>= fun
        | (.integer n, _) => found (.integer n)
        | (.float v, _) => found (.float v)
    else malformed .expectedValue

/-- A number starts here. -/
def startsNumber : List Char → Bool
  | [] => false
  | c :: _ => c == '-' || Decimal.isDigit c

/-- A float; a whole number is taken for one. -/
def float : Reader Binary64 := fun text =>
  if startsNumber (skipSpace text) then
    (readNumber (skipSpace text)).map fun
      | (.integer n, rest) => (Binary64.ofDecimal (decide (n < 0)) n.natAbs 0, rest)
      | (.float v, rest) => (v, rest)
  else refuse "f64" text

/-- A whole number that 32 bits hold. -/
def word : Reader UInt32 := fun text =>
  if startsNumber (skipSpace text) then
    readNumber (skipSpace text) >>= fun
      | (.integer n, rest) =>
        if 0 ≤ n ∧ n.toNat < UInt32.size then .ok (UInt32.ofNat n.toNat, rest)
        else .error (.invalidValue (.integer n) "u32")
      | (.float v, _) => .error (.invalidType (.float v) "u32")
  else refuse "u32" text

/-- A truth value. -/
def boolean : Reader Bool := fun text =>
  match skipSpace text with
  | 't' :: rest => (afterName ['r', 'u', 'e'] rest).map fun rest => (true, rest)
  | 'f' :: rest => (afterName ['a', 'l', 's', 'e'] rest).map fun rest => (false, rest)
  | _ => refuse "a boolean" text

/-- A string, called `expected` where there is another value. -/
def textAs (expected : String) : Reader String := fun text =>
  match skipSpace text with
  | '"' :: rest => readText rest
  | _ => refuse expected text

/-- A string. -/
def string : Reader String := textAs "a string"

/-- A value, or nothing where there is null. -/
def optional {α : Type} (reader : Reader α) : Reader (Option α) := fun text =>
  match skipSpace text with
  | 'n' :: rest => (afterName ['u', 'l', 'l'] rest).map fun rest => (none, rest)
  | _ => (reader text).map fun (a, rest) => (some a, rest)

/-- A moment. -/
def moment : Reader Timestamp := fun text => do
  let (s, rest) ← textAs "an RFC 3339 formatted date and time string" text
  match Timestamp.parse s with
  | .ok t => .ok (t, rest)
  | .error cause => .error (.badTime cause)

/-- The elements of a list up to its bracket. -/
def elementsOf {α : Type} (reader : Reader α) : (fuel : Nat) → (first : Bool) → Reader (List α)
  | 0, _, _ => malformed .endInList
  | fuel + 1, first, text => do
    match ← nextElement first text with
    | none => .ok ([], text)
    | some text =>
      let (a, rest) ← reader text
      let (others, rest) ← elementsOf reader fuel false rest
      .ok (a :: others, rest)

/-- A list. -/
def list {α : Type} (reader : Reader α) : Reader (List α) := fun text =>
  match skipSpace text with
  | '[' :: rest => do
    let (elements, rest) ← elementsOf reader (rest.length + 1) true rest
    .ok (elements, ← listEnd rest)
  | _ => refuse "a sequence" text

/-- The value with a name, or the refusal of the name. -/
def choose {α : Type} (names : List (String × α)) (name : String) : Except Problem α :=
  match names.find? fun entry => entry.1 == name with
  | some entry => .ok entry.2
  | none => .error (.unknownVariant name (names.map (·.1)))

/-- The key of an object that has to have one, after its brace. -/
def onlyKey : Reader String := fun text =>
  match skipSpace text with
  | [] => malformed .endInObject
  | '"' :: rest => readText rest
  | '\x7d' :: _ => malformed .expectedValue
  | _ => malformed .keyNotText

/-- One of a list of names, as a string or as the only key of an object over null. -/
def named {α : Type} (names : List (String × α)) : Reader α := fun text =>
  match skipSpace text with
  | [] => malformed .endInValue
  | '"' :: rest => do
    let (name, rest) ← readText rest
    .ok (← choose names name, rest)
  | '\x7b' :: rest => do
    let (name, rest) ← onlyKey rest
    let a ← choose names name
    let rest ← afterColon rest
    let rest ←
      match skipSpace rest with
      | 'n' :: rest => afterName ['u', 'l', 'l'] rest
      | _ => refuse "unit" rest
    match skipSpace rest with
    | [] => malformed .endInObject
    | '\x7d' :: rest => .ok (a, rest)
    | _ => malformed .expectedValue
  | _ => malformed .expectedValue

-----------------------------------------------------------------------------------------
-- Records
-----------------------------------------------------------------------------------------

/-- The fields of a record in their declared order, each with its name, its reader and the
value it takes when absent. The index is the tuple of their values.
-/
inductive Fields : Type → Type 1 where
  | done : Fields Unit
  | field {α β : Type} (name : String) (reader : Reader α) (absent : Option α)
      (rest : Fields β) : Fields (α × β)

namespace Fields

/-- What has been read of each field so far. -/
def Slots : {γ : Type} → Fields γ → Type
  | _, .done => Unit
  | _, .field (α := α) _ _ _ rest => Option α × rest.Slots

/-- Nothing has been read. -/
def start : {γ : Type} → (fields : Fields γ) → fields.Slots
  | _, .done => ()
  | _, .field _ _ _ rest => (none, rest.start)

/-- The number of fields. -/
def count : {γ : Type} → Fields γ → Nat
  | _, .done => 0
  | _, .field _ _ _ rest => rest.count + 1

/-- Reads the member under a key from the text after the key. A field may come once; a key
that names no field is passed over.
-/
def readMember : {γ : Type} → (fields : Fields γ) → (slots : fields.Slots) →
    (key : String) → Reader fields.Slots
  | _, .done, slots, _, text => do
    let ((), rest) ← pass (← afterColon text)
    .ok (slots, rest)
  | _, .field name reader _ rest, slots, key, text =>
    if key = name then
      match slots.1 with
      | some _ => .error (.duplicateField name)
      | none => do
        let (a, after) ← reader (← afterColon text)
        .ok ((some a, slots.2), after)
    else (rest.readMember slots.2 key text).map fun (others, after) => ((slots.1, others), after)

/-- The record, when its object has ended: absent fields take their value, and the first
that has none is missing.
-/
def complete : {γ : Type} → (fields : Fields γ) → fields.Slots → Except Problem γ
  | _, .done, _ => .ok ()
  | _, .field name _ absent rest, slots =>
    match slots.1 <|> absent with
    | some a => (rest.complete slots.2).map fun others => (a, others)
    | none => .error (.missingField name)

/-- The members of an object up to its brace. -/
def readMembers {γ : Type} (fields : Fields γ) : (fuel : Nat) → (first : Bool) →
    (slots : fields.Slots) → Reader fields.Slots
  | 0, _, _, _ => malformed .endInObject
  | fuel + 1, first, slots, text => do
    match ← nextKey first text with
    | none => .ok (slots, text)
    | some text =>
      let (key, rest) ← readText text
      let (slots, rest) ← fields.readMember slots key rest
      fields.readMembers fuel false slots rest

/-- The elements of a list in the order of the fields, from the one at `index`. Where the
list ends early, the fields that remain take their values when absent.
-/
def readElements (expected : String) : {γ : Type} → Fields γ → (index : Nat) → Reader γ
  | _, .done, _, text => .ok ((), text)
  | _, .field _ reader absent rest, index, text => do
    match ← nextElement (index == 0) text with
    | some text =>
      let (a, after) ← reader text
      let (others, after) ← rest.readElements expected (index + 1) after
      .ok ((a, others), after)
    | none =>
      match absent with
      | some a =>
        let (others, after) ← rest.readElements expected (index + 1) text
        .ok ((a, others), after)
      | none => .error (.invalidLength index expected)

/-- A record, from an object or a list. -/
def record {γ : Type} (fields : Fields γ) (name : String) : Reader γ := fun text =>
  match skipSpace text with
  | '\x7b' :: rest => do
    let (slots, rest) ← fields.readMembers (rest.length + 1) true fields.start rest
    let value ← fields.complete slots
    .ok (value, ← objectEnd rest)
  | '[' :: rest => do
    let expected := "struct " ++ name ++ " with " ++ Nat.repr fields.count ++
      (if fields.count = 1 then " element" else " elements")
    let (value, rest) ← fields.readElements expected 0 rest
    .ok (value, ← listEnd rest)
  | _ => refuse ("struct " ++ name) text

end Fields

end Screener.Json
