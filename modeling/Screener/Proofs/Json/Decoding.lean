import Screener.Json.Fields
import Screener.Proofs.Json.Passing

/-!
What trees mean to readers. A reader follows a decoder if it takes the texts of the trees that
the decoder accepts, for what it makes of them, and no other text.
-/

namespace Screener.Json

open Decimal (isDigit)

/-- The reader takes the trees that are accepted, as what they are decoded to, and what it takes
is such a tree.
-/
structure Reader.Follows {α : Type} (reader : Reader α) (decode : Tree → Option α) : Prop where
  takes {t : Tree} {a : α} (means : decode t = some a) (lead : Gap) {rest : List Char}
    (stops : Stops rest)
    : reader (lead.chars ++ (t.chars ++ rest)) = .ok (a, rest)
  finds {text rest : List Char} {a : α}
    : reader text = .ok (a, rest) →
      ∃ (lead : Gap) (t : Tree), text = lead.chars ++ (t.chars ++ rest) ∧ decode t = some a

variable {α : Type}

-----------------------------------------------------------------------------------------
-- A reader follows a decoder of trees
-----------------------------------------------------------------------------------------

/-- The number of a text; a float has to be finite. -/
def NumberText.number? (n : NumberText) : Option Number :=
  match n.numeral.number with
  | .float v => if v.isFinite then some (.float v) else none
  | number => some number

/-- A number as a float. -/
def Number.toFloat : Number → Binary64
  | .integer n => Binary64.ofDecimal (decide (n < 0)) n.natAbs 0
  | .float v => v

/-- A number as a whole number that 32 bits hold. -/
def Number.toWord? : Number → Option UInt32
  | .integer n => if 0 ≤ n ∧ n.toNat < UInt32.size then some (UInt32.ofNat n.toNat) else none
  | .float _ => none

namespace Tree

def number? : Tree → Option Number
  | .number n => n.number?
  | _ => none

def float? (t : Tree) : Option Binary64 := t.number?.bind fun n => some n.toFloat

def word? (t : Tree) : Option UInt32 := t.number?.bind Number.toWord?

def string? : Tree → Option String
  | .text s => (Piece.spelled? s).map String.ofList
  | _ => none

/-- What a tree means where null means nothing. -/
def optional? (decode : Tree → Option α) : Tree → Option (Option α)
  | .null => some none
  | t => (decode t).map some

end Tree

/-- The elements of a list in order. -/
def Elements.toList : Elements → List Tree
  | .nil _ => []
  | .cons _ _ t rest => t :: rest.toList

def Tree.list? (decode : Tree → Option α) : Tree → Option (List α)
  | .list elements => elements.toList.mapM decode
  | _ => none

-----------------------------------------------------------------------------------------
-- Readers of single values follow their decoders
-----------------------------------------------------------------------------------------

theorem refuse_ne_ok (expected : String) (text : List Char) (result : α)
    : refuse expected text ≠ .ok result := by
  intro read
  unfold refuse at read
  dsimp only at read
  split at read
  · contradiction
  · obtain ⟨_, _, last⟩ := Outcome.bind_eq_ok.1 read
    contradiction
  · obtain ⟨_, _, last⟩ := Outcome.bind_eq_ok.1 read
    contradiction
  · obtain ⟨_, _, last⟩ := Outcome.bind_eq_ok.1 read
    contradiction
  · obtain ⟨_, _, last⟩ := Outcome.bind_eq_ok.1 read
    contradiction
  · contradiction
  · contradiction
  · split at read
    · obtain ⟨_, _, last⟩ := Outcome.bind_eq_ok.1 read
      split at last <;> contradiction
    · contradiction

theorem readText_quoted {s : List Piece} {cs : List Char}
    (spelled : Piece.spelled? s = some cs) (rest : List Char)
    : readText (Piece.quoted s ++ rest) = .ok (String.ofList cs, rest) := by
  rw [readText, Piece.stringRest_quoted spelled]

theorem readText_eq_ok {text rest : List Char} {name : String}
    (read : readText text = .ok (name, rest))
    : ∃ s cs, text = Piece.quoted s ++ rest ∧ Piece.spelled? s = some cs
        ∧ name = String.ofList cs := by
  unfold readText at read
  split at read
  next cs behind inner =>
    cases read
    obtain ⟨s, split, spelled⟩ := Piece.stringRest_eq_ok inner
    exact ⟨s, cs, split, spelled, rfl⟩
  next => contradiction

theorem readNumber_numberText {n : NumberText} {m : Number} (means : n.number? = some m)
    {rest : List Char} (stops : Stops rest)
    : readNumber (n.chars ++ rest) = .ok (m, rest) := by
  rw [readNumber, numeral_numberText n stops]
  unfold NumberText.number? at means
  cases same : n.numeral.number with
  | integer i =>
      simp only [same] at means ⊢
      cases means
      rfl
  | float v =>
      simp only [same] at means ⊢
      split at means
      next finite =>
        cases means
        exact if_pos finite
      next => contradiction

theorem readNumber_eq_ok {text rest : List Char} {m : Number}
    (read : readNumber text = .ok (m, rest))
    : ∃ n : NumberText, text = n.chars ++ rest ∧ n.number? = some m := by
  unfold readNumber at read
  split at read
  · contradiction
  next n behind number =>
    obtain ⟨written, rfl, rfl⟩ := numeral_eq_ok number
    refine ⟨written, ?_⟩
    unfold NumberText.number?
    cases same : written.numeral.number with
    | integer i =>
        simp only [same] at read ⊢
        cases read
        exact ⟨rfl, rfl⟩
    | float v =>
        simp only [same] at read ⊢
        split at read
        next finite =>
          cases read
          exact ⟨rfl, if_pos finite⟩
        next => contradiction

theorem startsNumber_numberText (n : NumberText) (rest : List Char)
    : startsNumber (n.chars ++ rest) = true := by
  obtain ⟨c, text, front, starts⟩ := n.chars_head
  simpa [front, startsNumber] using starts

/-- A reader of numbers of some kind follows the numbers of that kind. -/
theorem follows_number {reader : Reader α} {convert : Number → Option α}
    (result : Number → Except Problem α) (same : ∀ n a, result n = .ok a ↔ convert n = some a)
    (expected : String)
    (shape : ∀ text, reader text
      = if startsNumber (skipSpace text) then
          readNumber (skipSpace text) >>= fun read => (result read.1).map fun a => (a, read.2)
        else refuse expected text)
    : reader.Follows fun t => t.number?.bind convert where
  takes := by
    intro t a means lead rest stops
    obtain ⟨m, number, converts⟩ := Option.bind_eq_some_iff.1 means
    cases t with
    | number n =>
        have skipped := skipSpace_tree lead (.number n) rest
        have read := readNumber_numberText number stops
        rw [shape, skipped, Tree.chars, if_pos (startsNumber_numberText n rest), read]
        simp only [bind, Except.bind, (same m a).2 converts, Except.map]
    | null | boolean _ | text _ | list _ | object _ => contradiction
  finds := by
    intro text rest a read
    rw [shape] at read
    split at read
    next =>
      obtain ⟨⟨m, behind⟩, number, last⟩ := Outcome.bind_eq_ok.1 read
      obtain ⟨b, converts, ends⟩ := Outcome.map_eq_ok.1 last
      cases ends
      obtain ⟨n, split, means⟩ := readNumber_eq_ok number
      obtain ⟨lead, rfl⟩ := exists_gap_of_skipSpace split
      exact ⟨lead, .number n, rfl,
        Option.bind_eq_some_iff.2 ⟨m, means, (same m a).1 converts⟩⟩
    next => exact absurd read (refuse_ne_ok _ _ _)

theorem follows_float : float.Follows Tree.float? := by
  refine follows_number (fun n => .ok n.toFloat) (by simp) "f64" ?_
  intro text
  unfold float
  split
  · cases readNumber (skipSpace text) with
    | error problem => rfl
    | ok result =>
        obtain ⟨n | v, rest⟩ := result
        · rfl
        · rfl
  · rfl

theorem follows_word : word.Follows Tree.word? := by
  let result : Number → Except Problem UInt32
    | .integer n =>
      if 0 ≤ n ∧ n.toNat < UInt32.size then .ok (UInt32.ofNat n.toNat)
      else .error (.invalidValue (.integer n) "u32")
    | .float v => .error (.invalidType (.float v) "u32")
  refine follows_number result ?_ "u32" ?_
  · intro n a
    cases n with
    | integer n =>
        simp only [result, Number.toWord?]
        split <;> simp
    | float v => simp [result, Number.toWord?]
  · intro text
    unfold word
    split
    · cases readNumber (skipSpace text) with
      | error problem => rfl
      | ok result =>
          obtain ⟨n | v, rest⟩ := result
          · simp only [result, bind, Except.bind]
            split <;> rfl
          · rfl
    · rfl

theorem follows_textAs (expected : String) : (textAs expected).Follows Tree.string? where
  takes := by
    intro t a means lead rest stops
    cases t with
    | text s =>
        obtain ⟨cs, spelled, rfl⟩ := Option.map_eq_some_iff.1 means
        rw [textAs, skipSpace_tree]
        exact readText_quoted spelled rest
    | null | boolean _ | number _ | list _ | object _ => contradiction
  finds := by
    intro text rest a read
    unfold textAs at read
    split at read
    next behind quote =>
      obtain ⟨s, cs, rfl, spelled, rfl⟩ := readText_eq_ok read
      obtain ⟨lead, rfl⟩ := exists_gap_of_skipSpace quote
      exact ⟨lead, .text s, rfl, Option.map_eq_some_iff.2 ⟨cs, spelled, rfl⟩⟩
    next => exact absurd read (refuse_ne_ok _ _ _)

theorem follows_string : string.Follows Tree.string? := follows_textAs _

/-- What is passed over is a tree, whichever. -/
theorem follows_pass : pass.Follows fun _ => some () where
  takes := by
    intro t a _ lead rest stops
    have passes := (passes (2 * (lead.chars ++ (t.chars ++ rest)).length + 2)).value
      (t := t) (by simp only [List.length_append]; omega) lead stops
    rw [pass, passes]
    rfl
  finds := by
    intro text rest a read
    obtain ⟨behind, passes, same⟩ := Outcome.map_eq_ok.1 read
    cases same
    obtain ⟨lead, t, split⟩ := (passed _).value passes
    exact ⟨lead, t, split, rfl⟩

theorem Tree.optional?_of_ne {decode : Tree → Option α} {t : Tree} (other : t ≠ .null)
    : t.optional? decode = (decode t).map some := by
  cases t with
  | null => contradiction
  | boolean _ | number _ | text _ | list _ | object _ => rfl

theorem follows_optional {reader : Reader α} {decode : Tree → Option α}
    (follows : reader.Follows decode)
    : (optional reader).Follows (Tree.optional? decode) where
  takes := by
    intro t a means lead rest stops
    by_cases null : t = .null
    · subst null
      cases means
      rw [optional, skipSpace_tree]
      rfl
    · rw [Tree.optional?_of_ne null] at means
      obtain ⟨b, inner, rfl⟩ := Option.map_eq_some_iff.1 means
      have read := follows.takes inner lead stops
      obtain ⟨c, text, front, _, only⟩ := t.chars_head
      have other : c ≠ 'n' := fun same => null (only same)
      rw [optional, skipSpace_tree, front, List.cons_append]
      rw [front, List.cons_append] at read
      simp [other, read, Except.map]
  finds := by
    intro text rest a read
    unfold optional at read
    split at read
    next behind start =>
      obtain ⟨after, name, same⟩ := Outcome.map_eq_ok.1 read
      cases same
      obtain rfl := afterName_eq_ok.1 name
      obtain ⟨lead, rfl⟩ := exists_gap_of_skipSpace start
      exact ⟨lead, .null, rfl, rfl⟩
    next other =>
      obtain ⟨⟨b, behind⟩, inner, same⟩ := Outcome.map_eq_ok.1 read
      cases same
      obtain ⟨lead, t, rfl, means⟩ := follows.finds inner
      refine ⟨lead, t, rfl, ?_⟩
      rw [Tree.optional?_of_ne, means]
      · rfl
      · rintro rfl
        exact other _ (skipSpace_tree lead .null rest)

/-- A reader that converts what another one has taken. -/
theorem Reader.Follows.andThen {β : Type} {reader : Reader α} {decode : Tree → Option α}
    (follows : reader.Follows decode) {next : Reader β} {convert : α → Option β}
    (result : α → Except Problem β) (same : ∀ a b, result a = .ok b ↔ convert a = some b)
    (shape : ∀ text,
      next text = reader text >>= fun read => (result read.1).map fun b => (b, read.2))
    : next.Follows fun t => (decode t).bind convert where
  takes := by
    intro t b means lead rest stops
    obtain ⟨a, inner, converts⟩ := Option.bind_eq_some_iff.1 means
    have read := follows.takes inner lead stops
    rw [shape, read]
    simp only [bind, Except.bind, (same a b).2 converts, Except.map]
  finds := by
    intro text rest b read
    rw [shape] at read
    obtain ⟨⟨a, behind⟩, inner, last⟩ := Outcome.bind_eq_ok.1 read
    obtain ⟨c, converts, ends⟩ := Outcome.map_eq_ok.1 last
    cases ends
    obtain ⟨lead, t, split, means⟩ := follows.finds inner
    exact ⟨lead, t, split, Option.bind_eq_some_iff.2 ⟨a, means, (same a b).1 converts⟩⟩

/-- A reader that makes something else of what another one has taken. -/
theorem Reader.Follows.map {β : Type} {reader : Reader α} {decode : Tree → Option α}
    (follows : reader.Follows decode) {next : Reader β} (f : α → β)
    (shape : ∀ text, next text = (reader text).map fun read => (f read.1, read.2))
    : next.Follows fun t => (decode t).map f where
  takes := by
    intro t b means lead rest stops
    obtain ⟨a, inner, rfl⟩ := Option.map_eq_some_iff.1 means
    rw [shape, follows.takes inner lead stops]
    rfl
  finds := by
    intro text rest b read
    rw [shape] at read
    obtain ⟨⟨a, behind⟩, inner, same⟩ := Outcome.map_eq_ok.1 read
    cases same
    obtain ⟨lead, t, split, means⟩ := follows.finds inner
    exact ⟨lead, t, split, Option.map_eq_some_iff.2 ⟨a, means, rfl⟩⟩

/-- The moment that a tree names. -/
def Tree.moment? (t : Tree) : Option Timestamp :=
  t.string?.bind fun s => (Timestamp.parse s).toOption

theorem toOption_eq_some {ε : Type} {result : Except ε α} {a : α}
    : result.toOption = some a ↔ result = .ok a := by
  cases result <;> simp [Except.toOption]

theorem follows_moment : moment.Follows Tree.moment? := by
  refine (follows_textAs "an RFC 3339 formatted date and time string").andThen
    (fun s => (Timestamp.parse s).mapError .badTime) ?_ ?_
  · intro s t
    rw [toOption_eq_some, Outcome.mapError_eq_ok]
  · intro text
    unfold moment
    refine bind_congr fun ⟨s, rest⟩ => ?_
    dsimp only
    cases Timestamp.parse s <;> rfl

/-- The name that a tree gives: a string, or the only key of an object over null. -/
def Tree.name? : Tree → Option String
  | .text s => (Piece.spelled? s).map String.ofList
  | .object (.cons _ _ key .null (.nil _)) => (Piece.spelled? key.name).map String.ofList
  | _ => none

/-- What is named by a tree. -/
def Tree.named? (names : List (String × α)) (t : Tree) : Option α :=
  t.name?.bind fun name => (choose names name).toOption

theorem onlyKey_cons (before after : Gap) {key : Key} {cs : List Char}
    (spelled : Piece.spelled? key.name = some cs) (t : Tree) (others : Members)
    (rest : List Char)
    : onlyKey ((Members.cons before after key t others).chars true ++ rest)
      = .ok (String.ofList cs, key.behind.chars ++
          ':' :: (key.lead.chars ++ (t.chars ++ (others.chars false ++ rest)))) := by
  rw [onlyKey, skipSpace_firstMember, Key.chars_append]
  exact readText_quoted spelled _

theorem onlyKey_eq_ok {text rest : List Char} {name : String}
    (read : onlyKey text = .ok (name, rest))
    : ∃ (lead : Gap) (s : List Piece) (cs : List Char),
        text = lead.chars ++ '"' :: (Piece.quoted s ++ rest) ∧ Piece.spelled? s = some cs
        ∧ name = String.ofList cs := by
  unfold onlyKey at read
  split at read
  · contradiction
  next quote =>
    obtain ⟨s, cs, rfl, spelled, same⟩ := readText_eq_ok read
    obtain ⟨lead, rfl⟩ := exists_gap_of_skipSpace quote
    exact ⟨lead, s, cs, rfl, spelled, same⟩
  · contradiction
  · contradiction

theorem named_tree {names : List (String × α)} {t : Tree} {a : α}
    (means : t.named? names = some a) (lead : Gap) (rest : List Char)
    : named names (lead.chars ++ (t.chars ++ rest)) = .ok (a, rest) := by
  obtain ⟨name, given, chosen⟩ := Option.bind_eq_some_iff.1 means
  have chosen := toOption_eq_some.1 chosen
  unfold Tree.name? at given
  split at given
  next s =>
    obtain ⟨cs, spelled, rfl⟩ := Option.map_eq_some_iff.1 given
    rw [named, skipSpace_tree, Tree.chars, List.cons_append]
    simp only [bind, Except.bind, readText_quoted spelled, chosen]
  next before after key gap =>
    obtain ⟨cs, spelled, rfl⟩ := Option.map_eq_some_iff.1 given
    have keyed := onlyKey_cons before after spelled .null (.nil gap) rest
    have null := skipSpace_tree key.lead .null ((Members.nil gap).chars false ++ rest)
    have name := afterName_eq_ok.2
      (rfl : _ = ['u', 'l', 'l'] ++ ((Members.nil gap).chars false ++ rest))
    rw [named, skipSpace_tree, Tree.chars, List.cons_append]
    simp only [bind, Except.bind, keyed, chosen, afterColon_gap, null]
    simp only [Tree.chars, List.cons_append] at name ⊢
    simp only [name, skipSpace_lastMember]
  next => contradiction

theorem named_eq_ok {names : List (String × α)} {text rest : List Char} {a : α}
    (read : named names text = .ok (a, rest))
    : ∃ (lead : Gap) (t : Tree), text = lead.chars ++ (t.chars ++ rest)
        ∧ t.named? names = some a := by
  unfold named at read
  split at read
  · contradiction
  next behind quote =>
    obtain ⟨⟨name, text₁⟩, given, read⟩ := Outcome.bind_eq_ok.1 read
    obtain ⟨b, chosen, same⟩ := Outcome.bind_eq_ok.1 read
    cases same
    obtain ⟨s, cs, rfl, spelled, rfl⟩ := readText_eq_ok given
    obtain ⟨lead, rfl⟩ := exists_gap_of_skipSpace quote
    refine ⟨lead, .text s, rfl, ?_⟩
    rw [Tree.named?, Tree.name?, spelled]
    exact toOption_eq_some.2 chosen
  next behind brace =>
    obtain ⟨⟨name, text₁⟩, given, read⟩ := Outcome.bind_eq_ok.1 read
    obtain ⟨b, chosen, read⟩ := Outcome.bind_eq_ok.1 read
    obtain ⟨text₂, colon, read⟩ := Outcome.bind_eq_ok.1 read
    dsimp only at read
    split at read
    next letters start =>
      obtain ⟨text₃, null, last⟩ := Outcome.bind_eq_ok.1 read
      split at last
      · contradiction
      next close =>
        cases last
        obtain ⟨lead, rfl⟩ := exists_gap_of_skipSpace brace
        obtain ⟨before, s, cs, rfl, spelled, rfl⟩ := onlyKey_eq_ok given
        obtain ⟨front, rfl⟩ := afterColon_eq_ok colon
        obtain ⟨gap, rfl⟩ := exists_gap_of_skipSpace start
        obtain rfl := afterName_eq_ok.1 null
        obtain ⟨last, rfl⟩ := exists_gap_of_skipSpace close
        refine ⟨lead, .object (.cons before .none ⟨s, front, gap⟩ .null (.nil last)), ?_, ?_⟩
        · simp [Tree.chars, Members.chars, separator, Gap.none, Key.chars]
        · rw [Tree.named?, Tree.name?, spelled]
          exact toOption_eq_some.2 chosen
      · contradiction
    next =>
      obtain ⟨_, refused, _⟩ := Outcome.bind_eq_ok.1 read
      exact absurd refused (refuse_ne_ok _ _ _)
  · contradiction

theorem follows_named (names : List (String × α)) : (named names).Follows (Tree.named? names) where
  takes means lead _ _ := named_tree means lead _
  finds := named_eq_ok

-----------------------------------------------------------------------------------------
-- Lists are read element by element
-----------------------------------------------------------------------------------------

theorem nextElement_nil (first : Bool) (gap : Gap) (rest : List Char)
    : nextElement first ((Elements.nil gap).chars first ++ rest) = .ok none := by
  rw [nextElement, skipSpace_lastElement]
  rfl

theorem nextElement_cons (first : Bool) (before after : Gap) (t : Tree) (others : Elements)
    (rest : List Char)
    : nextElement first ((Elements.cons before after t others).chars first ++ rest)
      = .ok (some (t.chars ++ (others.chars false ++ rest))) := by
  have inner := skipSpace_tree after t (others.chars false ++ rest)
  obtain ⟨c, text, front, starts, _⟩ := t.chars_head
  have bracket := starts.plain.2.1
  cases first with
  | true =>
      rw [nextElement, skipSpace_firstElement, front, List.cons_append]
      simp
  | false =>
      rw [nextElement, skipSpace_nextElement]
      rw [front, List.cons_append] at inner ⊢
      simp [inner, bracket]

theorem nextElement_eq_some {first : Bool} {text next : List Char}
    (read : nextElement first text = .ok (some next))
    : ∃ before after : Gap,
        text = before.chars ++ (separator first ++ (after.chars ++ next)) := by
  obtain ⟨before, split⟩ := exists_gap text
  unfold nextElement at read
  split at read
  · contradiction
  · cases read
  next c behind _ left =>
    split at read
    next start =>
      cases read
      subst start
      exact ⟨before, .none, by rw [split, left]; rfl⟩
    next later =>
      split at read
      next comma =>
        subst comma
        obtain ⟨after, inside⟩ := exists_gap behind
        split at read
        · contradiction
        · contradiction
        next =>
          cases read
          refine ⟨before, after, ?_⟩
          rw [split, left, separator, if_neg later, ← inside]
          rfl
      next => contradiction

theorem nextElement_eq_none {first : Bool} {text : List Char}
    (read : nextElement first text = .ok none)
    : ∃ rest, skipSpace text = ']' :: rest := by
  unfold nextElement at read
  split at read
  · contradiction
  next rest close => exact ⟨rest, close⟩
  · split at read
    · cases read
    · split at read
      · split at read <;> cases read
      · contradiction

theorem listEnd_nil (first : Bool) (gap : Gap) (rest : List Char)
    : listEnd ((Elements.nil gap).chars first ++ rest) = .ok rest := by
  rw [listEnd, skipSpace_lastElement]
  rfl

theorem listEnd_eq_ok {text rest : List Char} (read : listEnd text = .ok rest)
    : ∃ gap, ∀ first, text = (Elements.nil gap).chars first ++ rest := by
  unfold listEnd at read
  split at read
  · contradiction
  next close =>
    cases read
    obtain ⟨gap, rfl⟩ := exists_gap_of_skipSpace close
    exact ⟨gap, fun first => by simp [Elements.chars]⟩
  · split at read <;> contradiction
  · contradiction

/-- The elements of a list are read up to its bracket, by induction over them. -/
theorem elementsOf_chars {reader : Reader α} {decode : Tree → Option α}
    (follows : reader.Follows decode) (rest : List Char)
    : (elements : Elements) → (first : Bool) → {fuel : Nat} → {as : List α} →
      (elements.chars first).length < fuel → elements.toList.mapM decode = some as →
      ∃ behind, elementsOf reader fuel first (elements.chars first ++ rest) = .ok (as, behind)
        ∧ listEnd behind = .ok rest
  | .nil gap, first, fuel, as, enough, means => by
      obtain ⟨fuel, rfl⟩ := Nat.exists_eq_add_one.2 (Nat.zero_lt_of_lt enough)
      cases means
      refine ⟨_, ?_, listEnd_nil first gap rest⟩
      rw [elementsOf, nextElement_nil]
      rfl
  | .cons before after t others, first, fuel, as, enough, means => by
      obtain ⟨fuel, rfl⟩ := Nat.exists_eq_add_one.2 (Nat.zero_lt_of_lt enough)
      rw [Elements.toList, List.mapM_cons] at means
      obtain ⟨a, one, means⟩ := Option.bind_eq_some_iff.1 means
      obtain ⟨others', later, same⟩ := Option.bind_eq_some_iff.1 means
      cases same
      have some := t.length_pos
      simp only [Elements.chars, List.length_append] at enough
      obtain ⟨behind, read, ends⟩ := elementsOf_chars follows rest others false
        (show (others.chars false).length < fuel by omega) later
      have head := follows.takes one Gap.none (stops_elements others rest)
      refine ⟨behind, ?_, ends⟩
      rw [elementsOf, nextElement_cons]
      simp only [Gap.none, List.nil_append] at head
      simp only [bind, Except.bind, head, read]

/-- Elements that are read are those of a list, by induction on fuel. -/
theorem elementsOf_eq_ok {reader : Reader α} {decode : Tree → Option α}
    (follows : reader.Follows decode) {fuel : Nat} {first : Bool} {text behind rest : List Char}
    {as : List α} (read : elementsOf reader fuel first text = .ok (as, behind))
    (ends : listEnd behind = .ok rest)
    : ∃ elements : Elements, text = elements.chars first ++ rest
        ∧ elements.toList.mapM decode = some as := by
  induction fuel generalizing first text as with
  | zero => contradiction
  | succ fuel ih =>
      rw [elementsOf] at read
      obtain ⟨next, start, read⟩ := Outcome.bind_eq_ok.1 read
      cases next with
      | none =>
          cases read
          obtain ⟨gap, split⟩ := listEnd_eq_ok ends
          exact ⟨.nil gap, split first, rfl⟩
      | some next =>
          obtain ⟨⟨a, text₁⟩, one, read⟩ := Outcome.bind_eq_ok.1 read
          obtain ⟨⟨others, text₂⟩, later, same⟩ := Outcome.bind_eq_ok.1 read
          cases same
          obtain ⟨before, after, rfl⟩ := nextElement_eq_some start
          obtain ⟨lead, t, rfl, means⟩ := follows.finds one
          obtain ⟨elements, rfl, all⟩ := ih later
          refine ⟨.cons before (after.append lead) t elements, ?_, ?_⟩
          · simp [Elements.chars, Gap.append]
          · rw [Elements.toList, List.mapM_cons, means, all]
            rfl

theorem follows_list {reader : Reader α} {decode : Tree → Option α}
    (follows : reader.Follows decode)
    : (list reader).Follows (Tree.list? decode) where
  takes := by
    intro t as means lead rest stops
    cases t with
    | list elements =>
        obtain ⟨behind, read, ends⟩ := elementsOf_chars follows rest elements true
          (show (elements.chars true).length < (elements.chars true ++ rest).length + 1 by
            rw [List.length_append]; omega) means
        rw [list, skipSpace_tree, Tree.chars, List.cons_append]
        simp only [bind, Except.bind, read, ends]
    | null | boolean _ | number _ | text _ | object _ => contradiction
  finds := by
    intro text rest as read
    unfold list at read
    split at read
    next inside start =>
      obtain ⟨⟨as', behind⟩, listed, read⟩ := Outcome.bind_eq_ok.1 read
      obtain ⟨after, ends, same⟩ := Outcome.bind_eq_ok.1 read
      cases same
      obtain ⟨elements, rfl, means⟩ := elementsOf_eq_ok follows listed ends
      obtain ⟨lead, rfl⟩ := exists_gap_of_skipSpace start
      exact ⟨lead, .list elements, rfl, means⟩
    next => exact absurd read (refuse_ne_ok _ _ _)

-----------------------------------------------------------------------------------------
-- A text is read just if it is that of a tree
-----------------------------------------------------------------------------------------

/-- A whole text: a document with gaps around it. -/
structure Written where
  lead : Gap
  tree : Tree
  trail : Gap

def Written.text (w : Written) : String :=
  String.ofList (w.lead.chars ++ (w.tree.chars ++ w.trail.chars))

theorem stops_gap (gap : Gap) : Stops gap.chars := by
  have stops := gap.stops stops_nil
  rwa [List.append_nil] at stops

/-- The texts that stand for something are those of trees that are decoded to it. -/
theorem Reader.Follows.document_eq_ok {reader : Reader α} {decode : Tree → Option α}
    (follows : reader.Follows decode) {text : String} {a : α}
    : document reader text = .ok a ↔ ∃ w : Written, w.text = text ∧ decode w.tree = some a := by
  constructor
  · intro read
    obtain ⟨⟨b, rest⟩, inner, last⟩ := Outcome.bind_eq_ok.1 read
    rw [finish] at last
    split at last
    next blank =>
      cases last
      obtain ⟨lead, t, split, means⟩ := follows.finds inner
      obtain ⟨trail, ends⟩ := exists_gap rest
      rw [List.isEmpty_iff.1 blank, List.append_nil] at ends
      refine ⟨⟨lead, t, trail⟩, ?_, means⟩
      rw [Written.text, ← ends, ← split, String.ofList_toList]
    next => contradiction
  · rintro ⟨⟨lead, t, trail⟩, rfl, means⟩
    have read := follows.takes means lead (stops_gap trail)
    have blank : skipSpace trail.chars = [] := by
      have skipped := skipSpace_gap trail []
      rwa [List.append_nil] at skipped
    rw [document, Written.text, String.toList_ofList, read]
    simp [bind, Except.bind, finish, blank]

end Screener.Json
