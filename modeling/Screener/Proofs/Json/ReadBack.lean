import Screener.Proofs.Json.Members
import Screener.Proofs.Json.Numbers
import Screener.Proofs.Json.Strings

/-!
Values are read back from their texts. A value is within the depth of a reader if its lists and
objects are, and if its numbers have numerals.
-/

namespace Screener.Json

open Value (chars elementChars memberChars textChars Sorted InOrder)

/-- A reader of some depth takes the value: its numbers have numerals, and its lists and
objects are less deep.
-/
inductive Value.Fits : (depth : Nat) → Value → Prop
  | null {depth} : Fits depth .null
  | boolean {depth} (b : Bool) : Fits depth (.boolean b)
  | number {depth} {n : Number} (fits : n.Fits) : Fits depth (.number n)
  | text {depth} (s : String) : Fits depth (.text s)
  | list {depth} {elements : List Value} (all : ∀ v ∈ elements, Fits (depth + 1) v)
    : Fits (depth + 2) (.list elements)
  | object {depth} {members : List (String × Value)}
    (all : ∀ member ∈ members, Fits (depth + 1) member.2)
    : Fits (depth + 2) (.object members)

namespace Value

theorem fits_ofNat (depth : Nat) {n : Nat} (small : n < UInt64.size)
    : Fits depth (.ofNat n) := by
  refine .number ⟨?_, by exact_mod_cast small⟩
  have low : Int64.minValue.toInt ≤ 0 := by decide
  omega

theorem fits_ofWord (depth : Nat) (n : UInt32) : Fits depth (.ofWord n) :=
  fits_ofNat depth (Nat.lt_trans n.toNat_lt (by decide))

theorem fits_ofFloat (depth : Nat) (v : Binary64) : Fits depth (.ofFloat v) := by
  unfold ofFloat
  split
  next finite => exact .number finite
  next => exact .null

theorem fits_limit (depth : Nat) (x : Option Binary64) : Fits depth (.ofOption .ofFloat x) := by
  cases x with
  | none => exact .null
  | some v => exact fits_ofFloat depth v

end Value

open Value (Fits)

-----------------------------------------------------------------------------------------
-- Texts
-----------------------------------------------------------------------------------------

/-- What stands before an element or a member: a comma, except before the first. -/
def separator (first : Bool) : List Char := if first then [] else [',']

/-- Elements as they stand in a list, from the first of it or from a later one. -/
def listed (first : Bool) : List Value → List Char
  | [] => []
  | v :: elements => separator first ++ (chars v ++ listed false elements)

/-- Members as they stand in an object, from the first of it or from a later one. -/
def joined (first : Bool) : List (String × Value) → List Char
  | [] => []
  | (key, v) :: members =>
    separator first ++ (textChars key ++ ':' :: (chars v ++ joined false members))

theorem elementChars_eq (elements : List Value) : elementChars elements = listed true elements := by
  have later : ∀ v elements, elementChars (v :: elements) = chars v ++ listed false elements := by
    intro v elements
    induction elements generalizing v with
    | nil => simp [elementChars, listed]
    | cons next elements ih =>
        rw [elementChars, ih]
        · rfl
        · exact List.cons_ne_nil _ _
  cases elements with
  | nil => rfl
  | cons v elements => exact later v elements

theorem memberChars_eq (members : List (String × Value))
    : memberChars members = joined true members := by
  have later : ∀ key v members, memberChars ((key, v) :: members)
      = textChars key ++ ':' :: (chars v ++ joined false members) := by
    intro key v members
    induction members generalizing key v with
    | nil => simp [memberChars, joined]
    | cons next members ih =>
        rw [memberChars, ih]
        · rfl
        · exact List.cons_ne_nil _ _
  cases members with
  | nil => rfl
  | cons entry members => exact later entry.1 entry.2 members

/-- A character at which a value of some kind starts. -/
def Starts (c : Char) : Prop :=
  c ∈ ['n', 't', 'f', '"', '[', '\x7b', '-'] ∨ Decimal.isDigit c = true

theorem Starts.plain {c : Char} (starts : Starts c)
    : isSpace c = false ∧ c ≠ ']' ∧ c ≠ '\x7d' ∧ c ≠ ',' := by
  have apart : c ∉ [' ', '\n', '\t', '\r', ']', '\x7d', ','] := by
    intro inside
    simp only [List.mem_cons, List.not_mem_nil, or_false] at inside
    rcases inside with rfl | rfl | rfl | rfl | rfl | rfl | rfl
      <;> rcases starts with member | digit <;> contradiction
  simp only [List.mem_cons, List.not_mem_nil, or_false, not_or] at apart
  simp [isSpace, apart]

theorem Starts.of_number {c : Char} (h : c = '-' ∨ Decimal.isDigit c = true) : Starts c := by
  rcases h with rfl | digit
  · exact .inl (by simp)
  · exact .inr digit

theorem Starts.number_only {c : Char} (h : c = '-' ∨ Decimal.isDigit c = true)
    : c ∉ ['n', 't', 'f', '"', '[', '\x7b'] := by
  intro inside
  simp only [List.mem_cons, List.not_mem_nil, or_false] at inside
  rcases inside with rfl | rfl | rfl | rfl | rfl | rfl <;> rcases h with same | digit
    <;> contradiction

/-- The text of a value starts with a character that tells its kind; only null has an `n`. -/
theorem chars_head {depth : Nat} {v : Value} (fits : Fits depth v)
    : ∃ c text, chars v = c :: text ∧ Starts c ∧ (c = 'n' → v = .null) := by
  cases fits with
  | null => exact ⟨_, _, by rw [chars], .inl (by simp), fun _ => rfl⟩
  | boolean b => cases b <;> exact ⟨_, _, by rw [chars], .inl (by simp), by simp⟩
  | number fits =>
      obtain ⟨c, text, front, starts⟩ := numberChars_head fits
      have other := Starts.number_only starts
      refine ⟨c, text, by rw [chars, front], .of_number starts, ?_⟩
      rintro rfl
      exact absurd List.mem_cons_self other
  | text s => exact ⟨_, _, by rw [chars, textChars], .inl (by simp), by simp⟩
  | list all => exact ⟨_, _, by rw [chars], .inl (by simp), by simp⟩
  | object all => exact ⟨_, _, by rw [chars], .inl (by simp), by simp⟩

theorem skipSpace_cons {c : Char} (plain : isSpace c = false) (text : List Char)
    : skipSpace (c :: text) = c :: text := by
  simp [skipSpace, plain]

-----------------------------------------------------------------------------------------
-- Reading
-----------------------------------------------------------------------------------------

/-- The value is read back from its text up to where it stops, with fuel for its length. -/
def ReadsBack (depth : Nat) (v : Value) : Prop :=
  ∀ (fuel : Nat) (rest : List Char), 2 * (chars v).length ≤ fuel → Stops rest →
    valueAt fuel depth (chars v ++ rest) = .ok (v, rest)

theorem stops_nil : Stops [] := by
  simp [Stops]

theorem stops_cons {c : Char} (h : c = ',' ∨ c = ']' ∨ c = '\x7d') (rest : List Char)
    : Stops (c :: rest) := by
  intro d head
  obtain rfl := Option.some.inj head
  rcases h with rfl | rfl | rfl <;> decide

/-- Behind an element, no number goes on. -/
theorem stops_listed (elements : List Value) (rest : List Char)
    : Stops (listed false elements ++ ']' :: rest) := by
  cases elements with
  | nil => exact stops_cons (by simp) rest
  | cons v elements => exact stops_cons (by simp) _

theorem stops_joined (members : List (String × Value)) (rest : List Char)
    : Stops (joined false members ++ '\x7d' :: rest) := by
  cases members with
  | nil => exact stops_cons (by simp) rest
  | cons entry members => exact stops_cons (by simp) _

theorem nextElement_separator (first : Bool) {c : Char} (starts : Starts c) (text : List Char)
    : nextElement first (separator first ++ c :: text) = .ok (some (c :: text)) := by
  obtain ⟨plain, bracket, _, _⟩ := starts.plain
  cases first with
  | true => simp [nextElement, separator, skipSpace_cons plain]
  | false =>
      have comma : skipSpace (',' :: c :: text) = ',' :: c :: text := rfl
      simp [nextElement, separator, comma, skipSpace_cons plain, bracket]

theorem nextKey_separator (first : Bool) (text : List Char)
    : nextKey first (separator first ++ '"' :: text) = .ok (some text) := by
  cases first <;> rfl

theorem afterColon_colon (text : List Char) : afterColon (':' :: text) = .ok text := by
  rfl

/-- Elements are read back up to their bracket, by induction over them. -/
theorem elementsAt_listed {depth : Nat} {elements : List Value} {fuel : Nat}
    (fits : ∀ v ∈ elements, Fits depth v) (each : ∀ v ∈ elements, ReadsBack depth v)
    (first : Bool) (enough : 2 * (listed first elements).length < fuel) (rest : List Char)
    : elementsAt fuel depth first (listed first elements ++ ']' :: rest)
      = .ok (elements, ']' :: rest) := by
  induction elements generalizing first fuel with
  | nil =>
      obtain ⟨fuel, rfl⟩ := Nat.exists_eq_add_one.2 enough
      rfl
  | cons v elements ih =>
      obtain ⟨fuel, rfl⟩ := Nat.exists_eq_add_one.2 (Nat.zero_lt_of_lt enough)
      obtain ⟨c, front, same, starts, _⟩ := chars_head (fits v List.mem_cons_self)
      rw [listed, List.length_append, List.length_append] at enough
      have some : 0 < (chars v).length := by simp [same]
      have read := each v List.mem_cons_self fuel _ (by omega) (stops_listed elements rest)
      have others := ih (fun w inside => fits w (List.mem_cons_of_mem v inside))
        (fun w inside => each w (List.mem_cons_of_mem v inside)) false
        (show 2 * (listed false elements).length < fuel by omega)
      rw [listed, List.append_assoc, List.append_assoc]
      rw [same, List.cons_append] at read ⊢
      rw [elementsAt, nextElement_separator first starts]
      simp only [bind, Except.bind, read, others]

/-- Members are read back behind those that are there, up to their brace. By induction over
them: each is set at the end.
-/
theorem membersAt_joined {depth : Nat} {members done : List (String × Value)} {fuel : Nat}
    (each : ∀ entry ∈ members, ReadsBack depth entry.2) (sorted : Sorted (done ++ members))
    (first : Bool) (enough : 2 * (joined first members).length < fuel) (rest : List Char)
    : membersAt fuel depth first done (joined first members ++ '\x7d' :: rest)
      = .ok (done ++ members, '\x7d' :: rest) := by
  induction members generalizing first fuel done with
  | nil =>
      obtain ⟨fuel, rfl⟩ := Nat.exists_eq_add_one.2 enough
      rw [List.append_nil]
      rfl
  | cons entry members ih =>
      obtain ⟨key, v⟩ := entry
      obtain ⟨fuel, rfl⟩ := Nat.exists_eq_add_one.2 (Nat.zero_lt_of_lt enough)
      rw [joined, List.length_append, List.length_append, List.length_cons,
        List.length_append] at enough
      have room : 2 * (chars v).length ≤ fuel := by omega
      have read := each (key, v) List.mem_cons_self fuel _ room (stops_joined members rest)
      have last : ∀ entry ∈ done, entry.1 < key := fun entry inside =>
        (List.pairwise_append.1 sorted).2.2 entry inside (key, v) List.mem_cons_self
      have whole : done ++ (key, v) :: members = (done ++ [(key, v)]) ++ members := by simp
      rw [whole] at sorted ⊢
      have others := ih (fun w inside => each w (List.mem_cons_of_mem _ inside)) sorted false
        (show 2 * (joined false members).length < fuel by omega)
      obtain ⟨behind, quote, name⟩ := readText_textChars key
        (':' :: (chars v ++ (joined false members ++ '\x7d' :: rest)))
      have shape : joined first ((key, v) :: members) ++ '\x7d' :: rest
          = separator first ++ '"' :: behind := by
        rw [← quote, joined]
        simp
      rw [shape, membersAt, nextKey_separator]
      simp only [bind, Except.bind, name, afterColon_colon, insert_eq_append last, read]
      exact others

theorem valueAt_number {c : Char} (starts : c = '-' ∨ Decimal.isDigit c = true)
    (fuel depth : Nat) (text : List Char)
    : valueAt (fuel + 1) depth (c :: text)
      = (readNumber (c :: text)).map fun entry => (.number entry.1, entry.2) := by
  have plain := (Starts.of_number starts).plain
  have other := Starts.number_only starts
  simp only [List.mem_cons, List.not_mem_nil, or_false, not_or] at other
  rw [valueAt, skipSpace_cons plain.1]
  simp [other, starts]

theorem readsBack_number {n : Number} (fits : n.Fits) (depth : Nat)
    : ReadsBack depth (.number n) := by
  intro fuel rest enough stops
  obtain ⟨c, front, same, starts⟩ := numberChars_head fits
  have read := readNumber_numberChars fits stops
  rw [chars] at enough ⊢
  rw [same, List.cons_append] at read ⊢
  rw [same, List.length_cons] at enough
  obtain ⟨fuel, rfl⟩ := Nat.exists_eq_add_one.2 (Nat.lt_of_lt_of_le (by omega) enough)
  rw [valueAt_number starts, read]
  rfl

theorem readsBack_text (depth : Nat) (s : String) : ReadsBack depth (.text s) := by
  intro fuel rest enough _
  obtain ⟨behind, quote, read⟩ := readText_textChars s rest
  have some : 0 < (chars (.text s)).length := by simp [chars, textChars]
  obtain ⟨fuel, rfl⟩ := Nat.exists_eq_add_one.2 (Nat.lt_of_lt_of_le (by omega) enough)
  rw [chars, quote, valueAt, skipSpace_cons (by decide)]
  simp only [read]
  rfl

theorem readsBack_list {depth : Nat} {elements : List Value}
    (fits : ∀ v ∈ elements, Fits (depth + 1) v)
    (each : ∀ v ∈ elements, ReadsBack (depth + 1) v)
    : ReadsBack (depth + 2) (.list elements) := by
  intro fuel rest enough _
  rw [chars, elementChars_eq, List.length_cons, List.length_append] at enough
  obtain ⟨fuel, rfl⟩ := Nat.exists_eq_add_one.2 (Nat.lt_of_lt_of_le (by omega) enough)
  have inner := elementsAt_listed fits each true
    (show 2 * (listed true elements).length < fuel by omega) rest
  have text : chars (.list elements) ++ rest = '[' :: (listed true elements ++ ']' :: rest) := by
    simp [chars, elementChars_eq]
  have deep : ¬ depth + 2 ≤ 1 := by omega
  have less : depth + 2 - 1 = depth + 1 := rfl
  rw [text, valueAt, skipSpace_cons (by decide)]
  simp only [bind, Except.bind, deep, less, inner, ↓reduceIte]
  rfl

theorem readsBack_object {depth : Nat} {members : List (String × Value)}
    (each : ∀ entry ∈ members, ReadsBack (depth + 1) entry.2) (sorted : Sorted members)
    : ReadsBack (depth + 2) (.object members) := by
  intro fuel rest enough _
  rw [chars, memberChars_eq, List.length_cons, List.length_append] at enough
  obtain ⟨fuel, rfl⟩ := Nat.exists_eq_add_one.2 (Nat.lt_of_lt_of_le (by omega) enough)
  have inner := membersAt_joined each (show Sorted ([] ++ members) from sorted) true
    (show 2 * (joined true members).length < fuel by omega) rest
  have text : chars (.object members) ++ rest
      = '\x7b' :: (joined true members ++ '\x7d' :: rest) := by
    simp [chars, memberChars_eq]
  have deep : ¬ depth + 2 ≤ 1 := by omega
  have less : depth + 2 - 1 = depth + 1 := rfl
  rw [text, valueAt, skipSpace_cons (by decide)]
  simp only [bind, Except.bind, deep, less, inner, ↓reduceIte]
  rfl

/-- A value that fits and is in order is read back. By induction on why it fits, with one case
for each kind of value.
-/
theorem readsBack_of_fits {depth : Nat} {v : Value} (fits : Fits depth v) (ordered : InOrder v)
    : ReadsBack depth v := by
  induction fits with
  | null =>
      intro fuel rest enough _
      obtain ⟨fuel, rfl⟩ := Nat.exists_eq_add_one.2 (Nat.lt_of_lt_of_le (by decide) enough)
      rfl
  | boolean b =>
      intro fuel rest enough _
      cases b
      all_goals
        obtain ⟨fuel, rfl⟩ := Nat.exists_eq_add_one.2 (Nat.lt_of_lt_of_le (by decide) enough)
        rfl
  | number fits => exact readsBack_number fits _
  | text s => exact readsBack_text _ s
  | list fits ih =>
      cases ordered with
      | list ordered => exact readsBack_list fits fun v inside => ih v inside (ordered v inside)
  | object fits ih =>
      cases ordered with
      | object sorted ordered =>
          exact readsBack_object (fun entry inside => ih entry inside (ordered entry inside))
            sorted

/-- A value within the depth of a document, with its members in order, is read back from its
text.
-/
theorem parse_render {v : Value} (fits : Fits 128 v) (ordered : InOrder v)
    : Value.parse v.render = .ok v := by
  have read := readsBack_of_fits fits ordered (2 * (chars v).length + 2) [] (by omega) stops_nil
  rw [List.append_nil] at read
  rw [Value.parse, document, Value.render, String.toList_ofList]
  simp only [read]
  rfl

end Screener.Json
