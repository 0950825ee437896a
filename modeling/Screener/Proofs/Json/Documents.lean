import Screener.Proofs.Json.ReadBack
import Screener.Proofs.Outcome

/-!
What texts stand for: a value that is read is within the depth of a document, so it is read back
from its own text.
-/

namespace Screener.Json

open Value (Fits canonical canonicalElements canonicalMembers)

theorem fits_number (n : Numeral) (finite : ∀ v, n.number = .float v → v.isFinite = true)
    : n.number.Fits := by
  cases same : n.number with
  | float v => exact finite v same
  | integer i =>
      unfold Numeral.number at same
      dsimp only at same
      split at same
      · split at same
        · split at same
          next negative low =>
            obtain rfl := Number.integer.inj same
            exact ⟨low.2, by omega⟩
          next => contradiction
        · split at same
          next high =>
            obtain rfl := Number.integer.inj same
            exact ⟨Int.le_trans (by decide) (Int.natCast_nonneg _), Int.ofNat_lt.2 high⟩
          next => contradiction
      · contradiction

/-- A number that is read has a numeral. -/
theorem fits_of_readNumber {text rest : List Char} {n : Number}
    (read : readNumber text = .ok (n, rest))
    : n.Fits := by
  unfold readNumber at read
  split at read
  · contradiction
  next numeral _ _ =>
    split at read
    next v same =>
      split at read
      next finite =>
        obtain ⟨rfl, _⟩ := Prod.mk.inj (Except.ok.inj read)
        exact finite
      next => contradiction
    next n' other =>
      obtain ⟨rfl, _⟩ := Prod.mk.inj (Except.ok.inj read)
      exact fits_number numeral fun v same => absurd same (other v)

/-- What the readers take with some fuel fits their depth. -/
structure Taken (fuel : Nat) : Prop where
  value {depth : Nat} {text rest : List Char} {v : Value}
    : valueAt fuel depth text = .ok (v, rest) → Fits depth v
  elements {depth : Nat} {first : Bool} {text rest : List Char} {elements : List Value}
    : elementsAt fuel depth first text = .ok (elements, rest) → ∀ v ∈ elements, Fits depth v
  members {depth : Nat} {first : Bool} {text rest : List Char}
    {done members : List (String × Value)}
    : membersAt fuel depth first done text = .ok (members, rest) →
        (∀ entry ∈ done, Fits depth entry.2) → ∀ entry ∈ members, Fits depth entry.2

theorem Taken.value_succ {fuel depth : Nat} (h : Taken fuel) {text rest : List Char} {v : Value}
    (read : valueAt (fuel + 1) depth text = .ok (v, rest))
    : Fits depth v := by
  rw [valueAt] at read
  split at read
  · contradiction
  · obtain ⟨_, _, same⟩ := Outcome.map_eq_ok.1 read
    obtain ⟨rfl, _⟩ := Prod.mk.inj same
    exact .null
  · obtain ⟨_, _, same⟩ := Outcome.map_eq_ok.1 read
    obtain ⟨rfl, _⟩ := Prod.mk.inj same
    exact .boolean true
  · obtain ⟨_, _, same⟩ := Outcome.map_eq_ok.1 read
    obtain ⟨rfl, _⟩ := Prod.mk.inj same
    exact .boolean false
  · obtain ⟨_, _, same⟩ := Outcome.map_eq_ok.1 read
    obtain ⟨rfl, _⟩ := Prod.mk.inj same
    exact .text _
  · split at read
    · contradiction
    next room =>
      obtain ⟨⟨parts, _⟩, inner, read⟩ := Outcome.bind_eq_ok.1 read
      obtain ⟨_, _, same⟩ := Outcome.bind_eq_ok.1 read
      obtain ⟨rfl, _⟩ := Prod.mk.inj (Except.ok.inj same)
      obtain ⟨depth, rfl⟩ := Nat.exists_eq_add_of_le' (Nat.lt_of_not_le room)
      exact .list (h.elements inner)
  · split at read
    · contradiction
    next room =>
      obtain ⟨⟨parts, _⟩, inner, read⟩ := Outcome.bind_eq_ok.1 read
      obtain ⟨_, _, same⟩ := Outcome.bind_eq_ok.1 read
      obtain ⟨rfl, _⟩ := Prod.mk.inj (Except.ok.inj same)
      obtain ⟨depth, rfl⟩ := Nat.exists_eq_add_of_le' (Nat.lt_of_not_le room)
      exact .object (h.members inner (List.forall_mem_nil _))
  · split at read
    · obtain ⟨⟨n, _⟩, taken, same⟩ := Outcome.map_eq_ok.1 read
      obtain ⟨rfl, _⟩ := Prod.mk.inj same
      exact .number (fits_of_readNumber taken)
    · contradiction

theorem Taken.elements_succ {fuel depth : Nat} (h : Taken fuel) {first : Bool}
    {text rest : List Char} {parts : List Value}
    (read : elementsAt (fuel + 1) depth first text = .ok (parts, rest))
    : ∀ v ∈ parts, Fits depth v := by
  rw [elementsAt] at read
  obtain ⟨next, _, read⟩ := Outcome.bind_eq_ok.1 read
  cases next with
  | none =>
      obtain ⟨rfl, _⟩ := Prod.mk.inj (Except.ok.inj read)
      exact List.forall_mem_nil _
  | some text =>
      obtain ⟨⟨v, _⟩, taken, read⟩ := Outcome.bind_eq_ok.1 read
      obtain ⟨⟨others, _⟩, later, same⟩ := Outcome.bind_eq_ok.1 read
      obtain ⟨rfl, _⟩ := Prod.mk.inj (Except.ok.inj same)
      exact List.forall_mem_cons.2 ⟨h.value taken, h.elements later⟩

theorem Taken.members_succ {fuel depth : Nat} (h : Taken fuel) {first : Bool}
    {text rest : List Char} {done parts : List (String × Value)}
    (read : membersAt (fuel + 1) depth first done text = .ok (parts, rest))
    (fits : ∀ entry ∈ done, Fits depth entry.2)
    : ∀ entry ∈ parts, Fits depth entry.2 := by
  rw [membersAt] at read
  obtain ⟨next, _, read⟩ := Outcome.bind_eq_ok.1 read
  cases next with
  | none =>
      obtain ⟨rfl, _⟩ := Prod.mk.inj (Except.ok.inj read)
      exact fits
  | some text =>
      obtain ⟨⟨key, _⟩, _, read⟩ := Outcome.bind_eq_ok.1 read
      obtain ⟨behind, _, read⟩ := Outcome.bind_eq_ok.1 read
      obtain ⟨⟨v, _⟩, taken, later⟩ := Outcome.bind_eq_ok.1 read
      refine h.members later fun entry inside => ?_
      rcases mem_insert inside with rfl | inside
      · exact h.value taken
      · exact fits entry inside

/-- By induction on fuel: each part is taken with less. -/
theorem taken (fuel : Nat) : Taken fuel := by
  induction fuel with
  | zero => exact ⟨nofun, nofun, nofun⟩
  | succ fuel ih => exact ⟨ih.value_succ, ih.elements_succ, ih.members_succ⟩

/-- A text that is read stands for a value within the depth of a document. -/
theorem fits_of_parse {text : String} {v : Value} (read : Value.parse text = .ok v)
    : Fits 128 v := by
  obtain ⟨⟨w, rest⟩, inner, last⟩ := Outcome.bind_eq_ok.1 read
  rw [finish] at last
  split at last
  · obtain rfl := Except.ok.inj last
    exact (taken _).value inner
  · contradiction

-----------------------------------------------------------------------------------------
-- Documents
-----------------------------------------------------------------------------------------

theorem canonicalElements_eq_map (elements : List Value)
    : canonicalElements elements = elements.map canonical := by
  induction elements with
  | nil => rfl
  | cons v elements ih => rw [canonicalElements, ih, List.map_cons]

theorem exists_of_mem_canonicalMembers {members done : List (String × Value)}
    {entry : String × Value} (member : entry ∈ canonicalMembers done members)
    : entry ∈ done ∨ ∃ source ∈ members, entry.2 = canonical source.2 := by
  induction members generalizing done with
  | nil => exact .inl member
  | cons first members ih =>
      rcases ih member with inside | ⟨source, inside, same⟩
      · rcases mem_insert inside with rfl | inside
        · exact .inr ⟨first, List.mem_cons_self, rfl⟩
        · exact .inl inside
      · exact .inr ⟨source, List.mem_cons_of_mem _ inside, same⟩

theorem canonicalMembers_eq_append {members done : List (String × Value)}
    (sorted : Value.Sorted (done ++ members))
    : canonicalMembers done members
      = done ++ members.map fun entry => (entry.1, canonical entry.2) := by
  induction members generalizing done with
  | nil => exact (List.append_nil done).symm
  | cons first members ih =>
      obtain ⟨_, _, cross⟩ := List.pairwise_append.1 sorted
      have last : ∀ entry ∈ done, entry.1 < first.1 := fun entry member =>
        cross entry member first List.mem_cons_self
      have same : Value.Sorted (done ++ [(first.1, canonical first.2)] ++ members) := by
        have keys : (done ++ first :: members).map Prod.fst
            = (done ++ [(first.1, canonical first.2)] ++ members).map Prod.fst := by simp
        exact List.pairwise_map.1 (keys ▸ List.pairwise_map.2 sorted)
      rw [canonicalMembers, insert_eq_append last, ih same, List.append_assoc]
      rfl

/-- An object whose keys are in order stays as it is but for the values under them. -/
theorem canonical_object {members : List (String × Value)}
    (sorted : (members.map Prod.fst).Pairwise (· < ·))
    : canonical (.object members)
      = .object (members.map fun entry => (entry.1, canonical entry.2)) := by
  have ordered : Value.Sorted ([] ++ members) := List.pairwise_map.1 sorted
  rw [canonical, canonicalMembers_eq_append ordered, List.nil_append]

/-- The order of members has no part in what fits. -/
theorem fits_canonical {depth : Nat} {v : Value} (fits : Fits depth v)
    : Fits depth v.canonical := by
  induction fits with
  | null => exact .null
  | boolean b => exact .boolean b
  | number fits => exact .number fits
  | text s => exact .text s
  | list _ ih =>
      refine .list fun v member => ?_
      rw [canonicalElements_eq_map] at member
      obtain ⟨source, inside, rfl⟩ := List.mem_map.1 member
      exact ih source inside
  | object _ ih =>
      refine .object fun entry member => ?_
      rcases exists_of_mem_canonicalMembers member with inside | ⟨source, inside, same⟩
      · contradiction
      · rw [same]
        exact ih source inside

namespace Value

/-- Some text stands for the value, the order of its members aside. -/
def IsDocument (v : Value) : Prop := ∃ text, Value.parse text = .ok v.canonical

/-- A document is read back, in order, from its own text. -/
theorem IsDocument.parse_render {v : Value} (h : v.IsDocument)
    : Value.parse v.canonical.render = .ok v.canonical := by
  obtain ⟨text, read⟩ := h
  exact Json.parse_render (fits_of_parse read) (inOrder_canonical v)

/-- Documents are the values whose numbers have numerals, and whose lists and objects are fewer
than 128 deep.
-/
theorem isDocument_iff (v : Value) : v.IsDocument ↔ Fits 128 v.canonical :=
  ⟨fun ⟨_, read⟩ => fits_of_parse read, fun fits =>
    ⟨_, Json.parse_render fits (inOrder_canonical v)⟩⟩

theorem Fits.isDocument {v : Value} (fits : Fits 128 v) : v.IsDocument :=
  (isDocument_iff v).2 (fits_canonical fits)

end Value

end Screener.Json
