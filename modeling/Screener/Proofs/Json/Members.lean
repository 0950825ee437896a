import Screener.Json.Value

/-!
Members in order of key. Setting a member keeps the order, so the canonical form of a value is
in order throughout. Where no member is stated twice, none is lost by that.
-/

namespace Screener.Json

open Value (canonical canonicalElements canonicalMembers)

namespace Value

/-- Members in order of key, each key once. -/
def Sorted (members : List (String × Value)) : Prop :=
  members.Pairwise fun a b => a.1 < b.1

/-- The members of every object are in order of key. -/
inductive InOrder : Value → Prop
  | null : InOrder .null
  | boolean (b : Bool) : InOrder (.boolean b)
  | number (n : Number) : InOrder (.number n)
  | text (s : String) : InOrder (.text s)
  | list {elements : List Value} (all : ∀ v ∈ elements, InOrder v) : InOrder (.list elements)
  | object {members : List (String × Value)} (sorted : Sorted members)
    (all : ∀ member ∈ members, InOrder member.2)
    : InOrder (.object members)

end Value

open Value (Sorted InOrder)

theorem mem_insert {key : String} {value : Value} {members : List (String × Value)}
    {entry : String × Value} (member : entry ∈ Value.insert key value members)
    : entry = (key, value) ∨ entry ∈ members := by
  induction members with
  | nil => exact .inl (List.mem_singleton.1 member)
  | cons first members ih =>
      rw [Value.insert] at member
      split at member
      · exact List.mem_cons.1 member
      · split at member
        · rcases List.mem_cons.1 member with same | member
          · exact .inl same
          · exact .inr (List.mem_cons_of_mem _ member)
        · rcases List.mem_cons.1 member with rfl | member
          · exact .inr List.mem_cons_self
          · exact (ih member).imp id (List.mem_cons_of_mem _)

theorem lt_of_not_lt_of_ne {a b : String} (below : ¬ a < b) (other : a ≠ b) : b < a := by
  refine Decidable.byContradiction fun above => other ?_
  exact String.le_antisymm (String.not_lt.1 above) (String.not_lt.1 below)

/-- Setting a member keeps the order, by induction along the members before its key. -/
theorem sorted_insert (key : String) (value : Value) {members : List (String × Value)}
    (sorted : Sorted members)
    : Sorted (Value.insert key value members) := by
  induction members with
  | nil => exact List.pairwise_singleton _ _
  | cons first members ih =>
      obtain ⟨least, later⟩ := List.pairwise_cons.1 sorted
      rw [Value.insert]
      split
      next below =>
        refine List.pairwise_cons.2 ⟨?_, sorted⟩
        intro entry member
        rcases List.mem_cons.1 member with rfl | member
        · exact below
        · exact String.lt_trans below (least entry member)
      next above =>
        split
        next same => exact List.pairwise_cons.2 ⟨same ▸ least, later⟩
        next other =>
          refine List.pairwise_cons.2 ⟨?_, ih later⟩
          intro entry member
          rcases mem_insert member with rfl | member
          · exact lt_of_not_lt_of_ne above other
          · exact least entry member

/-- A member behind all others is set at the end. -/
theorem insert_eq_append {key : String} {value : Value} {members : List (String × Value)}
    (last : ∀ entry ∈ members, entry.1 < key)
    : Value.insert key value members = members ++ [(key, value)] := by
  induction members with
  | nil => rfl
  | cons first members ih =>
      have before : first.1 < key := last first List.mem_cons_self
      have other : key ≠ first.1 := fun same => String.lt_irrefl key (same ▸ before)
      rw [Value.insert, if_neg (String.lt_asymm before), if_neg other,
        ih fun entry member => last entry (List.mem_cons_of_mem _ member)]
      rfl

-- Canonical values are in order: one case for each kind of value.
mutual

theorem inOrder_canonical (v : Value) : InOrder v.canonical := by
  cases v with
  | null => exact .null
  | boolean b => exact .boolean b
  | number n => exact .number n
  | text s => exact .text s
  | list elements => exact .list (inOrder_canonicalElements elements)
  | object members =>
      obtain ⟨sorted, all⟩ := inOrder_canonicalMembers members [] .nil (fun _ => nofun)
      exact .object sorted all

theorem inOrder_canonicalElements (elements : List Value)
    : ∀ v ∈ canonicalElements elements, InOrder v := by
  cases elements with
  | nil => nofun
  | cons v elements =>
      intro w member
      rcases List.mem_cons.1 member with rfl | member
      · exact inOrder_canonical v
      · exact inOrder_canonicalElements elements w member

theorem inOrder_canonicalMembers (members done : List (String × Value))
    (sorted : Sorted done) (all : ∀ entry ∈ done, InOrder entry.2)
    : Sorted (canonicalMembers done members)
      ∧ ∀ entry ∈ canonicalMembers done members, InOrder entry.2 := by
  cases members with
  | nil => exact ⟨sorted, all⟩
  | cons first members =>
      refine inOrder_canonicalMembers members _ (sorted_insert _ _ sorted) fun entry member => ?_
      rcases mem_insert member with rfl | member
      · exact inOrder_canonical first.2
      · exact all entry member

end

-----------------------------------------------------------------------------------------
-- Distinct members are reordered and none is lost
-----------------------------------------------------------------------------------------

/-- No object states a member twice. -/
inductive Value.Distinct : Value → Prop
  | null : Distinct .null
  | boolean (b : Bool) : Distinct (.boolean b)
  | number (n : Number) : Distinct (.number n)
  | text (s : String) : Distinct (.text s)
  | list {elements : List Value} (all : ∀ v ∈ elements, Distinct v) : Distinct (.list elements)
  | object {members : List (String × Value)} (names : (members.map Prod.fst).Nodup)
    (all : ∀ member ∈ members, Distinct member.2)
    : Distinct (.object members)

namespace Value

theorem distinct_ofFloat (v : Binary64) : (ofFloat v).Distinct := by
  unfold ofFloat
  split
  · exact .number _
  · exact .null

theorem distinct_ofWord (n : UInt32) : (ofWord n).Distinct := .number _

theorem distinct_limit (x : Option Binary64) : (ofOption ofFloat x).Distinct := by
  cases x with
  | none => exact .null
  | some v => exact distinct_ofFloat v

end Value

theorem insert_perm {key : String} {v : Value} {members : List (String × Value)}
    (fresh : key ∉ members.map Prod.fst)
    : (Value.insert key v members).Perm ((key, v) :: members) := by
  induction members with
  | nil => exact .refl _
  | cons first members ih =>
      obtain ⟨other, later⟩ := not_or.1 (mt List.mem_cons.2 fresh)
      rw [Value.insert, if_neg other]
      split
      · exact .refl _
      · exact ((ih later).cons first).trans (.swap _ _ _)

theorem canonicalMembers_perm {members done : List (String × Value)}
    (names : (done.map Prod.fst ++ members.map Prod.fst).Nodup)
    : (canonicalMembers done members).Perm
        (done ++ members.map fun entry => (entry.1, canonical entry.2)) := by
  induction members generalizing done with
  | nil => rw [canonicalMembers, List.map_nil, List.append_nil]
  | cons first members ih =>
      obtain ⟨key, v⟩ := first
      have fresh : key ∉ done.map Prod.fst := fun member =>
        (List.nodup_append.1 names).2.2 key member key List.mem_cons_self rfl
      have set := insert_perm (v := canonical v) fresh
      have keys := ((set.map Prod.fst).append_right (members.map Prod.fst)).trans
        List.perm_middle.symm
      rw [canonicalMembers, List.map_cons]
      exact (ih (keys.nodup_iff.2 names)).trans
        ((set.append_right _).trans List.perm_middle.symm)

end Screener.Json
