import Screener.Proofs.Json.Layouts
import Screener.Proofs.Time.ReadBack

/-!
Trees that tell a value. The members of an object may come in any order, and others may stand
among them under names of their own: what these say does not matter. A record that a value states
is decoded from every tree that tells the value.
-/

namespace Screener.Json

/-- The tree says what the value says. -/
inductive Tree.Tells : Tree → Value → Prop
  | null : Tells .null .null
  | boolean (b : Bool) : Tells (.boolean b) (.boolean b)
  | number {n : NumberText} {m : Number} (means : n.number? = some m)
    : Tells (.number n) (.number m)
  | text {s : List Piece} {cs : List Char} (spelled : Piece.spelled? s = some cs)
    : Tells (.text s) (.text (String.ofList cs))
  | list {elements : Elements} {values : List Value} {parts : List (Tree × Value)}
    (listed : elements.toList = parts.map (·.1)) (stated : values = parts.map (·.2))
    (all : ∀ part ∈ parts, Tells part.1 part.2)
    : Tells (.list elements) (.list values)
  | object {members : Members} {entries added : List (String × Tree)}
    {stated : List (String × Value)} {held : List (String × Tree × Value)}
    (named : members.named? = some entries)
    (mixed : entries.Perm (held.map (fun part => (part.1, part.2.1)) ++ added))
    (same : stated = held.map fun part => (part.1, part.2.2))
    (all : ∀ part ∈ held, Tells part.2.1 part.2.2)
    (fresh : ∀ entry ∈ added, entry.1 ∉ stated.map Prod.fst)
    : Tells (.object members) (.object stated)

-----------------------------------------------------------------------------------------
-- Members may change places, and others may be added
-----------------------------------------------------------------------------------------

theorem exists_perm_of_map {α β : Type} {f : α → β} {as : List α} {bs bs' : List β}
    (perm : bs.Perm bs') (same : bs = as.map f)
    : ∃ as' : List α, as.Perm as' ∧ bs' = as'.map f := by
  induction perm generalizing as with
  | nil => exact ⟨as, .refl as, same⟩
  | cons b _ ih =>
      obtain ⟨a, others, rfl, here, later⟩ := List.map_eq_cons_iff.1 same.symm
      obtain ⟨others', perm, later'⟩ := ih later.symm
      exact ⟨a :: others', perm.cons a, by rw [List.map_cons, here, later']⟩
  | swap b c _ =>
      obtain ⟨a, others, rfl, here, later⟩ := List.map_eq_cons_iff.1 same.symm
      obtain ⟨a', others', rfl, here', later'⟩ := List.map_eq_cons_iff.1 later
      refine ⟨a' :: a :: others', .swap a' a others', ?_⟩
      rw [List.map_cons, List.map_cons, here, here', later']
  | trans _ _ ih ih' =>
      obtain ⟨middle, first, same'⟩ := ih same
      obtain ⟨last, second, same''⟩ := ih' same'
      exact ⟨last, first.trans second, same''⟩

/-- The order in which members are stated has no part in what tells them. -/
theorem Tree.Tells.perm {t : Tree} {stated stated' : List (String × Value)}
    (tells : t.Tells (.object stated)) (perm : stated.Perm stated')
    : t.Tells (.object stated') := by
  cases tells with
  | object named mixed same all fresh =>
      obtain ⟨held', reordered, same'⟩ := exists_perm_of_map perm same
      refine .object named (mixed.trans ((reordered.map _).append_right _)) same' ?_ ?_
      · exact fun part member => all part (reordered.mem_iff.2 member)
      · exact fun entry member inside => fresh entry member ((perm.map _).mem_iff.2 inside)

/-- A member with a name of its own may stand before the others, whatever its value is. -/
theorem Tree.Tells.cons {members : Members} {stated : List (String × Value)}
    (tells : (Tree.object members).Tells (.object stated)) (before after : Gap) {key : Key}
    {cs : List Char} (spelled : Piece.spelled? key.name = some cs)
    (fresh : String.ofList cs ∉ stated.map Prod.fst) (t : Tree)
    : (Tree.object (.cons before after key t members)).Tells (.object stated) := by
  cases tells with
  | @object _ entries added _ held named mixed same all others =>
      have both : Members.named? (.cons before after key t members)
          = some ((String.ofList cs, t) :: entries) := by
        rw [Members.named?, spelled, named]
        rfl
      refine .object both ((mixed.cons _).trans List.perm_middle.symm) same all ?_
      exact List.forall_mem_cons.2 ⟨fresh, others⟩

-----------------------------------------------------------------------------------------
-- Single values are decoded to what they were written for
-----------------------------------------------------------------------------------------

/-- Every tree that tells the value is decoded to this. -/
def Value.Means {α : Type} (v : Value) (decode : Tree → Option α) (a : α) : Prop :=
  ∀ t : Tree, t.Tells v → decode t = some a

variable {α : Type}

theorem means_string (s : String) : (Value.text s).Means Tree.string? s := by
  intro t tells
  cases tells with
  | text spelled => simp [Tree.string?, spelled]

theorem means_number (m : Number) : (Value.number m).Means Tree.number? m := by
  intro t tells
  cases tells with
  | number means => exact means

/-- A finite float is told as it is. -/
theorem means_float {v : Binary64} (finite : v.isFinite = true)
    : (Value.ofFloat v).Means Tree.float? v := by
  intro t tells
  rw [Value.ofFloat, if_pos finite] at tells
  rw [Tree.float?, means_number _ t tells]
  rfl

theorem means_word (n : UInt32) : (Value.ofWord n).Means Tree.word? n := by
  intro t tells
  have small : n.toNat < UInt32.size := n.toNat_lt
  rw [Tree.word?, means_number _ t tells]
  simp [Number.toWord?, small]

/-- An optional value is told as it is or as null. -/
theorem means_optional {decode : Tree → Option α} {f : α → Value} {x : Option α}
    (means : ∀ a, x = some a → (f a).Means decode a) (some : ∀ a, x = some a → f a ≠ .null)
    : (Value.ofOption f x).Means (Tree.optional? decode) x := by
  intro t tells
  cases x with
  | none =>
      cases tells
      rfl
  | some a =>
      have other : t ≠ .null := by
        rintro rfl
        have tells : Tree.null.Tells (f a) := tells
        generalize same : f a = v at tells
        cases tells
        exact some a rfl same
      rw [Tree.optional?_of_ne other, means a rfl t tells]
      rfl

/-- A limit is told by its number, or by null where nothing is asked for. -/
theorem means_limit {x : Option Binary64} (finite : ∀ v, x = some v → v.isFinite = true)
    : (Value.ofOption .ofFloat x).Means (Tree.optional? Tree.float?) x := by
  refine means_optional (fun v same => means_float (finite v same)) ?_
  intro v same
  rw [Value.ofFloat, if_pos (finite v same)]
  exact Value.noConfusion

/-- A limit without a number is told by null as well, so that it is lost. -/
theorem means_finiteLimit (x : Option Binary64)
    : (Value.ofOption .ofFloat x).Means (Tree.optional? Tree.float?)
        (x.filter Binary64.isFinite) := by
  have told : Value.ofOption .ofFloat x = .ofOption .ofFloat (x.filter Binary64.isFinite) := by
    cases x with
    | none => rfl
    | some v =>
        cases finite : v.isFinite <;> simp [Option.filter, finite, Value.ofOption, Value.ofFloat]
  rw [told]
  exact means_limit fun v kept => (Option.filter_eq_some_iff.1 kept).2

theorem means_list {decode : Tree → Option α} {f : α → Value} {as : List α}
    (means : ∀ a ∈ as, (f a).Means decode a)
    : (Value.list (as.map f)).Means (Tree.list? decode) as := by
  intro t tells
  cases tells with
  | @list elements _ parts listed stated all =>
      rw [Tree.list?, listed]
      clear listed
      induction as generalizing parts with
      | nil =>
          obtain rfl := List.map_eq_nil_iff.1 stated.symm
          rfl
      | cons a as ih =>
          obtain ⟨part, others, rfl, same, later⟩ := List.map_eq_cons_iff.1 stated.symm
          obtain ⟨here, all⟩ := List.forall_mem_cons.1 all
          obtain ⟨first, means⟩ := List.forall_mem_cons.1 means
          rw [same] at here
          have rest := ih means all later.symm
          rw [List.map_cons, List.mapM_cons, first _ here, rest]
          rfl

/-- A name stands for the value that it is listed with. -/
theorem means_named {names : List (String × α)} {name : String} {a : α}
    (chosen : choose names name = .ok a)
    : (Value.text name).Means (Tree.named? names) a := by
  intro t tells
  cases tells with
  | text spelled =>
      rw [Tree.named?, Tree.name?, spelled]
      exact toOption_eq_some.2 chosen

theorem means_moment (t : Timestamp)
    : (Value.text t.text).Means Tree.moment? t.readBack := by
  intro tree tells
  rw [Tree.moment?, means_string _ tree tells, Option.bind_some, Timestamp.parse_text]
  rfl

-----------------------------------------------------------------------------------------
-- Records are decoded to what their members state
-----------------------------------------------------------------------------------------

namespace Layout

theorem under_of_mem {name : String} {t : Tree} {entries : List (String × Tree)}
    (distinct : (entries.map Prod.fst).Nodup) (member : (name, t) ∈ entries)
    : under name entries = [(name, t)] := by
  induction entries with
  | nil => cases member
  | cons entry entries ih =>
      obtain ⟨fresh, distinct⟩ := List.nodup_cons.1 distinct
      rcases List.mem_cons.1 member with rfl | member
      · have none : under name entries = [] := by
          refine List.filter_eq_nil_iff.2 fun other inside same => fresh ?_
          exact List.mem_map.2 ⟨other, inside, beq_iff_eq.1 same⟩
        simp only [under] at none ⊢
        rw [List.filter_cons, if_pos (beq_self_eq_true name), none]
      · have other : ¬ (entry.1 == name) = true := fun same =>
          fresh (List.mem_map.2 ⟨_, member, (beq_iff_eq.1 same).symm⟩)
        have later := ih distinct member
        simp only [under] at later ⊢
        rw [List.filter_cons, if_neg other, later]

/-- Under each name that is stated there is one member, which tells what is stated. -/
theorem exists_under {members : Members} {stated : List (String × Value)}
    (tells : (Tree.object members).Tells (.object stated))
    (distinct : (stated.map Prod.fst).Nodup)
    : ∃ entries, members.named? = some entries
        ∧ ∀ entry ∈ stated, ∃ t : Tree, under entry.1 entries = [(entry.1, t)]
          ∧ t.Tells entry.2 := by
  cases tells with
  | @object _ entries added _ held named mixed same all fresh =>
      refine ⟨entries, named, ?_⟩
      intro entry member
      rw [same] at member distinct fresh
      obtain ⟨⟨name, t, v⟩, inside, rfl⟩ := List.mem_map.1 member
      refine ⟨t, ?_, all _ inside⟩
      have keys : (held.map fun part => (part.1, part.2.1)).map Prod.fst
          = (held.map fun part => (part.1, part.2.2)).map Prod.fst := by simp
      have here : under name (held.map fun part => (part.1, part.2.1)) = [(name, t)] := by
        refine under_of_mem (by rwa [keys]) ?_
        exact List.mem_map.2 ⟨(name, t, v), inside, rfl⟩
      have none : under name added = [] := by
        refine List.filter_eq_nil_iff.2 fun other member same => fresh other member ?_
        rw [beq_iff_eq.1 same]
        exact List.mem_map.2 ⟨(name, v), List.mem_map.2 ⟨_, inside, rfl⟩, rfl⟩
      have both := mixed.filter fun entry => entry.1 == name
      rw [List.filter_append] at both
      change (under name entries).Perm (under name _ ++ under name _) at both
      rw [here, none] at both
      exact List.perm_singleton.1 both

/-- Members state the values of a record, one for each field in order. -/
inductive Stated : {γ : Type} → Layout γ → List (String × Value) → γ → Prop
  | done : Stated .done [] ()
  | field {α β : Type} {name : String} {reader : Reader α} {decode : Tree → Option α}
    {follows : reader.Follows decode} {absent : Option α} {layout : Layout β}
    {members : List (String × Value)} {v : Value} {a : α} {values : β}
    (means : v.Means decode a) (others : Stated layout members values)
    : Stated (.field name follows absent layout) ((name, v) :: members) (a, values)

theorem Stated.map_fst {γ : Type} {layout : Layout γ} {members : List (String × Value)}
    {values : γ} (stated : Stated layout members values)
    : members.map Prod.fst = layout.names := by
  induction stated with
  | done => rfl
  | field means _ ih => rw [List.map_cons, names, ih]

/-- What is stated is said by the members under each name, by induction over the fields. -/
theorem Stated.ofMembers {γ : Type} {layout : Layout γ} {members : List (String × Value)}
    {values : γ} (stated : Stated layout members values) {entries : List (String × Tree)}
    (each : ∀ entry ∈ members, ∃ t : Tree, under entry.1 entries = [(entry.1, t)]
      ∧ t.Tells entry.2)
    : layout.ofMembers entries = some values := by
  induction stated with
  | done => rfl
  | field means _ ih =>
      obtain ⟨⟨t, here, tells⟩, each⟩ := List.forall_mem_cons.1 each
      rw [Layout.ofMembers, here, said, means t tells, ih each]
      rfl

/-- The record that an object states is decoded from every tree that tells the object. -/
theorem Stated.means {γ : Type} {layout : Layout γ} {members : List (String × Value)}
    {values : γ} (stated : Stated layout members values) (distinct : layout.names.Nodup)
    : (Value.object members).Means layout.decode values := by
  intro t tells
  cases t with
  | object =>
      obtain ⟨entries, named, each⟩ := exists_under tells (by rwa [stated.map_fst])
      rw [decode, named]
      exact stated.ofMembers each
  | null | boolean _ | number _ | text _ | list _ => cases tells

end Layout

end Screener.Json
