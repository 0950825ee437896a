import Screener.Proofs.Json.Decoding

/-!
What trees mean to records. A record is laid out by its fields, each with a reader that follows
a decoder. Of an object only the members under the names of fields count, whatever their order,
and each of these may be there once; a list has the fields in their order.
-/

namespace Screener.Json

/-- The fields of a record in their declared order, each with its name, a decoder that its
reader follows, and the value it takes when absent.
-/
inductive Layout : Type → Type 1 where
  | done : Layout Unit
  | field {α β : Type} (name : String) {reader : Reader α} {decode : Tree → Option α}
    (follows : reader.Follows decode) (absent : Option α) (rest : Layout β)
    : Layout (α × β)

/-- The members of an object with their names, all of which have to spell characters. -/
def Members.named? : Members → Option (List (String × Tree))
  | .nil _ => some []
  | .cons _ _ key t rest =>
    (Piece.spelled? key.name).bind fun name =>
      rest.named?.map fun others => (String.ofList name, t) :: others

namespace Layout

def fields : {γ : Type} → Layout γ → Fields γ
  | _, .done => .done
  | _, @field _ _ name reader _ _ absent rest => .field name reader absent rest.fields

def names : {γ : Type} → Layout γ → List String
  | _, .done => []
  | _, .field name _ _ rest => name :: rest.names

/-- The members under a name. -/
def under (name : String) (members : List (String × Tree)) : List (String × Tree) :=
  members.filter fun entry => entry.1 == name

/-- What the members under one name say: nothing there is as absent, and two are too many. -/
def said {α : Type} (decode : Tree → Option α) (absent : Option α)
    : List (String × Tree) → Option α
  | [] => absent
  | [entry] => decode entry.2
  | _ => none

/-- What the members of an object say. -/
def ofMembers : {γ : Type} → Layout γ → List (String × Tree) → Option γ
  | _, .done, _ => some ()
  | _, @field _ _ name _ decode _ absent rest, members =>
    (said decode absent (under name members)).bind fun a =>
      (rest.ofMembers members).map fun others => (a, others)

/-- What the elements of a list say, one for each field from the first; later ones may be left
out where they have a value.
-/
def ofElements : {γ : Type} → Layout γ → List Tree → Option γ
  | _, .done, [] => some ()
  | _, .done, _ :: _ => none
  | _, .field _ _ absent rest, [] =>
    absent.bind fun a => (rest.ofElements []).map fun others => (a, others)
  | _, @field _ _ _ _ decode _ _ rest, t :: elements =>
    (decode t).bind fun a => (rest.ofElements elements).map fun others => (a, others)

/-- What a tree says as a record. -/
def decode {γ : Type} (layout : Layout γ) : Tree → Option γ
  | .object members => members.named?.bind layout.ofMembers
  | .list elements => layout.ofElements elements.toList
  | _ => none

-----------------------------------------------------------------------------------------
-- Where the values of a record come from
-----------------------------------------------------------------------------------------

/-- Each value of a record is what some tree says to its field, or what its absence means. -/
def Sourced : {γ : Type} → Layout γ → γ → Prop
  | _, .done, _ => True
  | _, @field _ _ _ _ decode _ absent rest, values =>
    ((∃ t, decode t = some values.1) ∨ absent = some values.1) ∧ rest.Sourced values.2

theorem sourced_of_ofMembers {γ : Type} {layout : Layout γ} {members : List (String × Tree)}
    {values : γ} (holds : layout.ofMembers members = some values)
    : layout.Sourced values := by
  induction layout with
  | done => trivial
  | @field α β name reader decode follows absent rest ih =>
      obtain ⟨a, one, holds⟩ := Option.bind_eq_some_iff.1 holds
      obtain ⟨others, later, rfl⟩ := Option.map_eq_some_iff.1 holds
      refine ⟨?_, ih later⟩
      generalize under name members = own at one
      match own with
      | [] => exact .inr one
      | [entry] => exact .inl ⟨entry.2, one⟩
      | _ :: _ :: _ => contradiction

theorem sourced_of_ofElements {γ : Type} {layout : Layout γ} {elements : List Tree} {values : γ}
    (holds : layout.ofElements elements = some values)
    : layout.Sourced values := by
  induction layout generalizing elements with
  | done => trivial
  | @field α β name reader decode follows absent rest ih =>
      cases elements with
      | nil =>
          obtain ⟨a, one, holds⟩ := Option.bind_eq_some_iff.1 holds
          obtain ⟨others, later, rfl⟩ := Option.map_eq_some_iff.1 holds
          exact ⟨.inr one, ih later⟩
      | cons t elements =>
          obtain ⟨a, one, holds⟩ := Option.bind_eq_some_iff.1 holds
          obtain ⟨others, later, rfl⟩ := Option.map_eq_some_iff.1 holds
          exact ⟨.inl ⟨t, one⟩, ih later⟩

theorem sourced_of_decode {γ : Type} {layout : Layout γ} {t : Tree} {values : γ}
    (said : layout.decode t = some values)
    : layout.Sourced values := by
  cases t with
  | object members =>
      obtain ⟨entries, _, holds⟩ := Option.bind_eq_some_iff.1 said
      exact sourced_of_ofMembers holds
  | list elements => exact sourced_of_ofElements said
  | null | boolean _ | number _ | text _ => contradiction

-----------------------------------------------------------------------------------------
-- Slots hold what the members under their names say
-----------------------------------------------------------------------------------------

/-- The members under one name have left this in its slot. -/
inductive Own {α : Type} (decode : Tree → Option α) : List (String × Tree) → Option α → Prop
  | nothing : Own decode [] none
  | once {name : String} {t : Tree} {a : α} (means : decode t = some a)
    : Own decode [(name, t)] (some a)

/-- The members have filled the slots as they are. -/
def Gathered (members : List (String × Tree))
    : {γ : Type} → (layout : Layout γ) → layout.fields.Slots → Prop
  | _, .done, _ => True
  | _, @field _ _ name _ decode _ _ rest, slots =>
    Own decode (under name members) slots.1 ∧ Gathered members rest slots.2

theorem Own.said_eq {α : Type} {decode : Tree → Option α} {members : List (String × Tree)}
    {x : Option α} (own : Own decode members x) (absent : Option α)
    : said decode absent members = (x <|> absent) := by
  cases own with
  | nothing => rfl
  | once means => exact means

theorem Own.unique {α : Type} {decode : Tree → Option α} {members : List (String × Tree)}
    {x y : Option α} (first : Own decode members x) (second : Own decode members y)
    : x = y := by
  cases first with
  | nothing =>
      cases second
      rfl
  | once means =>
      cases second with
      | once means' => rw [← means, ← means']

/-- The slots depend on what is under the names of the fields alone. -/
theorem Gathered.unique {γ : Type} {layout : Layout γ} {members others : List (String × Tree)}
    {slots slots' : layout.fields.Slots} (first : Gathered members layout slots)
    (second : Gathered others layout slots')
    (same : ∀ name ∈ layout.names, under name members = under name others)
    : slots = slots' := by
  induction layout with
  | done => rfl
  | field name follows absent rest ih =>
      obtain ⟨own, inner⟩ := first
      obtain ⟨own', inner'⟩ := second
      obtain ⟨here, later⟩ := List.forall_mem_cons.1 same
      rw [here] at own
      exact Prod.ext (own.unique own') (ih inner inner' later)

theorem Gathered.congr {γ : Type} {layout : Layout γ} {members others : List (String × Tree)}
    {slots : layout.fields.Slots} (gathered : Gathered members layout slots)
    (same : ∀ name ∈ layout.names, under name others = under name members)
    : Gathered others layout slots := by
  induction layout with
  | done => trivial
  | field name follows absent rest ih =>
      obtain ⟨own, inner⟩ := gathered
      obtain ⟨here, later⟩ := List.forall_mem_cons.1 same
      exact ⟨here ▸ own, ih inner later⟩

theorem gathered_start {γ : Type} (layout : Layout γ)
    : Gathered [] layout layout.fields.start := by
  induction layout with
  | done => trivial
  | field name follows absent rest ih => exact ⟨.nothing, ih⟩

theorem under_append_other {name other : String} (apart : name ≠ other)
    (members : List (String × Tree)) (t : Tree)
    : under other (members ++ [(name, t)]) = under other members := by
  simp [under, apart]

theorem under_append_own (name : String) (members : List (String × Tree)) (t : Tree)
    : under name (members ++ [(name, t)]) = under name members ++ [(name, t)] := by
  simp [under]

/-- The members before others have filled slots as well. -/
theorem Gathered.before {γ : Type} {layout : Layout γ} {members others : List (String × Tree)}
    {slots : layout.fields.Slots} (gathered : Gathered (members ++ others) layout slots)
    : ∃ slots', Gathered members layout slots' := by
  induction layout with
  | done => exact ⟨(), trivial⟩
  | @field α β name reader decode follows absent rest ih =>
      obtain ⟨x, slots⟩ := slots
      obtain ⟨own, inner⟩ := gathered
      obtain ⟨slots', inner'⟩ := ih inner
      have whole : under name (members ++ others) = under name members ++ under name others := by
        simp [under]
      rw [whole] at own
      cases front : under name members with
      | nil => exact ⟨(none, slots'), by rw [front]; exact .nothing, inner'⟩
      | cons entry more =>
          rw [front] at own
          generalize filled : entry :: more ++ under name others = both at own
          cases own with
          | nothing => contradiction
          | @once other t a means =>
              obtain ⟨rfl, none⟩ := List.cons.inj filled
              obtain ⟨rfl, _⟩ := List.append_eq_nil_iff.1 none
              exact ⟨(some a, slots'), by rw [front]; exact .once means, inner'⟩

/-- The record is complete just if the members say it. -/
theorem Gathered.complete {γ : Type} {layout : Layout γ} {members : List (String × Tree)}
    {slots : layout.fields.Slots} (gathered : Gathered members layout slots) {values : γ}
    : layout.fields.complete slots = .ok values ↔ layout.ofMembers members = some values := by
  induction layout with
  | done => simp [fields, Fields.complete, ofMembers]
  | @field α β name reader decode follows absent rest ih =>
      obtain ⟨own, inner⟩ := gathered
      have here := own.said_eq absent
      simp only [fields, Fields.complete, ofMembers, here]
      cases slots.1 <|> absent with
      | none => simp
      | some a =>
          simp only [Option.bind_some, Outcome.map_eq_ok, Option.map_eq_some_iff]
          exact exists_congr fun others => and_congr_left fun _ => ih inner

/-- Members that say a record have filled slots. -/
theorem gathered_of_ofMembers {γ : Type} {layout : Layout γ} {members : List (String × Tree)}
    {values : γ} (holds : layout.ofMembers members = some values)
    : ∃ slots, Gathered members layout slots := by
  induction layout with
  | done => exact ⟨(), trivial⟩
  | @field α β name reader decode follows absent rest ih =>
      obtain ⟨a, one, holds⟩ := Option.bind_eq_some_iff.1 holds
      obtain ⟨others, later, _⟩ := Option.map_eq_some_iff.1 holds
      obtain ⟨slots, inner⟩ := ih later
      cases here : under name members with
      | nil => exact ⟨(none, slots), by rw [here]; exact .nothing, inner⟩
      | cons entry more =>
          cases more with
          | nil =>
              rw [here] at one
              exact ⟨(some a, slots), by rw [here]; exact .once one, inner⟩
          | cons _ _ =>
              rw [here] at one
              contradiction

-----------------------------------------------------------------------------------------
-- Members fill the slots in any order
-----------------------------------------------------------------------------------------

/-- One member more fills a slot that was empty. -/
theorem Own.append {α : Type} {decode : Tree → Option α} {members : List (String × Tree)}
    {x y : Option α} {name : String} {t : Tree} (own : Own decode members x)
    (grown : Own decode (members ++ [(name, t)]) y)
    : x = none ∧ ∃ a, y = some a ∧ decode t = some a := by
  cases own with
  | nothing =>
      cases grown with
      | once means => exact ⟨rfl, _, rfl, means⟩
  | once _ => cases grown

section
variable {γ : Type} {layout : Layout γ} {members : List (String × Tree)}
  {slots next : layout.fields.Slots} {name : String} {text rest : List Char}

/-- A member is read into its slot. By induction over the fields: it is read where its name is,
or passed over behind the last.
-/
theorem Gathered.readMember {t : Tree} (distinct : layout.names.Nodup)
    (now : Gathered members layout slots) (grown : Gathered (members ++ [(name, t)]) layout next)
    (behind lead : Gap) (stops : Stops rest)
    : layout.fields.readMember slots name
        (behind.chars ++ ':' :: (lead.chars ++ (t.chars ++ rest)))
      = .ok (next, rest) := by
  induction layout with
  | done =>
      have passes := follows_pass.takes (t := t) rfl lead stops
      simp only [fields, Fields.readMember, bind, Except.bind, afterColon_gap, passes]
      rfl
  | @field α β field reader decode follows absent others ih =>
      obtain ⟨fresh, distinct⟩ := List.nodup_cons.1 distinct
      obtain ⟨x, slots⟩ := slots
      obtain ⟨y, next⟩ := next
      obtain ⟨own, inner⟩ := now
      obtain ⟨own', inner'⟩ := grown
      by_cases same : name = field
      · subst same
        have unchanged : slots = next := by
          refine inner.unique inner' fun other member => (under_append_other ?_ _ _).symm
          rintro rfl
          exact fresh member
        subst unchanged
        rw [under_append_own] at own'
        obtain ⟨rfl, a, rfl, means⟩ := own.append own'
        have read := follows.takes means lead stops
        simp only [fields, Fields.readMember, ↓reduceIte, bind, Except.bind, afterColon_gap, read]
      · rw [under_append_other same] at own'
        obtain rfl := own.unique own'
        have read := ih distinct inner inner'
        simp only [fields, Fields.readMember, if_neg same, read]
        rfl

/-- What is read of a member is a tree that fills the slot. -/
theorem Gathered.of_readMember (distinct : layout.names.Nodup)
    (now : Gathered members layout slots)
    (read : layout.fields.readMember slots name text = .ok (next, rest))
    : ∃ (behind lead : Gap) (t : Tree),
        text = behind.chars ++ ':' :: (lead.chars ++ (t.chars ++ rest))
        ∧ Gathered (members ++ [(name, t)]) layout next := by
  induction layout with
  | done =>
      obtain ⟨text₁, colon, read⟩ := Outcome.bind_eq_ok.1 read
      obtain ⟨⟨_, text₂⟩, passes, same⟩ := Outcome.bind_eq_ok.1 read
      cases same
      obtain ⟨behind, rfl⟩ := afterColon_eq_ok colon
      obtain ⟨lead, t, rfl, _⟩ := follows_pass.finds passes
      exact ⟨behind, lead, t, rfl, trivial⟩
  | @field α β field reader decode follows absent others ih =>
      obtain ⟨fresh, distinct⟩ := List.nodup_cons.1 distinct
      obtain ⟨x, slots⟩ := slots
      obtain ⟨own, inner⟩ := now
      simp only [fields, Fields.readMember] at read
      split at read
      next same =>
        subst same
        split at read
        next => contradiction
        next =>
          obtain ⟨text₁, colon, read⟩ := Outcome.bind_eq_ok.1 read
          obtain ⟨⟨a, text₂⟩, value, same⟩ := Outcome.bind_eq_ok.1 read
          cases same
          obtain ⟨behind, rfl⟩ := afterColon_eq_ok colon
          obtain ⟨lead, t, rfl, means⟩ := follows.finds value
          refine ⟨behind, lead, t, rfl, ?_, inner.congr fun other member => ?_⟩
          · generalize here : under name members = before at own
            cases own
            rw [under_append_own, here]
            exact .once means
          · refine under_append_other ?_ _ _
            rintro rfl
            exact fresh member
      next other =>
        obtain ⟨⟨next, text₁⟩, later, same⟩ := Outcome.map_eq_ok.1 read
        cases same
        obtain ⟨behind, lead, t, split, grown⟩ := ih distinct inner later
        exact ⟨behind, lead, t, split, by rwa [under_append_other other], grown⟩

end

theorem nextKey_nil (first : Bool) (gap : Gap) (rest : List Char)
    : nextKey first ((Members.nil gap).chars first ++ rest) = .ok none := by
  rw [nextKey, skipSpace_lastMember]
  rfl

theorem nextKey_cons (first : Bool) (before after : Gap) (key : Key) (t : Tree)
    (others : Members) (rest : List Char)
    : nextKey first ((Members.cons before after key t others).chars first ++ rest)
      = .ok (some (Piece.quoted key.name ++ (key.behind.chars ++
          ':' :: (key.lead.chars ++ (t.chars ++ (others.chars false ++ rest)))))) := by
  have inner := skipSpace_key after key (t.chars ++ (others.chars false ++ rest))
  rw [Key.chars_append] at inner
  cases first with
  | true =>
      rw [nextKey, skipSpace_firstMember, Key.chars_append]
      rfl
  | false =>
      rw [nextKey, skipSpace_nextMember, Key.chars_append]
      simp [inner]

theorem nextKey_eq_some {first : Bool} {text next : List Char}
    (read : nextKey first text = .ok (some next))
    : ∃ before after : Gap,
        text = before.chars ++ (separator first ++ (after.chars ++ '"' :: next)) := by
  obtain ⟨before, split⟩ := exists_gap text
  unfold nextKey at read
  split at read
  · contradiction
  · cases read
  next c behind _ left =>
    split at read
    next start =>
      split at read
      next quote =>
        cases read
        subst start quote
        exact ⟨before, .none, by rw [split, left]; rfl⟩
      next => contradiction
    next later =>
      split at read
      next comma =>
        subst comma
        obtain ⟨after, inside⟩ := exists_gap behind
        split at read
        · contradiction
        next quote =>
          cases read
          refine ⟨before, after, ?_⟩
          rw [split, left, separator, if_neg later, ← quote, ← inside]
          rfl
        · contradiction
        · contradiction
      next => contradiction

theorem objectEnd_nil (first : Bool) (gap : Gap) (rest : List Char)
    : objectEnd ((Members.nil gap).chars first ++ rest) = .ok rest := by
  rw [objectEnd, skipSpace_lastMember]
  rfl

theorem objectEnd_eq_ok {text rest : List Char} (read : objectEnd text = .ok rest)
    : ∃ gap, ∀ first, text = (Members.nil gap).chars first ++ rest := by
  unfold objectEnd at read
  split at read
  · contradiction
  next close =>
    cases read
    obtain ⟨gap, rfl⟩ := exists_gap_of_skipSpace close
    exact ⟨gap, fun first => by simp [Members.chars]⟩
  · contradiction
  · contradiction

section
variable {γ : Type} {layout : Layout γ}

/-- The members of an object are read up to its brace, by induction over them: each goes on from
the slots that those before it have filled.
-/
theorem Gathered.readMembers (distinct : layout.names.Nodup) (rest : List Char)
    {last : layout.fields.Slots}
    : (members : Members) → (first : Bool) → {fuel : Nat} →
      {earlier entries : List (String × Tree)} → {slots : layout.fields.Slots} →
      (members.chars first).length < fuel → members.named? = some entries →
      Gathered earlier layout slots → Gathered (earlier ++ entries) layout last →
      ∃ behind,
        layout.fields.readMembers fuel first slots (members.chars first ++ rest)
          = .ok (last, behind)
        ∧ objectEnd behind = .ok rest
  | .nil gap, first, fuel, earlier, entries, slots, enough, named, now, grown => by
      obtain ⟨fuel, rfl⟩ := Nat.exists_eq_add_one.2 (Nat.zero_lt_of_lt enough)
      cases named
      rw [List.append_nil] at grown
      obtain rfl := now.unique grown fun _ _ => rfl
      refine ⟨_, ?_, objectEnd_nil first gap rest⟩
      rw [Fields.readMembers, nextKey_nil]
      rfl
  | .cons before after key t others, first, fuel, earlier, entries, slots, enough, named, now,
      grown => by
      obtain ⟨fuel, rfl⟩ := Nat.exists_eq_add_one.2 (Nat.zero_lt_of_lt enough)
      obtain ⟨name, spelled, named⟩ := Option.bind_eq_some_iff.1 named
      obtain ⟨entries, later, rfl⟩ := Option.map_eq_some_iff.1 named
      rw [List.append_cons] at grown
      obtain ⟨next, one⟩ := grown.before
      have some := t.length_pos
      simp only [Members.chars, List.length_append] at enough
      obtain ⟨behind, read, ends⟩ := Gathered.readMembers distinct rest others false
        (show (others.chars false).length < fuel by omega) later one grown
      have keyed := readText_quoted spelled (key.behind.chars ++
        ':' :: (key.lead.chars ++ (t.chars ++ (others.chars false ++ rest))))
      have member := now.readMember distinct one key.behind key.lead (stops_members others rest)
      refine ⟨behind, ?_, ends⟩
      rw [Fields.readMembers, nextKey_cons]
      simp only [bind, Except.bind, keyed, member, read]

/-- Members that are read are those of an object, by induction on fuel. -/
theorem Gathered.of_readMembers (distinct : layout.names.Nodup) {fuel : Nat} {first : Bool}
    {earlier : List (String × Tree)} {slots last : layout.fields.Slots}
    {text behind rest : List Char} (now : Gathered earlier layout slots)
    (read : layout.fields.readMembers fuel first slots text = .ok (last, behind))
    (ends : objectEnd behind = .ok rest)
    : ∃ (members : Members) (entries : List (String × Tree)),
        text = members.chars first ++ rest ∧ members.named? = some entries
        ∧ Gathered (earlier ++ entries) layout last := by
  induction fuel generalizing first earlier slots text with
  | zero => contradiction
  | succ fuel ih =>
      rw [Fields.readMembers] at read
      obtain ⟨next, start, read⟩ := Outcome.bind_eq_ok.1 read
      cases next with
      | none =>
          cases read
          obtain ⟨gap, split⟩ := objectEnd_eq_ok ends
          exact ⟨.nil gap, [], split first, rfl, by rwa [List.append_nil]⟩
      | some next =>
          obtain ⟨⟨name, text₁⟩, keyed, read⟩ := Outcome.bind_eq_ok.1 read
          obtain ⟨⟨slots', text₂⟩, member, later⟩ := Outcome.bind_eq_ok.1 read
          obtain ⟨before, after, rfl⟩ := nextKey_eq_some start
          obtain ⟨s, cs, rfl, spelled, rfl⟩ := readText_eq_ok keyed
          obtain ⟨behind', lead, t, rfl, grown⟩ := now.of_readMember distinct member
          obtain ⟨members, entries, rfl, named, all⟩ := ih grown later
          refine ⟨.cons before after ⟨s, behind', lead⟩ t members,
            (String.ofList cs, t) :: entries, ?_, ?_, ?_⟩
          · simp only [Members.chars, Key.chars_append, List.append_assoc, List.cons_append]
          · simp [Members.named?, spelled, named]
          · rwa [List.append_cons]

end

-----------------------------------------------------------------------------------------
-- Elements are taken in the order of the fields
-----------------------------------------------------------------------------------------

/-- Behind a gap, elements that start with a bracket are none. -/
theorem exists_nil_of_skipSpace {elements : Elements} {first : Bool} {text rest : List Char}
    (close : skipSpace (elements.chars first ++ rest) = ']' :: text)
    : ∃ gap, elements = .nil gap := by
  cases elements with
  | nil gap => exact ⟨gap, rfl⟩
  | cons before after t others =>
      cases first with
      | true =>
          obtain ⟨c, front, same, starts, _⟩ := t.chars_head
          rw [skipSpace_firstElement, same] at close
          exact absurd (List.cons.inj close).1 starts.plain.2.1
      | false =>
          rw [skipSpace_nextElement] at close
          cases close

/-- The elements of a list are read as the fields, by induction over these. -/
theorem readElements_chars {γ : Type} {layout : Layout γ} (expected : String) (rest : List Char)
    (elements : Elements) (index : Nat) {values : γ}
    (holds : layout.ofElements elements.toList = some values)
    : ∃ behind,
        layout.fields.readElements expected index (elements.chars (index == 0) ++ rest)
          = .ok (values, behind)
        ∧ listEnd behind = .ok rest := by
  induction layout generalizing elements index with
  | done =>
      cases elements with
      | nil gap => exact ⟨_, rfl, listEnd_nil _ gap rest⟩
      | cons before after t others => cases holds
  | @field α β name reader decode follows absent others ih =>
      cases elements with
      | nil gap =>
          obtain ⟨a, missing, holds⟩ := Option.bind_eq_some_iff.1 holds
          obtain ⟨more, later, rfl⟩ := Option.map_eq_some_iff.1 holds
          obtain ⟨behind, read, ends⟩ := ih (.nil gap) (index + 1) later
          refine ⟨behind, ?_, ends⟩
          simp only [Elements.chars] at read
          simp only [fields, Fields.readElements, nextElement_nil, bind, Except.bind, missing]
          simp only [Elements.chars, read]
      | cons before after t more =>
          obtain ⟨a, one, holds⟩ := Option.bind_eq_some_iff.1 holds
          obtain ⟨values, later, rfl⟩ := Option.map_eq_some_iff.1 holds
          obtain ⟨behind, read, ends⟩ := ih more (index + 1) later
          have head := follows.takes one Gap.none (stops_elements more rest)
          simp only [Gap.none, List.nil_append] at head
          have first : (index + 1 == 0) = false := rfl
          rw [first] at read
          refine ⟨behind, ?_, ends⟩
          simp only [fields, Fields.readElements, nextElement_cons, bind, Except.bind, head, read]

/-- Elements that are read as the fields are those of a list, by induction over the fields. -/
theorem readElements_eq_ok {γ : Type} {layout : Layout γ} {expected : String} {index : Nat}
    {text behind rest : List Char} {values : γ}
    (read : layout.fields.readElements expected index text = .ok (values, behind))
    (ends : listEnd behind = .ok rest)
    : ∃ elements : Elements, text = elements.chars (index == 0) ++ rest
        ∧ layout.ofElements elements.toList = some values := by
  induction layout generalizing index text with
  | done =>
      cases read
      obtain ⟨gap, split⟩ := listEnd_eq_ok ends
      exact ⟨.nil gap, split _, rfl⟩
  | @field α β name reader decode follows absent others ih =>
      simp only [fields, Fields.readElements] at read
      obtain ⟨next, start, read⟩ := Outcome.bind_eq_ok.1 read
      cases next with
      | some next =>
          obtain ⟨⟨a, text₁⟩, one, read⟩ := Outcome.bind_eq_ok.1 read
          obtain ⟨⟨more, text₂⟩, later, same⟩ := Outcome.bind_eq_ok.1 read
          cases same
          obtain ⟨before, after, rfl⟩ := nextElement_eq_some start
          obtain ⟨lead, t, rfl, means⟩ := follows.finds one
          obtain ⟨elements, rfl, all⟩ := ih later
          have first : (index + 1 == 0) = false := rfl
          refine ⟨.cons before (after.append lead) t elements, ?_, ?_⟩
          · simp [Elements.chars, Gap.append, first]
          · simp [Elements.toList, ofElements, means, all]
      | none =>
          obtain ⟨close, bracket⟩ := nextElement_eq_none start
          cases absent with
          | none => contradiction
          | some a =>
              obtain ⟨⟨more, text₂⟩, later, same⟩ := Outcome.bind_eq_ok.1 read
              cases same
              obtain ⟨elements, rfl, all⟩ := ih later
              obtain ⟨gap, rfl⟩ := exists_nil_of_skipSpace bracket
              refine ⟨.nil gap, by simp [Elements.chars], ?_⟩
              exact Option.bind_eq_some_iff.2 ⟨a, rfl, Option.map_eq_some_iff.2 ⟨more, all, rfl⟩⟩

-----------------------------------------------------------------------------------------
-- A record follows its layout
-----------------------------------------------------------------------------------------

/-- The reader of a record follows its layout. -/
theorem follows_record {γ : Type} {layout : Layout γ} (distinct : layout.names.Nodup)
    (name : String)
    : (layout.fields.record name).Follows layout.decode where
  takes := by
    intro t values means lead rest stops
    cases t with
    | object members =>
        obtain ⟨entries, named, holds⟩ := Option.bind_eq_some_iff.1 means
        obtain ⟨slots, gathered⟩ := gathered_of_ofMembers holds
        obtain ⟨behind, read, ends⟩ := Gathered.readMembers distinct rest members true
          (show (members.chars true).length < (members.chars true ++ rest).length + 1 by
            rw [List.length_append]; omega) named (gathered_start layout) gathered
        rw [Fields.record, skipSpace_tree, Tree.chars, List.cons_append]
        simp only [bind, Except.bind, read, gathered.complete.2 holds, ends]
    | list elements =>
        rw [Fields.record, skipSpace_tree, Tree.chars, List.cons_append]
        dsimp only
        generalize "struct " ++ name ++ " with " ++ _ ++ _ = expected
        obtain ⟨behind, read, ends⟩ := readElements_chars expected rest elements 0 means
        have first : ((0 : Nat) == 0) = true := rfl
        rw [first] at read
        simp only [bind, Except.bind, read, ends]
    | null | boolean _ | number _ | text _ => contradiction
  finds := by
    intro text rest values read
    unfold Fields.record at read
    split at read
    next inside start =>
      obtain ⟨⟨slots, behind⟩, listed, read⟩ := Outcome.bind_eq_ok.1 read
      obtain ⟨values', whole, read⟩ := Outcome.bind_eq_ok.1 read
      obtain ⟨after, ends, same⟩ := Outcome.bind_eq_ok.1 read
      cases same
      obtain ⟨members, entries, rfl, named, gathered⟩ :=
        Gathered.of_readMembers distinct (gathered_start layout) listed ends
      obtain ⟨lead, rfl⟩ := exists_gap_of_skipSpace start
      refine ⟨lead, .object members, rfl, ?_⟩
      rw [decode, named]
      exact gathered.complete.1 whole
    next inside start =>
      obtain ⟨⟨values', behind⟩, listed, read⟩ := Outcome.bind_eq_ok.1 read
      obtain ⟨after, ends, same⟩ := Outcome.bind_eq_ok.1 read
      cases same
      obtain ⟨elements, rfl, means⟩ := readElements_eq_ok listed ends
      obtain ⟨lead, rfl⟩ := exists_gap_of_skipSpace start
      exact ⟨lead, .list elements, rfl, means⟩
    next => exact absurd read (refuse_ne_ok _ _ _)

end Layout

end Screener.Json
