import Screener.Proofs.Json.Documents
import Screener.Proofs.Json.Telling

/-!
What is written for a value is the text of a tree that tells it: on one line or over several, with
the members of its objects as they are stated or in order of key.
-/

namespace Screener.Json

open Value (Fits canonical canonicalElements canonicalMembers chars escaped prettyChars
  prettyElements prettyMembers textChars)

-----------------------------------------------------------------------------------------
-- Characters, strings and numbers
-----------------------------------------------------------------------------------------

/-- A character is written as a piece that spells it. -/
theorem exists_piece (c : Char)
    : ∃ piece : Piece, piece.chars = escaped c
        ∧ ∀ s, Piece.spelled? (piece :: s) = (Piece.spelled? s).map (c :: ·) := by
  obtain ⟨letter, short, _, stands⟩ | ⟨control, numbered⟩ | ⟨quote, slash, plain, same⟩ :=
    escaped_cases c
  · exact ⟨.short letter c stands, short.symm, fun s => by rw [Piece.spelled?]⟩
  · refine ⟨.unit _ _ _ _ c.toNat (hexQuad?_control c.toNat control), numbered.symm, fun s => ?_⟩
    have low : ¬ (0xDC00 ≤ c.toNat ∧ c.toNat ≤ 0xDFFF) := by omega
    have plain : c.toNat < 0xD800 ∨ 0xDBFF < c.toNat := by omega
    rw [Piece.spelled?.eq_def]
    simp only [if_neg low, if_pos plain, Char.ofNat_toNat]
  · exact ⟨.plain c ⟨plain, quote, slash⟩, same.symm, fun s => by rw [Piece.spelled?]⟩

theorem exists_pieces (cs : List Char)
    : ∃ s, Piece.quoted s = cs.flatMap escaped ++ ['"'] ∧ Piece.spelled? s = some cs := by
  induction cs with
  | nil => exact ⟨[], rfl, rfl⟩
  | cons c cs ih =>
      obtain ⟨piece, same, spells⟩ := exists_piece c
      obtain ⟨s, text, spelled⟩ := ih
      refine ⟨piece :: s, ?_, by rw [spells, spelled]; rfl⟩
      rw [Piece.quoted, List.flatMap_cons, same, List.append_assoc, ← Piece.quoted, text,
        List.flatMap_cons, List.append_assoc]

/-- A string is written as pieces that spell it. -/
theorem exists_text (name : String)
    : ∃ s, textChars name = '"' :: Piece.quoted s
        ∧ ∃ cs, Piece.spelled? s = some cs ∧ String.ofList cs = name := by
  obtain ⟨s, text, spelled⟩ := exists_pieces name.toList
  exact ⟨s, by rw [text]; rfl, name.toList, spelled, String.ofList_toList⟩

theorem exists_numberText {n : Number} (fits : n.Fits)
    : ∃ text : NumberText, text.chars = Value.numberChars n ∧ text.number? = some n := by
  obtain ⟨numeral, proper, text, rfl⟩ := exists_numeral fits
  refine ⟨⟨numeral, proper, _, powers_exponentText numeral.exponent⟩, text.symm, ?_⟩
  unfold NumberText.number?
  split
  next v same =>
    have same : numeral.number = .float v := same
    rw [same] at fits ⊢
    exact if_pos fits
  next => rfl

-----------------------------------------------------------------------------------------
-- Lists and objects with any gaps between their parts
-----------------------------------------------------------------------------------------

/-- The value has a tree that tells it with this text. -/
def Value.HasTree (v : Value) (text : List Char) : Prop :=
  ∃ t : Tree, t.chars = text ∧ t.Tells v

/-- Texts one behind the other, each behind a gap, and all but the first behind a comma. -/
def parted (first : Bool) (lead : Gap) : List (List Char) → List Char
  | [] => []
  | text :: texts => separator first ++ (lead.chars ++ (text ++ parted false lead texts))

theorem exists_elements {print : Value → List Char} {values : List Value} (lead trail : Gap)
    (each : ∀ v ∈ values, v.HasTree (print v))
    : ∃ (elements : Elements) (parts : List (Tree × Value)),
        (∀ first, elements.chars first
          = parted first lead (values.map print) ++ (trail.chars ++ [']']))
        ∧ elements.toList = parts.map (·.1) ∧ values = parts.map (·.2)
        ∧ ∀ part ∈ parts, part.1.Tells part.2 := by
  induction values with
  | nil => exact ⟨.nil trail, [], fun _ => rfl, rfl, rfl, List.forall_mem_nil _⟩
  | cons v values ih =>
      obtain ⟨⟨t, text, tells⟩, each⟩ := List.forall_mem_cons.1 each
      obtain ⟨elements, parts, texts, listed, same, all⟩ := ih each
      refine ⟨.cons .none lead t elements, (t, v) :: parts, fun first => ?_, ?_, ?_,
        List.forall_mem_cons.2 ⟨tells, all⟩⟩
      · rw [Elements.chars, texts, text]
        simp [Gap.none, parted]
      · rw [Elements.toList, listed, List.map_cons]
      · rw [same, List.map_cons, ← same]

theorem exists_members {print : Value → List Char} {stated : List (String × Value)}
    (lead behind trail : Gap) (each : ∀ entry ∈ stated, entry.2.HasTree (print entry.2))
    : ∃ (members : Members) (held : List (String × Tree × Value)),
        (∀ first, members.chars first
          = parted first lead (stated.map fun entry =>
              textChars entry.1 ++ ':' :: (behind.chars ++ print entry.2))
            ++ (trail.chars ++ ['\x7d']))
        ∧ members.named? = some (held.map fun part => (part.1, part.2.1))
        ∧ stated = held.map (fun part => (part.1, part.2.2))
        ∧ ∀ part ∈ held, part.2.1.Tells part.2.2 := by
  induction stated with
  | nil => exact ⟨.nil trail, [], fun _ => rfl, rfl, rfl, List.forall_mem_nil _⟩
  | cons entry stated ih =>
      obtain ⟨name, v⟩ := entry
      obtain ⟨⟨t, text, tells⟩, each⟩ := List.forall_mem_cons.1 each
      obtain ⟨members, held, texts, named, same, all⟩ := ih each
      obtain ⟨s, quoted, cs, spelled, rfl⟩ := exists_text name
      refine ⟨.cons .none lead ⟨s, .none, behind⟩ t members,
        (String.ofList cs, t, v) :: held, fun first => ?_, ?_, ?_,
        List.forall_mem_cons.2 ⟨tells, all⟩⟩
      · rw [Members.chars, texts, text]
        simp [Gap.none, Key.chars, parted, quoted]
      · rw [Members.named?, spelled, named]
        rfl
      · rw [same, List.map_cons, ← same]

theorem hasTree_list {print : Value → List Char} {values : List Value} (lead trail : Gap)
    (each : ∀ v ∈ values, v.HasTree (print v))
    : (Value.list values).HasTree
        ('[' :: (parted true lead (values.map print) ++ (trail.chars ++ [']']))) := by
  obtain ⟨elements, parts, texts, listed, same, all⟩ := exists_elements lead trail each
  exact ⟨.list elements, by rw [Tree.chars, texts], .list listed same all⟩

theorem hasTree_object {print : Value → List Char} {stated : List (String × Value)}
    (lead behind trail : Gap) (each : ∀ entry ∈ stated, entry.2.HasTree (print entry.2))
    : (Value.object stated).HasTree
        ('\x7b' :: (parted true lead (stated.map fun entry =>
            textChars entry.1 ++ ':' :: (behind.chars ++ print entry.2))
          ++ (trail.chars ++ ['\x7d']))) := by
  obtain ⟨members, held, texts, named, same, all⟩ := exists_members lead behind trail each
  refine ⟨.object members, by rw [Tree.chars, texts], ?_⟩
  exact .object named (.of_eq (List.append_nil _).symm) same all (List.forall_mem_nil _)

-----------------------------------------------------------------------------------------
-- A value on one line
-----------------------------------------------------------------------------------------

theorem listed_eq (first : Bool) (values : List Value)
    : listed first values = parted first .none (values.map chars) := by
  induction values generalizing first with
  | nil => rfl
  | cons v values ih => rw [listed, ih, List.map_cons, parted]; rfl

theorem joined_eq (first : Bool) (stated : List (String × Value))
    : joined first stated = parted first .none (stated.map fun entry =>
        textChars entry.1 ++ ':' :: (Gap.none.chars ++ chars entry.2)) := by
  induction stated generalizing first with
  | nil => rfl
  | cons entry stated ih =>
      rw [joined, ih, List.map_cons, parted]
      simp [Gap.none]

/-- A value that fits is written as a tree that tells it. By induction on why it fits, with one
case for each kind of value.
-/
theorem hasTree_of_fits {depth : Nat} {v : Value} (fits : Fits depth v)
    : v.HasTree (chars v) := by
  induction fits with
  | null => exact ⟨.null, by rw [chars]; rfl, .null⟩
  | boolean b => exact ⟨.boolean b, by cases b <;> (rw [chars]; rfl), .boolean b⟩
  | number fits =>
      obtain ⟨n, text, means⟩ := exists_numberText fits
      exact ⟨.number n, by rw [chars, ← text]; rfl, .number means⟩
  | text name =>
      obtain ⟨s, quoted, cs, spelled, rfl⟩ := exists_text name
      exact ⟨.text s, by rw [chars, quoted]; rfl, .text spelled⟩
  | list _ ih =>
      rw [chars, elementChars_eq, listed_eq]
      exact hasTree_list .none .none ih
  | object _ ih =>
      rw [chars, memberChars_eq, joined_eq]
      exact hasTree_object .none .none .none ih

-----------------------------------------------------------------------------------------
-- A value over several lines
-----------------------------------------------------------------------------------------

/-- The start of a line at a depth. -/
def Gap.line (depth : Nat) : Gap where
  chars := '\n' :: List.replicate (2 * depth) ' '
  spaces := by
    refine List.forall_mem_cons.2 ⟨rfl, fun c member => ?_⟩
    rw [List.eq_of_mem_replicate member]
    rfl

def Gap.space : Gap := ⟨[' '], by simp [isSpace]⟩

/-- A comma behind an element that is not the last one is a comma before the next. -/
theorem prettyElements_eq (depth : Nat) (first : Bool) (values : List Value)
    : (if values.isEmpty then [] else separator first) ++ prettyElements depth values
        = parted first (.line (depth + 1)) (values.map (prettyChars (depth + 1))) := by
  induction values generalizing first with
  | nil => rfl
  | cons v values ih =>
      rw [prettyElements, List.map_cons, parted, ← ih]
      simp only [List.isEmpty_cons, List.append_assoc]
      rfl

theorem prettyMembers_eq (depth : Nat) (first : Bool) (stated : List (String × Value))
    : (if stated.isEmpty then [] else separator first) ++ prettyMembers depth stated
        = parted first (.line (depth + 1)) (stated.map fun entry =>
            textChars entry.1 ++ ':' :: (Gap.space.chars ++ prettyChars (depth + 1) entry.2)) := by
  induction stated generalizing first with
  | nil => rfl
  | cons entry stated ih =>
      rw [prettyMembers, List.map_cons, parted, ← ih]
      simp only [List.isEmpty_cons, List.append_assoc]
      rfl

/-- The same over several lines, whatever the depth is. -/
theorem hasTree_of_fits_lines {depth : Nat} {v : Value} (fits : Fits depth v) (indent : Nat)
    : v.HasTree (prettyChars indent v) := by
  induction fits generalizing indent with
  | null => exact ⟨.null, by rw [prettyChars]; rfl, .null⟩
  | boolean b => exact ⟨.boolean b, by cases b <;> (rw [prettyChars]; rfl), .boolean b⟩
  | number fits =>
      obtain ⟨n, text, means⟩ := exists_numberText fits
      exact ⟨.number n, by rw [prettyChars, ← text]; rfl, .number means⟩
  | text name =>
      obtain ⟨s, quoted, cs, spelled, rfl⟩ := exists_text name
      exact ⟨.text s, by rw [prettyChars, quoted]; rfl, .text spelled⟩
  | @list _ values _ ih =>
      cases values with
      | nil => exact @hasTree_list chars _ .none .none (List.forall_mem_nil _)
      | cons v values =>
          have lines := hasTree_list (.line (indent + 1)) (.line indent)
            fun v member => ih v member (indent + 1)
          rw [← prettyElements_eq] at lines
          rw [prettyChars, List.append_assoc]
          · exact lines
          · exact List.cons_ne_nil _ _
  | @object _ stated _ ih =>
      cases stated with
      | nil => exact @hasTree_object chars _ .none .none .none (List.forall_mem_nil _)
      | cons entry stated =>
          have lines := hasTree_object (.line (indent + 1)) .space (.line indent)
            fun entry member => ih entry member (indent + 1)
          rw [← prettyMembers_eq] at lines
          rw [prettyChars, List.append_assoc]
          · exact lines
          · exact List.cons_ne_nil _ _

-----------------------------------------------------------------------------------------
-- A value with its members in order of key
-----------------------------------------------------------------------------------------

/-- Lists with one image are paired, place by place. -/
theorem exists_paired {α β γ : Type} {f : α → γ} {g : β → γ} {as : List α} {bs : List β}
    (same : as.map f = bs.map g)
    : ∃ pairs : List (α × β), as = pairs.map (·.1) ∧ bs = pairs.map (·.2)
        ∧ ∀ pair ∈ pairs, f pair.1 = g pair.2 := by
  induction as generalizing bs with
  | nil =>
      obtain rfl := List.map_eq_nil_iff.1 same.symm
      exact ⟨[], rfl, rfl, List.forall_mem_nil _⟩
  | cons a as ih =>
      obtain ⟨b, others, rfl, here, later⟩ := List.map_eq_cons_iff.1 same.symm
      obtain ⟨pairs, rfl, rfl, all⟩ := ih later.symm
      exact ⟨(a, b) :: pairs, rfl, rfl, List.forall_mem_cons.2 ⟨here.symm, all⟩⟩

namespace Tree.Tells

variable {f : Value → Value} {t : Tree}

/-- What tells elements in another form tells the elements, if this is so for each of them. -/
theorem list_of_map {values : List Value}
    (each : ∀ v ∈ values, ∀ t : Tree, t.Tells (f v) → t.Tells v)
    (tells : t.Tells (.list (values.map f)))
    : t.Tells (.list values) := by
  cases tells with
  | list listed same all =>
      obtain ⟨pairs, rfl, rfl, paired⟩ := exists_paired same
      rw [List.map_map] at listed
      refine @Tree.Tells.list _ _ (pairs.map fun pair => (pair.2.1, pair.1)) ?_ ?_ ?_
      · rw [listed, List.map_map]
        rfl
      · rw [List.map_map]
        rfl
      · refine List.forall_mem_map.2 fun pair member => ?_
        refine each _ (List.mem_map.2 ⟨pair, member, rfl⟩) _ ?_
        rw [paired pair member]
        exact all _ (List.mem_map.2 ⟨pair, member, rfl⟩)

theorem object_of_map {stated : List (String × Value)}
    (each : ∀ entry ∈ stated, ∀ t : Tree, t.Tells (f entry.2) → t.Tells entry.2)
    (tells : t.Tells (.object (stated.map fun entry => (entry.1, f entry.2))))
    : t.Tells (.object stated) := by
  cases t with
  | object members =>
      cases tells with
      | @object _ entries added _ _ named mixed same all fresh =>
          obtain ⟨pairs, rfl, rfl, paired⟩ := exists_paired same
          rw [List.map_map] at mixed
          have keys : ∀ pair ∈ pairs, pair.1.1 = pair.2.1 := fun pair member =>
            congrArg Prod.fst (paired pair member)
          refine @Tree.Tells.object _ entries added _
            (pairs.map fun pair => (pair.2.1, pair.2.2.1, pair.1.2)) named ?_ ?_ ?_ ?_
          · rw [List.map_map]
            exact mixed
          · rw [List.map_map]
            exact List.map_congr_left fun pair member => Prod.ext (keys pair member) rfl
          · refine List.forall_mem_map.2 fun pair member => ?_
            refine each _ (List.mem_map.2 ⟨pair, member, rfl⟩) _ ?_
            have told := all _ (List.mem_map.2 ⟨pair, member, rfl⟩)
            rwa [← congrArg Prod.snd (paired pair member)] at told
          · intro entry member inside
            refine fresh entry member ?_
            rwa [List.map_map]
  | null | boolean _ | number _ | text _ | list _ => cases tells

/-- What tells a value in canonical form tells the value. By induction on the value: the members
of an object are the same up to their order.
-/
theorem of_canonical {v : Value} (distinct : v.Distinct) (tells : t.Tells v.canonical)
    : t.Tells v := by
  induction distinct generalizing t with
  | null | boolean | number | text => exact tells
  | list _ ih =>
      rw [canonical, canonicalElements_eq_map] at tells
      exact list_of_map (fun v member _ => ih v member) tells
  | object names _ ih =>
      have reordered := Tree.Tells.perm tells (@canonicalMembers_perm _ [] names)
      exact object_of_map (fun entry member _ => ih entry member) reordered

end Tree.Tells

-----------------------------------------------------------------------------------------
-- All that is printed for a value tells it
-----------------------------------------------------------------------------------------

/-- What is printed for a value: on one line or over several, with its members as they are stated
or in order of key.
-/
def Value.texts (v : Value) : List String :=
  [v.render, v.renderLines, v.canonical.render, v.canonical.renderLines]

theorem Value.HasTree.exists_written {v : Value} {text : List Char} (h : v.HasTree text)
    : ∃ w : Written, w.text = String.ofList text ∧ w.tree.Tells v := by
  obtain ⟨t, rfl, tells⟩ := h
  exact ⟨⟨.none, t, .none⟩, by simp [Written.text, Gap.none], tells⟩

/-- The text of a value that fits is that of a tree that tells it. -/
theorem exists_written {depth : Nat} {v : Value} (fits : Fits depth v)
    : ∃ w : Written, w.text = v.render ∧ w.tree.Tells v :=
  (hasTree_of_fits fits).exists_written

/-- Each text that is printed for a value is that of a tree that tells it. -/
theorem exists_written_of_mem_texts {depth : Nat} {v : Value} (fits : Fits depth v)
    (distinct : v.Distinct) {text : String} (printed : text ∈ v.texts)
    : ∃ w : Written, w.text = text ∧ w.tree.Tells v := by
  have sorted := fits_canonical fits
  simp only [Value.texts, List.mem_cons, List.not_mem_nil, or_false] at printed
  rcases printed with rfl | rfl | rfl | rfl
  · exact exists_written fits
  · exact (hasTree_of_fits_lines fits 0).exists_written
  · obtain ⟨w, text, tells⟩ := exists_written sorted
    exact ⟨w, text, tells.of_canonical distinct⟩
  · obtain ⟨w, text, tells⟩ := (hasTree_of_fits_lines sorted 0).exists_written
    exact ⟨w, text, tells.of_canonical distinct⟩

/-- The text is printed for the value, or is that of a tree that tells it. -/
def Value.ToldBy (v : Value) (text : String) : Prop :=
  text ∈ v.texts ∨ ∃ w : Written, w.text = text ∧ w.tree.Tells v

theorem Value.ToldBy.exists_written {depth : Nat} {v : Value} (fits : Fits depth v)
    (distinct : v.Distinct) {text : String} (told : v.ToldBy text)
    : ∃ w : Written, w.text = text ∧ w.tree.Tells v :=
  told.elim (exists_written_of_mem_texts fits distinct) id

end Screener.Json
