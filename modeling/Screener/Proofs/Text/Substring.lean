import Screener.Text.Substring

/-!
Words found in a text. A word is found at its first place, and a larger text only makes what
follows that place longer. A text avoids a word if the word differs from it at every place,
which no continuation of the text can undo.
-/

namespace Screener.Text

-----------------------------------------------------------------------------------------
-- Words that are found
-----------------------------------------------------------------------------------------

/-- A word starts a text if the text is the word and what follows. -/
theorem afterWord?_eq_some_iff {word text rest : List Char}
    : afterWord? word text = some rest ↔ text = word ++ rest := by
  induction word generalizing text with
  | nil => simp [afterWord?, eq_comm]
  | cons w word ih =>
      cases text with
      | nil => simp [afterWord?]
      | cons c text =>
          by_cases same : w = c
          · subst same
            simp [afterWord?, ih]
          · simp [afterWord?, same, Ne.symm same]

/-- What follows the first place of a word follows it there. -/
theorem append_of_afterFirst? {word text rest : List Char}
    (found : afterFirst? word text = some rest)
    : ∃ before, text = before ++ word ++ rest := by
  induction text with
  | nil =>
      cases word with
      | nil => exact ⟨[], by simpa [afterFirst?] using found⟩
      | cons w word => simp [afterFirst?] at found
  | cons c text ih =>
      unfold afterFirst? at found
      split at found
      · next rest' starts =>
          cases found
          exact ⟨[], by simpa using afterWord?_eq_some_iff.1 starts⟩
      · obtain ⟨before, eq⟩ := ih found
        exact ⟨c :: before, by simp [eq]⟩

/-- A word that stands in a text is found, at that place or before it. -/
theorem afterFirst?_of_append (word before rest : List Char)
    : ∃ found, afterFirst? word (before ++ word ++ rest) = some found ∧ rest <:+ found := by
  induction before with
  | nil =>
      refine ⟨rest, ?_, List.suffix_refl rest⟩
      have starts : afterWord? word (word ++ rest) = some rest := afterWord?_eq_some_iff.2 rfl
      cases word with
      | nil => cases rest <;> simp_all [afterFirst?, afterWord?]
      | cons w word =>
          simp only [List.nil_append, List.cons_append] at starts ⊢
          simp [afterFirst?, starts]
  | cons c before ih =>
      simp only [List.cons_append]
      unfold afterFirst?
      split
      · next found starts =>
          refine ⟨found, rfl, ?_⟩
          have eq := afterWord?_eq_some_iff.1 starts
          have long : rest.length ≤ found.length := by
            have lengths := congrArg List.length eq
            simp only [List.length_cons, List.length_append] at lengths
            omega
          have whole : rest <:+ c :: (before ++ word ++ rest) := ⟨c :: (before ++ word), by simp⟩
          exact List.suffix_of_suffix_length_le whole ⟨word, eq.symm⟩ long
      · exact ih

/-- What is found in a part of a text leaves at most what is found in the whole. -/
theorem afterFirst?_mono {word text rest : List Char} (before after : List Char)
    (found : afterFirst? word text = some rest)
    : ∃ found', afterFirst? word (before ++ text ++ after) = some found'
      ∧ rest ++ after <:+ found' := by
  obtain ⟨start, rfl⟩ := append_of_afterFirst? found
  simpa using afterFirst?_of_append word (before ++ start) (rest ++ after)

-----------------------------------------------------------------------------------------
-- Parts of a text
-----------------------------------------------------------------------------------------

/-- A word stands in a text if it is a part of it. -/
theorem contains_iff {word text : List Char} : contains word text = true ↔ word <:+: text := by
  have starts {text : List Char} : (afterWord? word text).isSome = true ↔ word <+: text := by
    simp only [Option.isSome_iff_exists, afterWord?_eq_some_iff]
    exact exists_congr fun rest => eq_comm
  induction text with
  | nil => simp [contains]
  | cons c text ih =>
      rw [contains, Bool.or_eq_true, List.infix_cons_iff]
      exact or_congr starts ih

/-- A word without a character starts a text no later than that character stands in it. -/
theorem prefix_append_cons_iff {word : List Char} {c : Char} (apart : c ∉ word)
    {left right : List Char}
    : word <+: left ++ c :: right ↔ word <+: left := by
  refine ⟨fun starts => ?_, fun starts => starts.trans (List.prefix_append _ _)⟩
  induction left generalizing word with
  | nil =>
      cases word with
      | nil => exact List.nil_prefix
      | cons w word =>
          obtain ⟨rfl, _⟩ := List.cons_prefix_cons.1 starts
          simp at apart
  | cons d left ih =>
      cases word with
      | nil => exact List.nil_prefix
      | cons w word =>
          obtain ⟨rfl, tail⟩ := List.cons_prefix_cons.1 starts
          exact List.cons_prefix_cons.2 ⟨rfl, ih (fun there => apart (by simp [there])) tail⟩

/-- A word without a character stands before it or behind it. -/
theorem infix_append_cons_iff {word : List Char} {c : Char} (apart : c ∉ word)
    {left right : List Char}
    : word <:+: left ++ c :: right ↔ word <:+: left ∨ word <:+: right := by
  induction left with
  | nil =>
      rw [List.nil_append, List.infix_cons_iff, ← List.nil_append (c :: right),
        prefix_append_cons_iff apart, List.infix_nil, List.prefix_nil]
  | cons d left ih =>
      rw [List.cons_append, List.infix_cons_iff, ih, ← List.cons_append,
        prefix_append_cons_iff apart, List.infix_cons_iff, or_assoc]

/-- A word without the separator stands in a joined text if it stands in one of its pieces. -/
theorem infix_intercalate_iff {word : List Char} {c : Char} (some : word ≠ [])
    (apart : c ∉ word) {pieces : List (List Char)}
    : word <:+: [c].intercalate pieces ↔ ∃ piece ∈ pieces, word <:+: piece := by
  induction pieces with
  | nil => simp [some]
  | cons piece pieces ih =>
      cases pieces with
      | nil => simp
      | cons next pieces =>
          rw [List.intercalate_cons_cons, List.append_assoc, List.singleton_append,
            infix_append_cons_iff apart, ih]
          simp

-----------------------------------------------------------------------------------------
-- Words that are avoided
-----------------------------------------------------------------------------------------

/-- The word and the text differ at a place that both have. -/
def clashes : (word text : List Char) → Bool
  | w :: word, c :: text => w != c || clashes word text
  | _, _ => false

/-- The word clashes with the text from every place on. -/
def avoids (word : List Char) : List Char → Bool
  | [] => true
  | c :: text => clashes word (c :: text) && avoids word text

theorem clashes_append {word text : List Char} (clash : clashes word text = true)
    (rest : List Char)
    : clashes word (text ++ rest) = true := by
  induction word generalizing text with
  | nil => simp [clashes] at clash
  | cons w word ih =>
      cases text with
      | nil => simp [clashes] at clash
      | cons c text =>
          simp only [clashes, List.cons_append, Bool.or_eq_true] at clash ⊢
          exact clash.imp_right ih

/-- A text that clashes with a word cannot be continued to start with it. -/
theorem afterWord?_of_clashes {word text : List Char} (clash : clashes word text = true)
    (rest : List Char)
    : afterWord? word (text ++ rest) = none := by
  induction word generalizing text with
  | nil => simp [clashes] at clash
  | cons w word ih =>
      cases text with
      | nil => simp [clashes] at clash
      | cons c text =>
          simp only [clashes, Bool.or_eq_true, bne_iff_ne, ne_eq] at clash
          simp only [List.cons_append, afterWord?]
          split
          next same => exact ih (clash.resolve_left (not_not_intro same))
          next => rfl

theorem avoids_append {word text rest : List Char} (left : avoids word text = true)
    (right : avoids word rest = true)
    : avoids word (text ++ rest) = true := by
  induction text with
  | nil => exact right
  | cons c text ih =>
      simp only [avoids, List.cons_append, Bool.and_eq_true] at left ⊢
      exact ⟨clashes_append left.1 rest, ih left.2⟩

/-- A text avoids a word that starts with none of its characters. -/
theorem avoids_of_forall {word text : List Char}
    (clash : ∀ c ∈ text, clashes word [c] = true)
    : avoids word text = true := by
  induction text with
  | nil => rfl
  | cons c text ih =>
      simp only [avoids, Bool.and_eq_true]
      exact ⟨clashes_append (clash c (by simp)) text,
        ih fun c member => clash c (by simp [member])⟩

/-- A word is looked for behind a text that avoids it. -/
theorem afterFirst?_append {word text : List Char} (avoid : avoids word text = true)
    (rest : List Char)
    : afterFirst? word (text ++ rest) = afterFirst? word rest := by
  induction text with
  | nil => rfl
  | cons c text ih =>
      simp only [avoids, Bool.and_eq_true] at avoid
      have none := afterWord?_of_clashes avoid.1 rest
      simp only [List.cons_append] at none ⊢
      simp only [afterFirst?, none]
      exact ih avoid.2

-----------------------------------------------------------------------------------------
-- Joined texts
-----------------------------------------------------------------------------------------

/-- The characters of a joined text are those of its pieces and of the separator. -/
theorem forall_mem_intercalate {P : Char → Prop} {separator : List Char}
    {pieces : List (List Char)} (between : ∀ c ∈ separator, P c)
    (all : ∀ piece ∈ pieces, ∀ c ∈ piece, P c)
    : ∀ c ∈ separator.intercalate pieces, P c := by
  induction pieces with
  | nil => simp
  | cons piece pieces ih =>
      have here := all piece (by simp)
      have later := ih fun piece member => all piece (List.mem_cons_of_mem _ member)
      cases pieces with
      | nil => simpa using here
      | cons next pieces =>
          intro c member
          rw [List.intercalate_cons_cons, List.mem_append, List.mem_append] at member
          rcases member with (member | member) | member
          · exact here c member
          · exact between c member
          · exact later c member

/-- What characters are spelled out to goes through to the pieces. -/
theorem flatMap_intercalate {α : Type} (f : Char → List α) (separator : List Char)
    (pieces : List (List Char))
    : (separator.intercalate pieces).flatMap f
      = (separator.flatMap f).intercalate (pieces.map (List.flatMap f)) := by
  induction pieces with
  | nil => rfl
  | cons piece pieces ih =>
      cases pieces with
      | nil => simp
      | cons next pieces =>
          simp only [List.map_cons] at ih ⊢
          simp only [List.intercalate_cons_cons, List.flatMap_append, ih]

/-- A map of characters goes through to the pieces. -/
theorem map_intercalate (f : Char → Char) (separator : List Char) (pieces : List (List Char))
    : (separator.intercalate pieces).map f
      = (separator.map f).intercalate (pieces.map (List.map f)) := by
  induction pieces with
  | nil => rfl
  | cons piece pieces ih =>
      cases pieces with
      | nil => simp
      | cons next pieces =>
          simp only [List.map_cons] at ih ⊢
          simp only [List.intercalate_cons_cons, List.map_append, ih]

/-- A piece stands in a joined text. -/
theorem intercalate_of_mem (separator : List Char) {piece : List Char}
    {pieces : List (List Char)} (member : piece ∈ pieces)
    : ∃ before after, separator.intercalate pieces = before ++ piece ++ after := by
  induction pieces with
  | nil => contradiction
  | cons first pieces ih =>
      cases pieces with
      | nil =>
          obtain rfl := List.mem_singleton.1 member
          exact ⟨[], [], by simp⟩
      | cons next pieces =>
          rw [List.intercalate_cons_cons]
          rcases List.mem_cons.1 member with rfl | member
          · exact ⟨[], separator ++ separator.intercalate (next :: pieces), by simp⟩
          · obtain ⟨before, after, eq⟩ := ih member
            exact ⟨first ++ separator ++ before, after, by simp [eq]⟩

/-- A joined text is not empty if one of its pieces is not. -/
theorem intercalate_ne_empty {separator text : String} {texts : List String}
    (member : text ∈ texts) (some : text ≠ "")
    : String.intercalate separator texts ≠ "" := by
  intro empty
  obtain ⟨before, after, whole⟩ := intercalate_of_mem separator.toList
    (List.mem_map_of_mem (f := String.toList) member)
  rw [← String.toList_intercalate, empty, String.toList_empty] at whole
  have letters : text.toList = [] :=
    (List.append_eq_nil_iff.1 (List.append_eq_nil_iff.1 whole.symm).1).2
  exact some (String.toList_eq_nil_iff.1 letters)

end Screener.Text
