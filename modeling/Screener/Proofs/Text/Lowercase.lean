import Screener.Text.Blank
import Screener.Text.Lowercase

/-!
Texts that trimming leaves alone, and texts that lowercase character by character, as ASCII
does. Only letters beyond ASCII need more than that, and only a sigma looks beyond itself, though
never past a blank or another character that keeps words apart.
-/

namespace Screener.Text

-----------------------------------------------------------------------------------------
-- Lowercase
-----------------------------------------------------------------------------------------

/-- Blocks without letters that have case: signs of Latin-1, mathematical signs, ideographs
with their neighbours, and fullwidth signs.
-/
def caselessBlocks : List (Nat × Nat) :=
  [(0x80, 0xBF), (0x2200, 0x245F), (0x2E80, 0xA63F), (0xFF00, 0xFF20)]

/-- The character is of ASCII, or has no case. -/
def hasPlainCase (c : Char) : Bool := c.toNat < 128 || inRanges caselessBlocks c

/-- No run of letters reaches into a block without them. -/
theorem letterRuns_apart
    : ∀ run ∈ letterRuns, ∀ block ∈ caselessBlocks,
        run.last < block.1 ∨ block.2 < run.first := by
  decide +kernel

theorem toLower_of_apart {c : Char} (apart : c.toNat < 65 ∨ 90 < c.toNat) : c.toLower = c := by
  unfold Char.toLower
  split
  next h =>
    have first : 65 ≤ c.toNat := h.1
    have last : c.toNat ≤ 90 := h.2
    omega
  next => rfl

/-- A character that no run of letters reaches is lowercased as in ASCII. -/
theorem lowerChar_of_apart {c : Char} (other : c ≠ 'İ')
    (apart : ∀ run ∈ letterRuns, run.last < c.toNat ∨ c.toNat < run.first)
    : lowerChar c = [c.toLower] := by
  unfold lowerChar
  split
  next => rfl
  next large =>
    have none : letterRuns.find? (fun run => run.first ≤ c.toNat && c.toNat ≤ run.last
        && (c.toNat - run.first) % run.step == 0) = none := by
      rw [List.find?_eq_none]
      intro run there
      have outside := apart run there
      simp only [Bool.and_eq_true, decide_eq_true_eq, not_and]
      omega
    rw [none, toLower_of_apart (.inr (by omega))]

/-- Characters with plain case are lowercased as in ASCII. -/
theorem lowerChar_of_plain {c : Char} (plain : hasPlainCase c = true)
    : lowerChar c = [c.toLower] := by
  by_cases small : c.toNat < 128
  · rw [lowerChar, if_pos small]
  have inside : inRanges caselessBlocks c = true := by
    simpa [hasPlainCase, small] using plain
  obtain ⟨block, member, inside⟩ := List.any_eq_true.1 inside
  simp only [Bool.and_eq_true, decide_eq_true_eq] at inside
  refine lowerChar_of_apart ?_ fun run there => ?_
  · rintro rfl
    exact absurd plain (by decide)
  · have apart := letterRuns_apart run there block member
    omega

/-- A text of characters with plain case is lowercased one by one. -/
theorem lower_eq_map {text : List Char} (plain : ∀ c ∈ text, hasPlainCase c = true)
    : lower text = text.map Char.toLower := by
  suffices ∀ seen, lowerAfter seen text = text.map Char.toLower from this []
  induction text with
  | nil => exact fun _ => rfl
  | cons c text ih =>
      intro seen
      have here := plain c (by simp)
      have later := ih fun c member => plain c (List.mem_cons_of_mem _ member)
      have other : c ≠ 'Σ' := by
        rintro rfl
        exact absurd here (by decide)
      simp only [lowerAfter, if_neg other, lowerChar_of_plain here, later, List.map_cons,
        List.singleton_append]

-----------------------------------------------------------------------------------------
-- Characters that keep words apart
-----------------------------------------------------------------------------------------

/-- The character has no case and no lowercase form but itself, and is not seen through when
the end of a word is looked for.
-/
def keepsApart (c : Char) : Bool :=
  !isIgnorable c && !isCased c && c != 'Σ' && lowerChar c == [c]

/-- What lies behind a character that keeps words apart is not looked at. -/
theorem cased_append {c : Char} (apart : keepsApart c = true) (text rest : List Char)
    : cased (text ++ c :: rest) = cased text := by
  simp only [keepsApart, Bool.and_eq_true, Bool.not_eq_true'] at apart
  unfold cased
  rw [List.dropWhile_append]
  cases left : text.dropWhile isIgnorable with
  | nil => simp [apart]
  | cons d others => rfl

theorem lowerAfter_apart {c : Char} (apart : keepsApart c = true) (text front seen : List Char)
    : lowerAfter (front ++ c :: seen) text = lowerAfter front text := by
  induction text generalizing front with
  | nil => rfl
  | cons d text ih =>
      have later := ih (d :: front)
      rw [List.cons_append] at later
      simp only [lowerAfter, cased_append apart, later]

/-- A character that keeps words apart stays in its place, and the texts on both sides of it are
lowercased on their own. By induction on the text before it.
-/
theorem lower_append {c : Char} (apart : keepsApart c = true) (text rest : List Char)
    : lower (text ++ c :: rest) = lower text ++ c :: lower rest := by
  suffices ∀ seen, lowerAfter seen (text ++ c :: rest)
      = lowerAfter seen text ++ c :: lowerAfter [] rest from this []
  induction text with
  | nil =>
      intro seen
      have behind := lowerAfter_apart apart rest [] seen
      simp only [keepsApart, Bool.and_eq_true, bne_iff_ne, beq_iff_eq] at apart
      rw [List.nil_append] at behind
      simp only [List.nil_append, lowerAfter, apart, behind, if_false, List.singleton_append]
  | cons d text ih =>
      intro seen
      simp only [List.cons_append, lowerAfter, cased_append apart, ih, List.append_assoc]

/-- The pieces of a text joined by such a character are lowercased on their own. -/
theorem lower_intercalate {c : Char} (apart : keepsApart c = true) (pieces : List (List Char))
    : lower ([c].intercalate pieces) = [c].intercalate (pieces.map lower) := by
  induction pieces with
  | nil => rfl
  | cons piece pieces ih =>
      cases pieces with
      | nil => simp
      | cons next pieces =>
          simp only [List.map_cons] at ih ⊢
          rw [List.intercalate_cons_cons, List.intercalate_cons_cons, List.append_assoc,
            List.singleton_append, lower_append apart, ih, List.append_assoc,
            List.singleton_append]

/-- Blocks that hold the blanks and the wide comma, and nothing that has case or is seen through.
-/
def apartBlocks : List (Nat × Nat) :=
  [(0, 32), (0x85, 0x85), (0xA0, 0xA0), (0x1680, 0x1680), (0x2000, 0x200A), (0x2028, 0x2029),
    (0x202F, 0x202F), (0x205F, 0x205F), (0x3000, 0x3000), (0xFF0C, 0xFF0C)]

/-- The codes from the first to the last lie outside of these blocks. -/
def outside (first last : Nat) : Bool :=
  apartBlocks.all fun block => last.blt block.1 || block.2.blt first

/-- No table reaches into these blocks. -/
theorem outside_tables
    : ((ignorableRanges ++ casedRanges).all (fun range => outside range.1 range.2)
        && letterRuns.all fun run => outside run.first run.last) = true := by
  decide +kernel

theorem lt_of_outside {first last : Nat} (apart : outside first last = true) {c : Char}
    (inside : inRanges apartBlocks c = true)
    : last < c.toNat ∨ c.toNat < first := by
  obtain ⟨block, member, inside⟩ := List.any_eq_true.1 inside
  have own := List.all_eq_true.1 apart block member
  simp only [Bool.and_eq_true, decide_eq_true_eq] at inside
  simp only [Bool.or_eq_true, Nat.blt_eq] at own
  omega

theorem inRanges_eq_false {ranges : List (Nat × Nat)}
    (apart : ∀ range ∈ ranges, outside range.1 range.2 = true) {c : Char}
    (inside : inRanges apartBlocks c = true)
    : inRanges ranges c = false := by
  rw [inRanges, List.any_eq_false]
  intro range member
  have beside := lt_of_outside (apart range member) inside
  simp only [Bool.and_eq_true, decide_eq_true_eq, not_and]
  omega

theorem keepsApart_of_inRanges {c : Char} (inside : inRanges apartBlocks c = true)
    : keepsApart c = true := by
  have tables := outside_tables
  simp only [Bool.and_eq_true, List.all_eq_true, List.mem_append] at tables
  have ignorable : isIgnorable c = false :=
    inRanges_eq_false (fun range member => tables.1 range (.inl member)) inside
  have cased : isCased c = false :=
    inRanges_eq_false (fun range member => tables.1 range (.inr member)) inside
  have other {d : Char} (elsewhere : inRanges apartBlocks d = false) : c ≠ d := by
    rintro rfl
    rw [inside] at elsewhere
    contradiction
  have same : c.toLower = c := by
    refine toLower_of_apart ?_
    have letters : outside 65 90 = true := by decide
    have apart := lt_of_outside letters inside
    omega
  have lowered : lowerChar c = [c] := by
    rw [lowerChar_of_apart (other (by decide)) fun run member =>
      lt_of_outside (tables.2 run member) inside, same]
  have sigma : c ≠ 'Σ' := other (by decide)
  simp [keepsApart, ignorable, cased, lowered, sigma]

/-- A blank keeps words apart. -/
theorem keepsApart_of_isBlank {c : Char} (blank : isBlank c = true) : keepsApart c = true := by
  refine keepsApart_of_inRanges ?_
  simp only [isBlank, Bool.or_eq_true, Bool.and_eq_true, decide_eq_true_eq, beq_iff_eq] at blank
  simp only [inRanges, apartBlocks, List.any_cons, List.any_nil, Bool.or_eq_true,
    Bool.and_eq_true, decide_eq_true_eq]
  omega

/-- Blanks around a text stay what they are. -/
theorem lower_gaps {gap space : List Char} (left : ∀ c ∈ gap, isBlank c = true)
    (right : ∀ c ∈ space, isBlank c = true) (text : List Char)
    : lower (gap ++ text ++ space) = gap ++ lower text ++ space := by
  have behind : lower (text ++ space) = lower text ++ space := by
    induction space generalizing text with
    | nil => simp
    | cons c space ih =>
        have alone := ih (fun d member => right d (List.mem_cons_of_mem c member)) []
        rw [List.nil_append] at alone
        rw [lower_append (keepsApart_of_isBlank (right c List.mem_cons_self)), alone]
        rfl
  induction gap with
  | nil => exact behind
  | cons c gap ih =>
      have later := ih fun d member => left d (List.mem_cons_of_mem c member)
      have first := lower_append (keepsApart_of_isBlank (left c List.mem_cons_self)) []
        (gap ++ text ++ space)
      rw [List.cons_append, List.cons_append, List.nil_append] at *
      rw [first, later]
      rfl

-----------------------------------------------------------------------------------------
-- Blanks
-----------------------------------------------------------------------------------------

/-- The text neither starts nor ends with a blank, and is not empty. -/
structure Tight (text : List Char) : Prop where
  first : ∃ c rest, text = c :: rest ∧ isBlank c = false
  last : ∃ rest c, text = rest ++ [c] ∧ isBlank c = false

theorem Tight.ne_nil {text : List Char} (tight : Tight text) : text ≠ [] := by
  obtain ⟨c, rest, rfl, _⟩ := tight.first
  simp

/-- A text of characters that are not blank is tight. -/
theorem Tight.of_forall {text : List Char} (some : text ≠ [])
    (all : ∀ c ∈ text, isBlank c = false)
    : Tight text := by
  refine ⟨?_, text.dropLast, text.getLast some, ?_, all _ (List.getLast_mem some)⟩
  · cases text with
    | nil => contradiction
    | cons c rest => exact ⟨c, rest, rfl, all c (by simp)⟩
  · exact (List.dropLast_concat_getLast some).symm

/-- Only the ends of a text make it tight. -/
theorem Tight.append {a b : List Char} (between : List Char) (left : Tight a)
    (right : Tight b)
    : Tight (a ++ between ++ b) := by
  obtain ⟨c, first, rfl, start⟩ := left.first
  obtain ⟨last, d, rfl, stop⟩ := right.last
  exact ⟨⟨c, first ++ between ++ (last ++ [d]), by simp, start⟩,
    ⟨c :: first ++ between ++ last, d, by simp, stop⟩⟩

/-- So tight texts may be joined by any separator. -/
theorem Tight.intercalate (separator : List Char) {pieces : List (List Char)} (some : pieces ≠ [])
    (all : ∀ piece ∈ pieces, Tight piece)
    : Tight (separator.intercalate pieces) := by
  induction pieces with
  | nil => contradiction
  | cons piece pieces ih =>
      obtain ⟨here, later⟩ := List.forall_mem_cons.1 all
      cases pieces with
      | nil => rwa [List.intercalate_singleton]
      | cons next pieces =>
          rw [List.intercalate_cons_cons]
          exact here.append separator (ih (List.cons_ne_nil _ _) later)

theorem trimStart_cons {c : Char} (h : isBlank c = false) (text : List Char)
    : trimStart (c :: text) = c :: text :=
  List.dropWhile_cons_of_neg (by simp [h])

/-- Trimming leaves a tight text as it is. -/
theorem Tight.trim_eq {text : List Char} (tight : Tight text) : trim text = text := by
  have start : trimStart text = text := by
    obtain ⟨c, rest, rfl, first⟩ := tight.first
    exact trimStart_cons first rest
  obtain ⟨rest, c, rfl, last⟩ := tight.last
  rw [trim, start, trimEnd, List.reverse_append, List.reverse_singleton,
    List.singleton_append, List.dropWhile_cons_of_neg (by simp [last])]
  simp

theorem exists_cons_of_dropWhile {text : List Char} (some : text.dropWhile isBlank ≠ [])
    : ∃ c rest, text.dropWhile isBlank = c :: rest ∧ isBlank c = false := by
  cases left : text.dropWhile isBlank with
  | nil => exact absurd left some
  | cons c rest =>
      have first := List.head?_dropWhile_not isBlank text
      rw [left] at first
      exact ⟨c, rest, rfl, by simpa using first⟩

/-- What trimming leaves is tight, if it leaves anything: each end is where the blanks at that
end stop.
-/
theorem tight_trim {text : List Char} (some : trim text ≠ []) : Tight (trim text) := by
  have parts := List.takeWhile_append_dropWhile (p := isBlank) (l := (trimStart text).reverse)
  have left : (trimStart text).reverse.dropWhile isBlank ≠ [] := by
    intro none
    exact some (by simp [trim, trimEnd, none])
  obtain ⟨c, rest, last, solid⟩ := exists_cons_of_dropWhile left
  have whole : trim text = rest.reverse ++ [c] := by
    simp [trim, trimEnd, last]
  have front : trimStart text
      = trim text ++ ((trimStart text).reverse.takeWhile isBlank).reverse := by
    rw [whole, ← List.reverse_cons, ← last, ← List.reverse_append, parts, List.reverse_reverse]
  refine ⟨?_, rest.reverse, c, whole, solid⟩
  have start : text.dropWhile isBlank ≠ [] := by
    intro none
    exact left (by simp [trimStart, none])
  obtain ⟨d, others, first, hard⟩ := exists_cons_of_dropWhile start
  cases kept : trim text with
  | nil => contradiction
  | cons e tail =>
      rw [kept, trimStart, first] at front
      obtain ⟨rfl, _⟩ := List.cons.inj front
      exact ⟨d, tail, rfl, hard⟩

/-- A tight part of a text that stands between blanks stands in the text, since the blanks
reach neither of its ends.
-/
theorem Tight.exists_of_gaps {part gap text space before after : List Char}
    (tight : Tight part) (left : ∀ c ∈ gap, isBlank c = true)
    (right : ∀ c ∈ space, isBlank c = true)
    (whole : gap ++ text ++ space = before ++ part ++ after)
    : ∃ front back, before = gap ++ front ∧ after = back ++ space
        ∧ text = front ++ part ++ back := by
  obtain ⟨c, rest, head, first⟩ := tight.first
  obtain ⟨init, d, foot, last⟩ := tight.last
  have start : ∃ front, before = gap ++ front ∧ text ++ space = front ++ part ++ after := by
    rw [List.append_assoc, List.append_assoc] at whole
    rcases List.append_eq_append_iff.1 whole with ⟨front, rfl, behind⟩ | ⟨extra, rfl, behind⟩
    · exact ⟨front, rfl, behind.trans (List.append_assoc front part after).symm⟩
    · cases extra with
      | nil => exact ⟨[], by simp, by simpa using behind.symm⟩
      | cons e extra =>
          rw [head] at behind
          obtain ⟨rfl, _⟩ := List.cons.inj behind
          simp [left c (by simp)] at first
  obtain ⟨front, before, behind⟩ := start
  rcases List.append_eq_append_iff.1 behind with ⟨extra, stop, rfl⟩ | ⟨back, text, after⟩
  · rcases List.eq_nil_or_concat extra with rfl | ⟨extra, e, rfl⟩
    · exact ⟨front, [], before, rfl, by simpa using stop.symm⟩
    · rw [foot, ← List.append_assoc, List.concat_eq_append, ← List.append_assoc] at stop
      obtain ⟨rfl, _⟩ := List.cons.inj (List.append_inj' stop rfl).2
      simp [right d (by simp)] at last
  · exact ⟨front, back, before, after, text⟩

/-- A text is what trimming leaves, between blanks. -/
theorem exists_gaps_of_trim (text : List Char)
    : ∃ gap space, text = gap ++ trim text ++ space
        ∧ (∀ c ∈ gap, isBlank c = true) ∧ ∀ c ∈ space, isBlank c = true := by
  have blank (text : List Char) : ∀ c ∈ text.takeWhile isBlank, isBlank c = true :=
    fun c member => List.all_eq_true.1 List.all_takeWhile c member
  refine ⟨text.takeWhile isBlank, ((trimStart text).reverse.takeWhile isBlank).reverse, ?_,
    blank text, fun c member => blank _ c (List.mem_reverse.1 member)⟩
  rw [List.append_assoc, trim, trimEnd, ← List.reverse_append, List.takeWhile_append_dropWhile,
    List.reverse_reverse, trimStart, List.takeWhile_append_dropWhile]

/-- Trimming once is enough. -/
theorem trim_trim (text : List Char) : trim (trim text) = trim text := by
  by_cases none : trim text = []
  · rw [none]
    rfl
  · exact (tight_trim none).trim_eq

theorem trimmed_trimmed (text : String) : trimmed (trimmed text) = trimmed text := by
  rw [trimmed, trimmed, String.toList_ofList, trim_trim]

end Screener.Text
