import Screener.Proofs.Json.Tree

/-!
A value that is passed over is the text of a tree, and every tree is passed over. The readers of
values, elements and members lean on each other with less fuel, so both directions are shown for
all three at once, by induction on fuel.
-/

namespace Screener.Json

open Decimal (isDigit)

-----------------------------------------------------------------------------------------
-- Trees are passed over
-----------------------------------------------------------------------------------------

/-- With some fuel, trees of less than half its length are passed over. -/
structure Passes (fuel : Nat) : Prop where
  value {t : Tree} (enough : 2 * t.chars.length ≤ fuel) (lead : Gap) {rest : List Char}
    (stops : Stops rest)
    : passValue fuel (lead.chars ++ (t.chars ++ rest)) = .ok rest
  elements {t : Tree} {others : Elements}
    (enough : 2 * (t.chars.length + (others.chars false).length) ≤ fuel) (lead : Gap)
    (rest : List Char)
    : passElements fuel (lead.chars ++ (t.chars ++ (others.chars false ++ rest))) = .ok rest
  members (key : Key) {t : Tree} {others : Members}
    (enough : 2 * (t.chars.length + (others.chars false).length) ≤ fuel) (lead : Gap)
    (rest : List Char)
    : passMembers fuel (lead.chars ++ (key.chars ++ (t.chars ++ (others.chars false ++ rest))))
      = .ok rest

theorem passValue_number (n : NumberText) (fuel : Nat) (lead : Gap) {rest : List Char}
    (stops : Stops rest)
    : passValue (fuel + 1) (lead.chars ++ (n.chars ++ rest)) = .ok rest := by
  have read := numeral_numberText n stops
  obtain ⟨c, text, front, starts⟩ := n.chars_head
  have plain := (Starts.of_number starts).plain
  have other := Starts.number_only starts
  simp only [List.mem_cons, List.not_mem_nil, or_false, not_or] at other
  rw [front, List.cons_append] at read ⊢
  rw [passValue, skipSpace_gap_cons lead plain.1]
  simp [other, starts, passNumber, read]

namespace Passes

variable {fuel : Nat}

theorem value_list (h : Passes fuel) {elements : Elements}
    (enough : 2 * (elements.chars true).length ≤ fuel) (lead : Gap) (rest : List Char)
    : passValue (fuel + 1) (lead.chars ++ ('[' :: (elements.chars true ++ rest))) = .ok rest := by
  rw [passValue, skipSpace_gap_cons lead (by decide)]
  cases elements with
  | nil gap => simp [skipSpace_lastElement]
  | cons before after t others =>
      simp only [Elements.chars, List.length_append] at enough
      have room : 2 * (t.chars.length + (others.chars false).length) ≤ fuel := by omega
      have inner := h.elements room Gap.none rest
      obtain ⟨c, text, front, starts, _⟩ := t.chars_head
      simp only [skipSpace_firstElement, front, List.cons_append] at inner ⊢
      simp [starts.plain.2.1]
      exact inner

theorem value_object (h : Passes fuel) {members : Members}
    (enough : 2 * (members.chars true).length ≤ fuel) (lead : Gap) (rest : List Char)
    : passValue (fuel + 1) (lead.chars ++ ('\x7b' :: (members.chars true ++ rest)))
      = .ok rest := by
  rw [passValue, skipSpace_gap_cons lead (by decide)]
  cases members with
  | nil gap => simp [skipSpace_lastMember]
  | cons before after key t others =>
      simp only [Members.chars, List.length_append] at enough
      have room : 2 * (t.chars.length + (others.chars false).length) ≤ fuel := by omega
      have inner := h.members key room Gap.none rest
      simp only [skipSpace_firstMember, Key.chars_append] at inner ⊢
      exact inner

theorem value_succ (h : Passes fuel) {t : Tree} (enough : 2 * t.chars.length ≤ fuel + 1)
    (lead : Gap) {rest : List Char} (stops : Stops rest)
    : passValue (fuel + 1) (lead.chars ++ (t.chars ++ rest)) = .ok rest := by
  cases t with
  | null =>
      rw [passValue, Tree.chars, List.cons_append, skipSpace_gap_cons lead (by decide)]
      rfl
  | boolean b =>
      cases b
      all_goals
        rw [passValue, Tree.chars, List.cons_append, skipSpace_gap_cons lead (by decide)]
        rfl
  | number n => exact passValue_number n fuel lead stops
  | text s =>
      rw [passValue, Tree.chars, List.cons_append, skipSpace_gap_cons lead (by decide)]
      exact Piece.passString_quoted s rest
  | list elements =>
      rw [Tree.chars, List.length_cons] at enough
      exact h.value_list (by omega) lead rest
  | object members =>
      rw [Tree.chars, List.length_cons] at enough
      exact h.value_object (by omega) lead rest

theorem elements_succ (h : Passes fuel) {t : Tree} {others : Elements}
    (enough : 2 * (t.chars.length + (others.chars false).length) ≤ fuel + 1) (lead : Gap)
    (rest : List Char)
    : passElements (fuel + 1) (lead.chars ++ (t.chars ++ (others.chars false ++ rest)))
      = .ok rest := by
  have some := t.length_pos
  cases others with
  | nil gap =>
      simp only [Elements.chars, List.length_append, List.length_singleton] at enough
      have room : 2 * t.chars.length ≤ fuel := by omega
      have first := h.value room lead (stops_elements (.nil gap) rest)
      rw [passElements, first]
      simp only [bind, Except.bind, skipSpace_lastElement]
  | cons before after next others =>
      simp only [Elements.chars, separator, List.length_append, Bool.false_eq_true, ↓reduceIte,
        List.length_singleton] at enough
      have room : 2 * t.chars.length ≤ fuel := by omega
      have left : 2 * (next.chars.length + (others.chars false).length) ≤ fuel := by omega
      have first := h.value room lead (stops_elements (.cons before after next others) rest)
      have later := h.elements left after rest
      rw [passElements, first]
      simp only [bind, Except.bind, skipSpace_nextElement, later]

theorem members_succ (h : Passes fuel) (key : Key) {t : Tree} {others : Members}
    (enough : 2 * (t.chars.length + (others.chars false).length) ≤ fuel + 1) (lead : Gap)
    (rest : List Char)
    : passMembers (fuel + 1)
        (lead.chars ++ (key.chars ++ (t.chars ++ (others.chars false ++ rest))))
      = .ok rest := by
  have some := t.length_pos
  have named := Piece.passString_quoted key.name
    (key.behind.chars ++ ':' :: (key.lead.chars ++ (t.chars ++ (others.chars false ++ rest))))
  cases others with
  | nil gap =>
      simp only [Members.chars, List.length_append, List.length_singleton] at enough
      have room : 2 * t.chars.length ≤ fuel := by omega
      have first := h.value room key.lead (stops_members (.nil gap) rest)
      rw [passMembers, skipSpace_key, Key.chars_append]
      simp only [bind, Except.bind, named, afterColon_gap, first, skipSpace_lastMember]
  | cons before after next t' others =>
      simp only [Members.chars, separator, List.length_append, Bool.false_eq_true, ↓reduceIte,
        List.length_singleton] at enough
      have room : 2 * t.chars.length ≤ fuel := by omega
      have left : 2 * (t'.chars.length + (others.chars false).length) ≤ fuel := by omega
      have first := h.value room key.lead (stops_members (.cons before after next t' others) rest)
      have later := h.members next left after rest
      rw [passMembers, skipSpace_key, Key.chars_append]
      simp only [bind, Except.bind, named, afterColon_gap, first, skipSpace_nextMember, later]

end Passes

/-- By induction on fuel: each part of a tree is passed over with less. -/
theorem passes (fuel : Nat) : Passes fuel := by
  induction fuel with
  | zero =>
      refine ⟨?_, ?_, ?_⟩
      all_goals
        intros
        have some := Tree.length_pos ‹_›
        omega
  | succ fuel ih => exact ⟨ih.value_succ, ih.elements_succ, ih.members_succ⟩

-----------------------------------------------------------------------------------------
-- What is passed over is a tree
-----------------------------------------------------------------------------------------

/-- What is passed over with some fuel is the text of trees. -/
structure Passed (fuel : Nat) : Prop where
  value {text rest : List Char}
    : passValue fuel text = .ok rest →
      ∃ (lead : Gap) (t : Tree), text = lead.chars ++ (t.chars ++ rest)
  elements {text rest : List Char}
    : passElements fuel text = .ok rest →
      ∃ (lead : Gap) (t : Tree) (others : Elements),
        text = lead.chars ++ (t.chars ++ (others.chars false ++ rest))
  members {text rest : List Char}
    : passMembers fuel text = .ok rest →
      ∃ (lead : Gap) (key : Key) (t : Tree) (others : Members),
        text = lead.chars ++ (key.chars ++ (t.chars ++ (others.chars false ++ rest)))

namespace Passed

variable {fuel : Nat}

theorem value_succ (h : Passed fuel) {text rest : List Char}
    (read : passValue (fuel + 1) text = .ok rest)
    : ∃ (lead : Gap) (t : Tree), text = lead.chars ++ (t.chars ++ rest) := by
  obtain ⟨lead, split⟩ := exists_gap text
  refine ⟨lead, ?_⟩
  rw [split]
  rw [passValue] at read
  split at read
  · contradiction
  next left =>
    obtain rfl := afterName_eq_ok.1 read
    exact ⟨.null, by rw [left]; rfl⟩
  next left =>
    obtain rfl := afterName_eq_ok.1 read
    exact ⟨.boolean true, by rw [left]; rfl⟩
  next left =>
    obtain rfl := afterName_eq_ok.1 read
    exact ⟨.boolean false, by rw [left]; rfl⟩
  next left =>
    obtain ⟨s, rfl⟩ := Piece.passString_eq_ok read
    exact ⟨.text s, by rw [left]; rfl⟩
  next behind left =>
    obtain ⟨gap, inside⟩ := exists_gap behind
    rw [left, inside]
    split at read
    · contradiction
    next close =>
      cases read
      exact ⟨.list (.nil gap), by simp [Tree.chars, Elements.chars, close]⟩
    next =>
      obtain ⟨lead, t, others, same⟩ := h.elements read
      refine ⟨.list (.cons gap lead t others), ?_⟩
      simp [Tree.chars, Elements.chars, separator, same]
  next behind left =>
    obtain ⟨gap, inside⟩ := exists_gap behind
    rw [left, inside]
    split at read
    · contradiction
    next close =>
      cases read
      exact ⟨.object (.nil gap), by simp [Tree.chars, Members.chars, close]⟩
    next =>
      obtain ⟨lead, key, t, others, same⟩ := h.members read
      refine ⟨.object (.cons gap lead key t others), ?_⟩
      simp [Tree.chars, Members.chars, separator, same]
  next c behind _ _ _ _ _ _ left =>
    split at read
    · rw [passNumber] at read
      split at read
      next n _ number =>
        cases read
        obtain ⟨written, _, same⟩ := numeral_eq_ok number
        exact ⟨.number written, by rw [left, same]; rfl⟩
      next => contradiction
    · contradiction

theorem elements_succ (h : Passed fuel) {text rest : List Char}
    (read : passElements (fuel + 1) text = .ok rest)
    : ∃ (lead : Gap) (t : Tree) (others : Elements),
        text = lead.chars ++ (t.chars ++ (others.chars false ++ rest)) := by
  rw [passElements] at read
  obtain ⟨behind, first, last⟩ := Outcome.bind_eq_ok.1 read
  obtain ⟨lead, t, rfl⟩ := h.value first
  refine ⟨lead, t, ?_⟩
  split at last
  · contradiction
  next comma =>
    obtain ⟨before, rfl⟩ := exists_gap_of_skipSpace comma
    obtain ⟨after, next, others, rfl⟩ := h.elements last
    exact ⟨.cons before after next others, by simp [Elements.chars, separator]⟩
  next close =>
    cases last
    obtain ⟨gap, rfl⟩ := exists_gap_of_skipSpace close
    exact ⟨.nil gap, by simp [Elements.chars]⟩
  · contradiction

theorem members_succ (h : Passed fuel) {text rest : List Char}
    (read : passMembers (fuel + 1) text = .ok rest)
    : ∃ (lead : Gap) (key : Key) (t : Tree) (others : Members),
        text = lead.chars ++ (key.chars ++ (t.chars ++ (others.chars false ++ rest))) := by
  rw [passMembers] at read
  split at read
  · contradiction
  next quote =>
    obtain ⟨lead, rfl⟩ := exists_gap_of_skipSpace quote
    obtain ⟨text₁, named, coloned⟩ := Outcome.bind_eq_ok.1 read
    obtain ⟨text₂, colon, valued⟩ := Outcome.bind_eq_ok.1 coloned
    obtain ⟨text₃, value, last⟩ := Outcome.bind_eq_ok.1 valued
    obtain ⟨name, rfl⟩ := Piece.passString_eq_ok named
    obtain ⟨behind, rfl⟩ := afterColon_eq_ok colon
    obtain ⟨front, t, rfl⟩ := h.value value
    refine ⟨lead, ⟨name, behind, front⟩, t, ?_⟩
    simp only [Key.chars_append]
    split at last
    · contradiction
    next comma =>
      obtain ⟨before, rfl⟩ := exists_gap_of_skipSpace comma
      obtain ⟨after, next, t', others, rfl⟩ := h.members last
      exact ⟨.cons before after next t' others, by simp [Members.chars, separator]⟩
    next close =>
      cases last
      obtain ⟨gap, rfl⟩ := exists_gap_of_skipSpace close
      exact ⟨.nil gap, by simp [Members.chars]⟩
    · contradiction
  · contradiction

end Passed

/-- By induction on fuel: each part is passed over with less. -/
theorem passed (fuel : Nat) : Passed fuel := by
  induction fuel with
  | zero => exact ⟨nofun, nofun, nofun⟩
  | succ fuel ih => exact ⟨ih.value_succ, ih.elements_succ, ih.members_succ⟩

end Screener.Json
