import Screener.Json.Reading

/-!
Strings of documents are read back as they were written: each character stands as it is, or in
an escape that stands for it alone.
-/

namespace Screener.Json

open Value (escaped textChars)

/-- The four digits of a control character by number are read as its code. -/
theorem hexQuad?_control
    : ∀ n < 32, hexQuad? '0' '0' (Nat.digitChar (n / 16)) (Nat.digitChar (n % 16)) = some n := by
  decide +kernel

/-- The three ways to write a character: by a letter that stands for it, by number, plainly. -/
theorem escaped_cases (c : Char)
    : (∃ letter, escaped c = ['\\', letter] ∧ letter ≠ 'u' ∧ shortEscape? letter = some c)
      ∨ (c.toNat < 32
        ∧ escaped c
          = ['\\', 'u', '0', '0', Nat.digitChar (c.toNat / 16), Nat.digitChar (c.toNat % 16)])
      ∨ (c ≠ '"' ∧ c ≠ '\\' ∧ 32 ≤ c.toNat ∧ escaped c = [c]) := by
  by_cases special : c ∈ ['"', '\\', '\x08', '\x0c', '\n', '\r', '\t']
  · simp only [List.mem_cons, List.not_mem_nil, or_false] at special
    rcases special with rfl | rfl | rfl | rfl | rfl | rfl | rfl
      <;> exact .inl ⟨_, rfl, by decide, rfl⟩
  · simp only [List.mem_cons, List.not_mem_nil, or_false, not_or] at special
    obtain ⟨quote, slash, back, feed, line, ret, tab⟩ := special
    unfold escaped
    rw [if_neg quote, if_neg slash, if_neg back, if_neg feed, if_neg line, if_neg ret,
      if_neg tab]
    split
    next control => exact .inr (.inl ⟨control, rfl⟩)
    next plain => exact .inr (.inr ⟨quote, slash, by omega, rfl⟩)

/-- A written character is read as itself. -/
theorem stringRest_escaped (c : Char) (text : List Char)
    : stringRest (escaped c ++ text)
      = (stringRest text).map fun entry => (c :: entry.1, entry.2) := by
  obtain ⟨letter, short, other, stands⟩ | ⟨control, numbered⟩ | ⟨quote, slash, plain, same⟩ :=
    escaped_cases c
  · rw [short, List.cons_append, List.singleton_append, stringRest.eq_def]
    simp [other, stands]
  · rw [numbered]
    simp only [List.cons_append, List.nil_append]
    rw [stringRest]
    simp only [hexQuad?_control c.toNat control]
    rw [if_neg (by omega), if_pos (by omega), Char.ofNat_toNat]
  · rw [same, List.singleton_append, stringRest.eq_def]
    simp [slash, Nat.not_lt.2 plain]

/-- A written string is read back, by induction over its characters. -/
theorem stringRest_flatMap_escaped (s rest : List Char)
    : stringRest (s.flatMap escaped ++ '"' :: rest) = .ok (s, rest) := by
  induction s with
  | nil => rfl
  | cons c s ih =>
      rw [List.flatMap_cons, List.append_assoc, stringRest_escaped, ih]
      rfl

/-- A written string starts with a quote, behind which it is read back. -/
theorem readText_textChars (s : String) (rest : List Char)
    : ∃ text, textChars s ++ rest = '"' :: text ∧ readText text = .ok (s, rest) := by
  refine ⟨s.toList.flatMap escaped ++ '"' :: rest, by simp [textChars], ?_⟩
  rw [readText, stringRest_flatMap_escaped]
  exact congrArg Except.ok (by rw [String.ofList_toList])

end Screener.Json
