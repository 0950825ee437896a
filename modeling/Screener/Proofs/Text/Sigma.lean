import Screener.Proofs.Text.Lowercase

/-!
The lowercase form of a part of a text. Only a capital sigma has two forms, and which one it takes
may be decided beyond the ends of the part. Where it is decided within, the part has the same form
in every text; where it is not, there is a text in which the part has other sigmas than alone.
-/

namespace Screener.Text

-----------------------------------------------------------------------------------------
-- Letters with case around a place
-----------------------------------------------------------------------------------------

variable {text : List Char}

/-- Nothing beyond a character that is not seen through is looked at. -/
theorem cased_append_of_visible (visible : ∃ c ∈ text, isIgnorable c = false)
    (rest : List Char)
    : cased (text ++ rest) = cased text := by
  induction text with
  | nil => obtain ⟨c, member, _⟩ := visible; contradiction
  | cons d text ih =>
      unfold cased
      by_cases through : isIgnorable d = true
      · have later : ∃ c ∈ text, isIgnorable c = false := by
          obtain ⟨c, member, stop⟩ := visible
          rcases List.mem_cons.1 member with rfl | member
          · rw [through] at stop
            contradiction
          · exact ⟨c, member, stop⟩
        simpa [through, cased] using ih later
      · simp [through]

/-- A text that is seen through shows what comes behind it. -/
theorem cased_append_of_ignorable (through : ¬∃ c ∈ text, isIgnorable c = false)
    (rest : List Char)
    : cased (text ++ rest) = cased rest := by
  have all : ∀ c ∈ text, isIgnorable c = true := by simpa using through
  rw [cased, List.dropWhile_append_of_pos all, ← cased]

/-- A letter with case is not seen through. -/
theorem visible_of_cased (letter : cased text = true) : ∃ c ∈ text, isIgnorable c = false := by
  refine Decidable.byContradiction fun through => ?_
  have shown := cased_append_of_ignorable through []
  rw [List.append_nil, letter] at shown
  contradiction

theorem cased_append_of_cased (letter : cased text = true) (rest : List Char)
    : cased (text ++ rest) = true := by
  rw [cased_append_of_visible (visible_of_cased letter), letter]

-----------------------------------------------------------------------------------------
-- Parts of a text
-----------------------------------------------------------------------------------------

/-- The form of a capital sigma behind the characters `seen`, nearest first, and before `rest`. -/
def sigma (seen rest : List Char) : Char := if cased seen && !cased rest then 'ς' else 'σ'

theorem sigma_eq_final {seen rest : List Char}
    : sigma seen rest = 'ς' ↔ cased seen = true ∧ cased rest = false := by
  unfold sigma
  cases cased seen <;> cases cased rest <;> decide

theorem sigma_eq_inner {seen rest : List Char}
    : sigma seen rest = 'σ' ↔ cased seen = true → cased rest = true := by
  unfold sigma
  cases cased seen <;> cases cased rest <;> decide

/-- The lowercase form of a text behind the characters `seen`, nearest first, and before `rest`. -/
def lowerBetween (seen : List Char) : (text rest : List Char) → List Char
  | [], _ => []
  | c :: text, rest =>
    (if c = 'Σ' then [sigma seen (text ++ rest)] else lowerChar c)
      ++ lowerBetween (c :: seen) text rest

theorem lowerAfter_append (seen text rest : List Char)
    : lowerAfter seen (text ++ rest)
      = lowerBetween seen text rest ++ lowerAfter (text.reverse ++ seen) rest := by
  induction text generalizing seen with
  | nil => rfl
  | cons c text ih =>
      have form
          : (if cased seen && !cased (text ++ rest) then ['ς'] else ['σ'])
            = [sigma seen (text ++ rest)] := by
        unfold sigma
        split <;> rfl
      simp only [List.cons_append, lowerAfter, lowerBetween, ih, form, List.append_assoc,
        List.reverse_cons, List.nil_append]

theorem lower_eq_lowerBetween (text : List Char) : lower text = lowerBetween [] text [] := by
  simpa [lower, lowerAfter] using lowerAfter_append [] text []

/-- A text of three parts has a lowercase form of three parts. -/
theorem lower_append_append (before text after : List Char)
    : lower (before ++ text ++ after)
      = lowerBetween [] before (text ++ after)
        ++ lowerBetween before.reverse text after
        ++ lowerAfter (text.reverse ++ before.reverse) after := by
  rw [lower, List.append_assoc, lowerAfter_append, lowerAfter_append]
  simp

theorem lowerBetween_append (seen front back rest : List Char)
    : lowerBetween seen (front ++ back) rest
      = lowerBetween seen front (back ++ rest)
        ++ lowerBetween (front.reverse ++ seen) back rest := by
  induction front generalizing seen with
  | nil => rfl
  | cons c front ih => simp [lowerBetween, ih]

-----------------------------------------------------------------------------------------
-- Parts that keep their form
-----------------------------------------------------------------------------------------

/-- Between two others a text has the capital sigmas in the forms that they have in it alone. -/
def SameSigmas (before text after : List Char) : Prop :=
  ∀ front back, text = front ++ 'Σ' :: back →
    sigma (front.reverse ++ before.reverse) (back ++ after) = sigma front.reverse back

/-- Each capital sigma shows its form within the text. If all before it is seen through, a letter
with case follows; if all behind it is seen through, no letter with case stands before it.
-/
def Settled (text : List Char) : Prop :=
  ∀ front back, text = front ++ 'Σ' :: back →
    ((∃ c ∈ front, isIgnorable c = false) ∨ cased back = true)
    ∧ ((∃ c ∈ back, isIgnorable c = false) ∨ cased front.reverse = false)

theorem lowerBetween_congr {seen rest seen' rest' : List Char}
    (same : ∀ front back, text = front ++ 'Σ' :: back →
      sigma (front.reverse ++ seen) (back ++ rest)
        = sigma (front.reverse ++ seen') (back ++ rest'))
    : lowerBetween seen text rest = lowerBetween seen' text rest' := by
  induction text generalizing seen seen' with
  | nil => rfl
  | cons c text ih =>
      have later
          : lowerBetween (c :: seen) text rest = lowerBetween (c :: seen') text rest' := by
        refine ih fun front back split => ?_
        simpa using same (c :: front) back (by rw [split, List.cons_append])
      rw [lowerBetween, lowerBetween, later]
      congr 1
      split
      next capital =>
        have here := same [] text (by rw [capital, List.nil_append])
        simp only [List.reverse_nil, List.nil_append] at here
        rw [here]
      next => rfl

/-- A part with the same sigmas has its own lowercase form in the whole. -/
theorem SameSigmas.infix {before after : List Char} (same : SameSigmas before text after)
    : lower text <:+: lower (before ++ text ++ after) := by
  have own : lowerBetween before.reverse text after = lower text := by
    rw [lower_eq_lowerBetween]
    refine lowerBetween_congr fun front back split => ?_
    rw [same front back split, List.append_nil, List.append_nil]
  rw [lower_append_append, own]
  exact List.infix_append _ _ _

/-- What is settled within a text is settled in every other around it. -/
theorem Settled.sameSigmas (settled : Settled text) (before after : List Char)
    : SameSigmas before text after := by
  intro front back split
  have visible (found : ∃ c ∈ front, isIgnorable c = false)
      : ∃ c ∈ front.reverse, isIgnorable c = false := by simpa using found
  obtain ⟨left, right⟩ := settled front back split
  unfold sigma
  rcases left with shown | letter
  · rw [cased_append_of_visible (visible shown)]
    rcases right with shown | none
    · rw [cased_append_of_visible shown]
    · rw [none, Bool.false_and, Bool.false_and]
  · rw [cased_append_of_cased letter, letter, Bool.not_true, Bool.and_false, Bool.and_false]

-----------------------------------------------------------------------------------------
-- Parts that change their form
-----------------------------------------------------------------------------------------

variable {x : Char} {seen rest seen' rest' : List Char}

/-- A part has no more sigmas of a form if that form stays where it is. -/
theorem count_lowerBetween_le
    (stays : ∀ front back, sigma (front ++ seen) (back ++ rest) = x →
      sigma (front ++ seen') (back ++ rest') = x)
    (text : List Char)
    : (lowerBetween seen text rest).count x ≤ (lowerBetween seen' text rest').count x := by
  induction text generalizing seen seen' with
  | nil => exact Nat.le_refl _
  | cons c text ih =>
      have later
          : (lowerBetween (c :: seen) text rest).count x
            ≤ (lowerBetween (c :: seen') text rest').count x := by
        refine ih fun front back here => ?_
        simpa using stays (front ++ [c]) back (by simpa using here)
      rw [lowerBetween, lowerBetween, List.count_append, List.count_append]
      refine Nat.add_le_add ?_ later
      split
      next =>
        have here := stays [] text
        simp only [List.nil_append] at here
        rw [List.count_singleton, List.count_singleton]
        split
        next form => simp [here (by simpa using form)]
        next => exact Nat.zero_le _
      next => exact Nat.le_refl _

/-- A part has fewer sigmas of a form if one of them takes the other form, and they stay else. -/
theorem count_lowerBetween_lt
    (stays : ∀ front back, sigma (front ++ seen) (back ++ rest) = x →
      sigma (front ++ seen') (back ++ rest') = x)
    {front back : List Char}
    (other : sigma (front.reverse ++ seen) (back ++ rest) ≠ x)
    (own : sigma (front.reverse ++ seen') (back ++ rest') = x)
    : (lowerBetween seen (front ++ 'Σ' :: back) rest).count x
      < (lowerBetween seen' (front ++ 'Σ' :: back) rest').count x := by
  have left
      : (lowerBetween seen front ('Σ' :: back ++ rest)).count x
        ≤ (lowerBetween seen' front ('Σ' :: back ++ rest')).count x := by
    refine count_lowerBetween_le (fun first last here => ?_) front
    simpa using stays first (last ++ 'Σ' :: back) (by simpa using here)
  have right
      : (lowerBetween ('Σ' :: (front.reverse ++ seen)) back rest).count x
        ≤ (lowerBetween ('Σ' :: (front.reverse ++ seen')) back rest').count x := by
    refine count_lowerBetween_le (fun first last here => ?_) back
    simpa using stays (first ++ 'Σ' :: front.reverse) last (by simpa using here)
  rw [lowerBetween_append, lowerBetween_append, lowerBetween, lowerBetween, if_pos rfl, if_pos rfl,
    own]
  have none : [sigma (front.reverse ++ seen) (back ++ rest)].count x = 0 := by
    rw [List.count_eq_zero, List.mem_singleton]
    exact fun same => other same.symm
  simp only [List.count_append, none, List.count_singleton_self]
  omega

theorem cased_capital : cased ['A'] = true := by decide +kernel

theorem lowerChar_capital : lowerChar 'A' = ['a'] := by decide +kernel

/-- A sigma with no letter around it within the text is final behind a letter, and no sigma that is
final in the text alone becomes another.
-/
theorem count_inner_lt {front back : List Char}
    (hidden : ¬∃ c ∈ front, isIgnorable c = false) (plain : cased back = false)
    : (lower (['A'] ++ (front ++ 'Σ' :: back) ++ [])).count 'σ'
      < (lower (front ++ 'Σ' :: back)).count 'σ' := by
  have through : ¬∃ c ∈ front.reverse, isIgnorable c = false := by simpa using hidden
  have less
      : (lowerBetween ['A'] (front ++ 'Σ' :: back) []).count 'σ'
        < (lowerBetween [] (front ++ 'Σ' :: back) []).count 'σ' := by
    refine count_lowerBetween_lt (fun first last here => ?_) (fun here => ?_) ?_
    · rw [sigma_eq_inner] at here ⊢
      rw [List.append_nil]
      exact fun letters => here (cased_append_of_cased letters _)
    · rw [sigma_eq_inner, cased_append_of_ignorable through, List.append_nil, plain] at here
      exact Bool.noConfusion (here cased_capital)
    · rw [sigma_eq_inner, cased_append_of_ignorable through]
      exact nofun
  rw [lower_append_append, lower_eq_lowerBetween (front ++ _)]
  simpa [lowerBetween, lowerAfter, lowerChar_capital] using less

/-- A sigma that ends the last word of the text does not end it before a letter, and no other sigma
becomes a final one.
-/
theorem count_final_lt {front back : List Char}
    (hidden : ¬∃ c ∈ back, isIgnorable c = false) (letters : cased front.reverse = true)
    : (lower ([] ++ (front ++ 'Σ' :: back) ++ ['A'])).count 'ς'
      < (lower (front ++ 'Σ' :: back)).count 'ς' := by
  have less
      : (lowerBetween [] (front ++ 'Σ' :: back) ['A']).count 'ς'
        < (lowerBetween [] (front ++ 'Σ' :: back) []).count 'ς' := by
    refine count_lowerBetween_lt (fun first last here => ?_) (fun here => ?_) ?_
    · rw [sigma_eq_final] at here ⊢
      refine ⟨here.1, Bool.eq_false_iff.2 fun letter => ?_⟩
      rw [List.append_nil] at letter
      rw [cased_append_of_cased letter] at here
      exact Bool.noConfusion here.2
    · rw [sigma_eq_final, cased_append_of_ignorable hidden, cased_capital] at here
      exact Bool.noConfusion here.2
    · rw [sigma_eq_final, cased_append_of_ignorable hidden, List.append_nil]
      exact ⟨letters, rfl⟩
  rw [lower_append_append, lower_eq_lowerBetween (front ++ _)]
  simpa [lowerBetween, lowerAfter, lowerChar_capital] using less

/-- A text with a sigma that is not settled within it has, in some text around it, fewer sigmas of
one form than alone.
-/
theorem exists_count_lt (unsettled : ¬Settled text)
    : ∃ before after x, (x = 'σ' ∨ x = 'ς')
        ∧ (lower (before ++ text ++ after)).count x < (lower text).count x := by
  simp only [Settled, Classical.not_forall] at unsettled
  obtain ⟨front, back, rfl, failed⟩ := unsettled
  rw [Classical.not_and_iff_not_or_not, not_or, not_or] at failed
  rcases failed with ⟨hidden, plain⟩ | ⟨hidden, letters⟩
  · exact ⟨['A'], [], 'σ', .inl rfl, count_inner_lt hidden (Bool.eq_false_iff.2 plain)⟩
  · exact ⟨[], ['A'], 'ς', .inr rfl, count_final_lt hidden (Bool.not_eq_false _ ▸ letters)⟩

end Screener.Text
