import Mathlib.Data.List.Basic

/-!
Stable sorting. Elements that are all at most one another keep their order, so what comes to the
head is the first of the least ones.
-/

namespace Screener

variable {α : Type} {le le' : α → α → Bool} {xs : List α}

/-- Sorting asks only how the elements of the list compare. -/
theorem mergeSort_congr (same : ∀ a ∈ xs, ∀ b ∈ xs, le a b = le' a b)
    : xs.mergeSort le = xs.mergeSort le' := by
  have sorted := List.map_mergeSort (f := id) (r := le) (s := le') (l := xs) same
  rwa [List.map_id, List.map_id] at sorted

variable (trans : ∀ a b c, le a b = true → le b c = true → le a c = true)
  (total : ∀ a b, (le a b || le b a) = true)

include trans total

/-- Sorting leaves elements that are all at most one another in their order: they are a sorted part
of the list, which sorting keeps, and there are no others.
-/
theorem filter_mergeSort {p : α → Bool}
    (tied : ∀ a ∈ xs, ∀ b ∈ xs, p a = true → p b = true → le a b = true)
    : (xs.mergeSort le).filter p = xs.filter p := by
  have equal : (xs.filter p).Pairwise fun a b => le a b = true := by
    refine List.pairwise_of_forall_mem_list fun a ha b hb => ?_
    rw [List.mem_filter] at ha hb
    exact tied a ha.1 b hb.1 ha.2 hb.2
  have kept := List.sublist_mergeSort trans total equal List.filter_sublist
  have part := kept.filter p
  rw [List.filter_filter] at part
  simp only [Bool.and_self] at part
  exact (part.eq_of_length ((List.mergeSort_perm xs _).filter _).length_eq.symm).symm

/-- The head of a sorted list is the first element that is at most every other. -/
theorem head?_mergeSort
    : (xs.mergeSort le).head? = xs.find? fun a => xs.all fun b => le a b := by
  have kept := filter_mergeSort (p := fun a => xs.all fun b => le a b) trans total
    (fun a _ b hb least _ => List.all_eq_true.1 least b hb)
  have sorted := List.pairwise_mergeSort trans total xs
  have same := List.mergeSort_perm xs le
  rw [← List.head?_filter, ← kept]
  cases ranked : xs.mergeSort le with
  | nil => rfl
  | cons first others =>
      rw [ranked] at sorted same
      have least : (xs.all fun b => le first b) = true := by
        refine List.all_eq_true.2 fun b hb => ?_
        rcases List.mem_cons.1 (same.mem_iff.2 hb) with rfl | later
        · simpa using total b b
        · exact List.rel_of_pairwise_cons sorted later
      rw [List.filter_cons_of_pos (p := fun a => xs.all fun b => le a b) least]
      rfl

omit trans total

/-- A list in which nothing chosen comes after what is not chosen falls into these two parts, by
induction along the list.
-/
theorem eq_filter_append_filter {p : α → Bool}
    (sorted : xs.Pairwise fun a b => (p a || !p b) = true)
    : xs = xs.filter p ++ xs.filter fun a => !p a := by
  induction sorted with
  | nil => rfl
  | @cons a xs first _ ih =>
      cases chosen : p a with
      | true =>
          rw [List.filter_cons_of_pos chosen, List.filter_cons_of_neg (by simp [chosen]),
            List.cons_append, ← ih]
      | false =>
          have none : ∀ b ∈ xs, p b = false := by
            intro b member
            simpa [chosen] using first b member
          have left : xs.filter p = [] := List.filter_eq_nil_iff.2 fun b member => by
            simp [none b member]
          have right : xs.filter (fun a => !p a) = xs := List.filter_eq_self.2 fun b member => by
            simp [none b member]
          rw [List.filter_cons_of_neg (by simp [chosen]),
            List.filter_cons_of_pos (by simp [chosen]), left, right, List.nil_append]

/-- Sorting by a choice puts what is chosen first and keeps the order of both parts. -/
theorem mergeSort_choice (p : α → Bool) (xs : List α)
    : (xs.mergeSort fun a b => p a || !p b) = xs.filter p ++ xs.filter fun a => !p a := by
  have trans (a b c : α) (left : (p a || !p b) = true) (right : (p b || !p c) = true)
      : (p a || !p c) = true := by
    cases here : p b <;> simp_all
  have total (a b : α) : ((p a || !p b) || (p b || !p a)) = true := by
    cases p a <;> simp
  have parts := eq_filter_append_filter (List.pairwise_mergeSort trans total xs)
  rw [parts, filter_mergeSort trans total, filter_mergeSort trans total]
  · intro a _ b _ _ other
    simp_all
  · intro a _ b _ chosen _
    simp [chosen]

end Screener
