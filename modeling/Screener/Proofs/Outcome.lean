import Mathlib.Data.List.Forall2

/-!
Steps that may fail, one after another: a chain yields a result when each of its steps does, and
otherwise fails as the first step that does not.
-/

namespace Screener.Outcome

variable {ε α β : Type}

theorem bind_eq_ok {x : Except ε α} {f : α → Except ε β} {b : β}
    : x >>= f = .ok b ↔ ∃ a, x = .ok a ∧ f a = .ok b := by
  cases x with
  | error e => simp [bind, Except.bind]
  | ok a => simp [bind, Except.bind]

theorem map_eq_ok {x : Except ε α} {f : α → β} {b : β}
    : x.map f = .ok b ↔ ∃ a, x = .ok a ∧ f a = b := by
  cases x with
  | error e => simp [Except.map]
  | ok a => simp [Except.map]

theorem mapError_eq_ok {ε' : Type} {x : Except ε α} {f : ε → ε'} {a : α}
    : x.mapError f = .ok a ↔ x = .ok a := by
  cases x with
  | error e => exact ⟨nofun, nofun⟩
  | ok b =>
      constructor
      · intro same
        exact congrArg Except.ok (Except.ok.inj same)
      · rintro ⟨⟩
        rfl

/-- Where a step succeeds on what a function makes of each element, it does so on all of them
in turn.
-/
theorem mapM_map_eq_ok_map {γ : Type} {f : β → Except ε γ} {g : α → β} {h : α → γ} {as : List α}
    (each : ∀ a ∈ as, f (g a) = .ok (h a))
    : (as.map g).mapM f = .ok (as.map h) := by
  induction as with
  | nil => rfl
  | cons a as ih =>
      rw [List.map_cons, List.mapM_cons, each a List.mem_cons_self,
        ih fun b inside => each b (List.mem_cons_of_mem a inside)]
      rfl

/-- Where a step undoes a function on each element, it does so on all of them in turn. -/
theorem mapM_map_eq_ok {f : β → Except ε α} {g : α → β} {as : List α}
    (each : ∀ a ∈ as, f (g a) = .ok a)
    : (as.map g).mapM f = .ok as := by
  rw [mapM_map_eq_ok_map (h := id) each, List.map_id]

/-- Running a step on each element yields what it yields of each. -/
theorem mapM_eq_ok_iff {f : α → Except ε β} {as : List α} {bs : List β}
    : as.mapM f = .ok bs ↔ List.Forall₂ (fun a b => f a = .ok b) as bs := by
  induction as generalizing bs with
  | nil =>
      rw [List.forall₂_nil_left_iff]
      exact ⟨fun same => (Except.ok.inj same).symm, fun same => same ▸ rfl⟩
  | cons a as ih =>
      rw [List.mapM_cons, bind_eq_ok, List.forall₂_cons_left_iff]
      constructor
      · rintro ⟨b, here, later⟩
        obtain ⟨rest, later, whole⟩ := bind_eq_ok.1 later
        exact ⟨b, rest, here, ih.1 later, (Except.ok.inj whole).symm⟩
      · rintro ⟨b, rest, here, later, rfl⟩
        exact ⟨b, here, bind_eq_ok.2 ⟨rest, ih.2 later, rfl⟩⟩

/-- A step that succeeds on each element, wherever that stands, succeeds on all in turn. -/
theorem mapM_zipIdx_eq_ok {f : α × Nat → Except ε β} {as : List α} {bs : List β}
    (each : List.Forall₂ (fun a b => ∀ i, f (a, i) = .ok b) as bs) (start : Nat)
    : (as.zipIdx start).mapM f = .ok bs := by
  induction each generalizing start with
  | nil => rfl
  | cons here _ ih =>
      rw [List.zipIdx_cons, List.mapM_cons, here start, ih (start + 1)]
      rfl

-----------------------------------------------------------------------------------------
-- Checks in order
-----------------------------------------------------------------------------------------

section Checks

variable {κ : Type} {Passes : κ → Prop} {Fault : κ → ε → Prop} {k : κ} {ks : List κ}

/-- The outcome of checking some things one after another: each of them passes, or the fault is that
of the first that does not.
-/
def Checks (Passes : κ → Prop) (Fault : κ → ε → Prop) (ks : List κ) : Except ε α → Prop
  | .ok _ => ∀ k ∈ ks, Passes k
  | .error e => ∃ before k after, ks = before ++ k :: after ∧ (∀ b ∈ before, Passes b) ∧ Fault k e

theorem checks_ok {a : α} (passes : Passes k) : Checks Passes Fault [k] (.ok a) :=
  List.forall_mem_singleton.2 passes

theorem checks_error {e : ε} (fault : Fault k e)
    : Checks Passes Fault (k :: ks) (.error e : Except ε α) :=
  ⟨[], k, ks, rfl, List.forall_mem_nil _, fault⟩

/-- A thing that passes does not change what the others lead to. -/
theorem Checks.cons {x : Except ε α} (passes : Passes k) (others : Checks Passes Fault ks x)
    : Checks Passes Fault (k :: ks) x := by
  cases x with
  | ok a => exact List.forall_mem_cons.2 ⟨passes, others⟩
  | error e =>
      obtain ⟨before, b, after, rfl, all, fault⟩ := others
      exact ⟨k :: before, b, after, rfl, List.forall_mem_cons.2 ⟨passes, all⟩, fault⟩

theorem Checks.bind {x : Except ε α} {f : α → Except ε β} (first : Checks Passes Fault [k] x)
    (others : ∀ a, x = .ok a → Checks Passes Fault ks (f a))
    : Checks Passes Fault (k :: ks) (x >>= f) := by
  cases x with
  | ok a => exact .cons (List.forall_mem_singleton.1 first) (others a rfl)
  | error e =>
      obtain ⟨before, b, after, whole, _, fault⟩ := first
      cases before with
      | nil =>
          obtain ⟨rfl, _⟩ := List.cons.inj whole
          exact checks_error fault
      | cons _ before => simp at whole

/-- Running a check on each element checks them all. By induction along the elements. -/
theorem Checks.mapM {f : κ → Except ε α} (each : ∀ k, Checks Passes Fault [k] (f k)) (ks : List κ)
    : Checks Passes Fault ks (ks.mapM f) := by
  induction ks with
  | nil => exact List.forall_mem_nil _
  | cons k ks ih =>
      rw [List.mapM_cons]
      refine (each k).bind fun a _ => ?_
      cases rest : ks.mapM f with
      | ok _ | error _ =>
          rw [rest] at ih
          exact ih

/-- Where no faulty thing passes, a result means that all pass. -/
theorem Checks.exists_ok_iff {x : Except ε α} (checks : Checks Passes Fault ks x)
    (refutes : ∀ k e, Fault k e → ¬Passes k)
    : (∃ a, x = .ok a) ↔ ∀ k ∈ ks, Passes k := by
  cases x with
  | ok a => exact iff_of_true ⟨a, rfl⟩ checks
  | error e =>
      obtain ⟨before, k, after, rfl, _, fault⟩ := checks
      exact iff_of_false nofun fun all => refutes k e fault (all k (by simp))

end Checks

-----------------------------------------------------------------------------------------
-- Places
-----------------------------------------------------------------------------------------

/-- Elements with their places, split at one of them: its place is the number of those before. -/
theorem zipIdx_eq_append_cons {as : List α} {start : Nat} {before after : List (α × Nat)}
    {a : α} {i : Nat} (split : as.zipIdx start = before ++ (a, i) :: after)
    : as = before.map Prod.fst ++ a :: after.map Prod.fst
      ∧ i = start + (before.map Prod.fst).length := by
  constructor
  · rw [← List.map_cons (f := Prod.fst) (a := (a, i)), ← List.map_append, ← split]
    simp
  · have place : (as.zipIdx start)[before.length]? = some (a, i) := by rw [split]; simp
    rw [List.getElem?_zipIdx] at place
    obtain ⟨_, _, same⟩ := Option.map_eq_some_iff.1 place
    rw [List.length_map]
    exact (Prod.mk.inj same).2.symm

/-- What elements with their places are related to, they are related to without these. -/
theorem forall₂_of_zipIdx {R : α → β → Prop} {as : List α} {bs : List β} {start : Nat}
    (each : List.Forall₂ (fun p b => R p.1 b) (as.zipIdx start) bs)
    : List.Forall₂ R as bs := by
  rw [← List.zipIdx_map_fst start as]
  exact List.forall₂_map_left_iff.2 each

/-- Where elements are related one by one, there is something to each. -/
theorem exists_of_forall₂ {R : α → β → Prop} {as : List α} {bs : List β}
    (each : List.Forall₂ R as bs)
    : ∀ a ∈ as, ∃ b, R a b := by
  induction each with
  | nil => exact List.forall_mem_nil _
  | cons here _ ih => exact List.forall_mem_cons.2 ⟨⟨_, here⟩, ih⟩

end Screener.Outcome
