import Screener.Proofs.Binary64.Order
import Screener.Proofs.Json.Decoding
import Screener.Proofs.Json.Documents

/-!
The floats that trees say are finite: a float that is written beyond the format is refused, and a
whole number of 64 bits is far from its end.
-/

namespace Screener.Json

/-- A whole number that 64 bits hold is far from the end of the format. -/
theorem isFinite_ofDecimal_of_le {n : Nat} (small : n ≤ UInt64.size) (negative : Bool)
    : (Binary64.ofDecimal negative n 0).isFinite = true := by
  have zero : (Binary64.round negative 0 1).isFinite = true := by
    cases negative <;> decide +kernel
  have greatest
      : (Binary64.round false (UInt64.size * Nat.pow 10 (0 : Int).toNat * Binary64.one) 1).isFinite
        = true := by decide +kernel
  unfold Binary64.ofDecimal
  split
  · exact zero
  rw [if_neg (by decide)]
  split
  · exact zero
  rw [if_pos (by decide)]
  refine Binary64.isFinite_round_mono ?_ greatest negative
  exact Nat.mul_le_mul_right _ (Nat.mul_le_mul_right _ small)

theorem Number.Fits.isFinite_toFloat {m : Number} (fits : m.Fits)
    : m.toFloat.isFinite = true := by
  cases m with
  | float v => exact fits
  | integer n =>
      have least : Int64.minValue.toInt = -9223372036854775808 := by decide
      have above : n < (18446744073709551616 : Int) := fits.2
      have below := fits.1
      refine isFinite_ofDecimal_of_le ?_ _
      change n.natAbs ≤ 18446744073709551616
      omega

theorem NumberText.fits_of_number? {n : NumberText} {m : Number} (said : n.number? = some m)
    : m.Fits := by
  unfold NumberText.number? at said
  split at said
  next v float =>
    split at said
    next finite =>
      obtain rfl := Option.some.inj said
      exact finite
    next => contradiction
  next other =>
    obtain rfl := Option.some.inj said
    exact fits_number n.numeral fun v same => absurd same (other v)

theorem Tree.isFinite_of_float? {t : Tree} {v : Binary64} (said : t.float? = some v)
    : v.isFinite = true := by
  obtain ⟨m, number, same⟩ := Option.bind_eq_some_iff.1 said
  obtain rfl := Option.some.inj same
  cases t with
  | number n => exact (NumberText.fits_of_number? number).isFinite_toFloat
  | null | boolean _ | text _ | list _ | object _ => contradiction

/-- A limit that a document says or leaves out is finite if it is there. -/
theorem all_isFinite_of_source {x : Option Binary64}
    (source : (∃ t, Tree.optional? Tree.float? t = some x) ∨ some none = some x)
    : x.all Binary64.isFinite = true := by
  rcases source with ⟨t, said⟩ | absent
  · by_cases null : t = .null
    · subst null
      obtain rfl := Option.some.inj said
      rfl
    · rw [Tree.optional?_of_ne null] at said
      obtain ⟨v, float, rfl⟩ := Option.map_eq_some_iff.1 said
      exact Tree.isFinite_of_float? float
  · obtain rfl := Option.some.inj absent
    rfl

/-- The members of a list that a tree says are each said by some tree. -/
theorem Tree.exists_of_mem_list? {α : Type} {decode : Tree → Option α} {t : Tree} {as : List α}
    (said : Tree.list? decode t = some as) {a : α} (member : a ∈ as)
    : ∃ t, decode t = some a := by
  cases t with
  | list elements =>
      replace said : elements.toList.mapM decode = some as := said
      generalize elements.toList = trees at said
      induction trees generalizing as with
      | nil =>
          obtain rfl := Option.some.inj said
          contradiction
      | cons t trees ih =>
          rw [List.mapM_cons] at said
          obtain ⟨first, here, said⟩ := Option.bind_eq_some_iff.1 said
          obtain ⟨others, later, same⟩ := Option.bind_eq_some_iff.1 said
          obtain rfl := Option.some.inj same
          rcases List.mem_cons.1 member with rfl | member
          · exact ⟨t, here⟩
          · exact ih member later
  | null | boolean _ | number _ | text _ | object _ => contradiction

/-- A float that a document says is finite. -/
theorem isFinite_of_source {v : Binary64}
    (source : (∃ t, Tree.float? t = some v) ∨ none = some v)
    : v.isFinite = true := by
  rcases source with ⟨t, said⟩ | absent
  · exact Tree.isFinite_of_float? said
  · contradiction

end Screener.Json
