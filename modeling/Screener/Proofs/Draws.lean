import Mathlib.Logic.Function.Iterate
import Screener.Draws
import Screener.Proofs.Binary64.Monotone

/-!
Streams of draws and the values in them. What an action yields follows from the word that it starts
from; the word after some draws is the first, moved on so many times, and no two words are moved on
to the same. A draw is the exact fraction of its word, and lies between zero and one. Its products
with small whole numbers, and their sums with others, are exact too.
-/

namespace Screener

-----------------------------------------------------------------------------------------
-- Actions on the stream
-----------------------------------------------------------------------------------------

theorem run_bind {α β : Type} (action : StateM UInt32 α) (next : α → StateM UInt32 β)
    (word : UInt32)
    : (action >>= next).run word = (next (action.run word).1).run (action.run word).2 :=
  rfl

theorem run_pure {α : Type} (a : α) (word : UInt32)
    : (pure a : StateM UInt32 α).run word = (a, word) :=
  rfl

namespace Draws

open Binary64

theorem run_next_bind {α : Type} (next : Binary64 → StateM UInt32 α) (word : UInt32)
    : (Draws.next >>= next).run word = (next (value (step word))).run (step word) :=
  rfl

/-- The word after a number of draws. -/
def wordAfter (seed : UInt32) (count : Nat) : UInt32 := step^[count] seed

theorem wordAfter_wordAfter (seed : UInt32) (m n : Nat)
    : wordAfter (wordAfter seed m) n = wordAfter seed (m + n) := by
  rw [wordAfter, wordAfter, wordAfter, Nat.add_comm, Function.iterate_add_apply]

theorem step_wordAfter (seed : UInt32) (count : Nat)
    : step (wordAfter seed count) = wordAfter seed (count + 1) :=
  (Function.iterate_succ_apply' step count seed).symm

-----------------------------------------------------------------------------------------
-- Words
-----------------------------------------------------------------------------------------

/-- A word mixed with itself, moved by a number of places. -/
def mixed (moved : BitVec 32 → Nat → BitVec 32) (places : Nat) (word : BitVec 32) : BitVec 32 :=
  word ^^^ moved word places

/-- Ways to move the bits of a word: one by one, step by step, and all of them out in the end. -/
structure Moves (moved : BitVec 32 → Nat → BitVec 32) : Prop where
  xor : ∀ word word' n, moved (word ^^^ word') n = moved word n ^^^ moved word' n
  add : ∀ word m n, moved word (m + n) = moved (moved word m) n
  clears : ∀ word n, 32 ≤ n → moved word n = 0#32

theorem moves_left : Moves fun word n => word <<< n where
  xor := BitVec.shiftLeft_xor_distrib
  add := BitVec.shiftLeft_add
  clears _ _ wide := BitVec.shiftLeft_eq_zero wide

theorem moves_right : Moves fun word n => word >>> n where
  xor := BitVec.ushiftRight_xor_distrib
  add := BitVec.shiftRight_add
  clears _ _ wide := BitVec.ushiftRight_eq_zero wide

/-- A word mixed twice is mixed once by twice the places, for what is moved once cancels out. -/
theorem mixed_mixed {moved : BitVec 32 → Nat → BitVec 32} (moves : Moves moved) (places : Nat)
    (word : BitVec 32)
    : mixed moved places (mixed moved places word) = mixed moved (places + places) word := by
  rw [mixed, mixed, mixed, moves.xor, ← moves.add, BitVec.xor_assoc,
    ← BitVec.xor_assoc (moved word places), BitVec.xor_self, BitVec.zero_xor]

/-- Mixing loses nothing. By induction on what the places are short of the width: mixing by twice as
many loses nothing, and by the whole width it does nothing.
-/
theorem injective_mixed {moved : BitVec 32 → Nat → BitVec 32} (moves : Moves moved) {places : Nat}
    (some : 0 < places)
    : Function.Injective (mixed moved places) := by
  induction short : 32 - places using Nat.strongRecOn generalizing places with
  | ind _ ih =>
      intro word word' same
      by_cases wide : 32 ≤ places
      · rwa [mixed, mixed, moves.clears word places wide, moves.clears word' places wide,
          BitVec.xor_zero, BitVec.xor_zero] at same
      · have double := ih (32 - (places + places)) (by omega) (by omega) rfl
        refine double ?_
        rw [← mixed_mixed moves, ← mixed_mixed moves, same]

theorem toBitVec_step (word : UInt32)
    : (step word).toBitVec
      = mixed (fun word n => word <<< n) 5
          (mixed (fun word n => word >>> n) 17
            (mixed (fun word n => word <<< n) 13 word.toBitVec)) :=
  rfl

/-- Two words that are followed by the same are the same. -/
theorem injective_step : Function.Injective step := by
  intro word word' same
  have bits := congrArg UInt32.toBitVec same
  rw [toBitVec_step, toBitVec_step] at bits
  have second := injective_mixed moves_left (by decide) bits
  have first := injective_mixed moves_right (by decide) second
  exact UInt32.toBitVec_inj.1 (injective_mixed moves_left (by decide) first)

theorem wordAfter_inj {seed seed' : UInt32} (count : Nat)
    : wordAfter seed count = wordAfter seed' count ↔ seed = seed' :=
  (injective_step.iterate count).eq_iff

-----------------------------------------------------------------------------------------
-- Values
-----------------------------------------------------------------------------------------

theorem one_eq : one = 2 ^ 32 * fraction := by decide +kernel

theorem fraction_room : 2 ^ 53 * fraction ≤ bound := by decide +kernel

theorem fraction_pos : 0 < fraction := by decide +kernel

/-- A multiple of `2^-32` with 53 bits is a value of the format. -/
theorem representable_mul_fraction {k : Nat} (small : k < 2 ^ 53)
    : Representable (k * fraction) := by
  have below : k * fraction < bound :=
    Nat.lt_of_lt_of_le (Nat.mul_lt_mul_of_pos_right small fraction_pos) fraction_room
  unfold fraction at below ⊢
  generalize 1042 = s at below ⊢
  exact representable_mul_two_pow (Nat.le_of_lt small) below

/-- A draw is the exact fraction of its word. -/
theorem value_eq (word : UInt32)
    : value word
      = .finite false (word.toNat * fraction)
          (representable_mul_fraction (toNat_lt_mantissa word)) := by
  rw [value]
  exact round_exact false Nat.one_pos (Nat.mul_one _).symm _

/-- Draws grow with their words. -/
theorem value_mono {word word' : UInt32} (le : word ≤ word') : value word ≤ value word' := by
  rw [UInt32.le_iff_toNat_le] at le
  rw [value, value, le_iff]
  refine ⟨isNaN_round _ _ _, isNaN_round _ _ _, place_round_mono 1 ?_⟩
  exact Int.ofNat_le.2 (Nat.mul_le_mul_right fraction le)

theorem zero_le_value (word : UInt32) : 0 ≤ value word := by
  change ofNat 0 ≤ value word
  rw [ofNat, value, le_iff]
  refine ⟨isNaN_round _ _ _, isNaN_round _ _ _, place_round_mono 1 ?_⟩
  rw [Nat.zero_mul]
  exact Int.natCast_nonneg _

theorem value_le_one (word : UInt32) : value word ≤ 1 := by
  change value word ≤ ofNat 1
  rw [ofNat, value, le_iff]
  refine ⟨isNaN_round _ _ _, isNaN_round _ _ _, place_round_mono 1 ?_⟩
  have below := Nat.le_of_lt word.toNat_lt
  rw [Nat.one_mul, one_eq]
  exact Int.ofNat_le.2 (Nat.mul_le_mul_right fraction below)

-----------------------------------------------------------------------------------------
-- Exact arithmetic on draws
-----------------------------------------------------------------------------------------

/-- Products of a draw with small whole numbers are exact. -/
theorem value_mul_ofNat {n : Nat} (word : UInt32) (positive : 0 < n) (small : n < 2 ^ 53)
    (h : Representable (n * word.toNat * fraction))
    : value word * ofNat n = .finite false (n * word.toNat * fraction) h := by
  have factor : n * one ≠ 0 := Nat.ne_of_gt (Nat.mul_pos positive Binary64.one_pos)
  rw [value_eq, ofNat_eq_finite (representable_mul_one small), mul_finite_eq factor rfl]
  refine round_exact false Binary64.one_pos ?_ _
  simp only [Nat.mul_assoc, Nat.mul_left_comm]

/-- Sums of whole numbers and multiples of `2^-32` are exact while they have 53 bits. -/
theorem ofNat_add_fraction {n k : Nat} (small : n < 2 ^ 53)
    (g : Representable (k * fraction)) (h : Representable ((n * 2 ^ 32 + k) * fraction))
    : ofNat n + .finite false (k * fraction) g
      = .finite false ((n * 2 ^ 32 + k) * fraction) h := by
  rw [ofNat_eq_finite (representable_mul_one small)]
  change add _ _ = _
  rw [add, if_pos rfl]
  refine round_exact false Nat.one_pos ?_ _
  rw [one_eq, Nat.mul_one, Nat.add_mul, Nat.mul_assoc]

/-- A multiple of `2^-32` is rounded to the nearest whole number, a half going up. -/
theorem wholeUnits_mul_fraction (k : Nat)
    : wholeUnits (k * fraction) = (2 * k + 2 ^ 32) / 2 ^ 33 := by
  have num : 2 * (k * fraction) + one = (2 * k + 2 ^ 32) * fraction := by
    rw [one_eq, Nat.add_mul, Nat.mul_assoc]
  have den : 2 * one = 2 ^ 33 * fraction := by
    rw [one_eq]
    omega
  rw [wholeUnits, num, den, Nat.mul_div_mul_right _ _ fraction_pos]

end Draws

end Screener
