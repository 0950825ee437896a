import Mathlib.Data.List.Prime
import Mathlib.Data.Nat.Prime.Basic
import Mathlib.Dynamics.PeriodicPts.Lemmas
import Mathlib.Tactic.NormNum.Prime
import Screener.Proofs.Draws

/-!
The period of a stream of draws. Moving a word on passes over sums, so that the word after 32
draws, which is a sum of words before it, makes every later word a sum of the first 32. Which of
them are in the sum is found by squaring: after `2 ^ 32` draws it is the second alone, and for no
proper divisor of `2 ^ 32 - 1` can it be the first. Hence the words other than zero are one cycle.
-/

namespace Screener.Draws

open Binary64
open Function (IsPeriodicPt minimalPeriod)

-----------------------------------------------------------------------------------------
-- Functions that pass over sums
-----------------------------------------------------------------------------------------

/-- A function of words passes over sums, which are taken bit by bit. -/
def Linear (f : BitVec 32 → BitVec 32) : Prop :=
  ∀ word word', f (word ^^^ word') = f word ^^^ f word'

namespace Linear

variable {f g : BitVec 32 → BitVec 32}

theorem map_zero (linear : Linear f) : f 0 = 0 := by
  have twice := linear 0 0
  rwa [BitVec.xor_self, BitVec.xor_self] at twice

theorem comp (first : Linear f) (second : Linear g) : Linear fun word => f (g word) := by
  intro word word'
  simp only [second word word', first (g word) (g word')]

theorem iterate (linear : Linear f) (n : Nat) : Linear f^[n] := by
  induction n with
  | zero =>
      intro word word'
      rfl
  | succ n ih =>
      intro word word'
      simp only [Function.iterate_succ_apply']
      rw [ih, linear]

theorem mixed {moved : BitVec 32 → Nat → BitVec 32} (moves : Moves moved) (places : Nat)
    : Linear (mixed moved places) := by
  intro word word'
  simp only [Draws.mixed, moves.xor]
  ac_rfl

/-- A word with no bit from some place on is reached from those with one bit, by induction on the
place: either its last bit is not set, or it is the sum of that bit and what is below.
-/
theorem eq_of_units_below (linear : Linear f) (linear' : Linear g)
    (units : ∀ i < 32, f (BitVec.twoPow 32 i) = g (BitVec.twoPow 32 i)) {n : Nat} (le : n ≤ 32)
    {word : BitVec 32} (low : ∀ i, n ≤ i → word.getLsbD i = false)
    : f word = g word := by
  induction n generalizing word with
  | zero =>
      have none : word = 0 := BitVec.eq_of_getLsbD_eq fun i _ => by simp [low i (Nat.zero_le i)]
      rw [none, linear.map_zero, linear'.map_zero]
  | succ n ih =>
      cases last : word.getLsbD n with
      | false =>
          refine ih (by omega) fun i above => ?_
          rcases Nat.eq_or_lt_of_le above with rfl | above
          · exact last
          · exact low i above
      | true =>
          have split : word = (word ^^^ BitVec.twoPow 32 n) ^^^ BitVec.twoPow 32 n := by
            rw [BitVec.xor_assoc, BitVec.xor_self, BitVec.xor_zero]
          have rest : f (word ^^^ BitVec.twoPow 32 n) = g (word ^^^ BitVec.twoPow 32 n) := by
            refine ih (by omega) fun i above => ?_
            rw [BitVec.getLsbD_xor, BitVec.getLsbD_twoPow]
            rcases Nat.eq_or_lt_of_le above with rfl | above
            · simp [last, Nat.lt_of_succ_le le]
            · simp [low i above, Nat.ne_of_lt above]
          rw [split, linear, linear', rest, units n (by omega)]

/-- Two such functions agree if they agree on the words with one bit. -/
theorem eq_of_units (linear : Linear f) (linear' : Linear g)
    (units : ∀ i < 32, f (BitVec.twoPow 32 i) = g (BitVec.twoPow 32 i)) (word : BitVec 32)
    : f word = g word :=
  eq_of_units_below linear linear' units (Nat.le_refl 32) fun i above =>
    BitVec.getLsbD_of_ge word i above

end Linear

-----------------------------------------------------------------------------------------
-- Sums of words
-----------------------------------------------------------------------------------------

/-- The word if it is picked, and nothing otherwise. -/
def pick (chosen : Bool) (word : BitVec 32) : BitVec 32 := if chosen then word else 0

theorem pick_xor (chosen chosen' : Bool) (word : BitVec 32)
    : pick (chosen ^^ chosen') word = pick chosen word ^^^ pick chosen' word := by
  cases chosen <;> cases chosen' <;> simp [pick]

theorem linear_pick (chosen : Bool) : Linear (pick chosen) := by
  intro word word'
  cases chosen
  · exact (BitVec.xor_self (x := 0)).symm
  · rfl

theorem Linear.map_pick {f : BitVec 32 → BitVec 32} (linear : Linear f) (chosen : Bool)
    (word : BitVec 32)
    : f (pick chosen word) = pick chosen (f word) := by
  cases chosen
  · exact linear.map_zero
  · rfl

theorem xor_xor_xor_comm (a b c d : BitVec 32)
    : (a ^^^ b) ^^^ (c ^^^ d) = (a ^^^ c) ^^^ (b ^^^ d) := by
  ac_rfl

/-- The sum of those words that bits pick among the first of a stream, in which a function moves
each word on to the next.
-/
def pickedBelow (next : BitVec 32 → BitVec 32) (bits word : BitVec 32) : Nat → BitVec 32
  | 0 => 0
  | n + 1 => pickedBelow next bits word n ^^^ pick (bits.getLsbD n) (next^[n] word)

/-- The sum of those words that bits pick among the first 32. -/
def picked (next : BitVec 32 → BitVec 32) (bits word : BitVec 32) : BitVec 32 :=
  pickedBelow next bits word 32

section Sums

variable {next : BitVec 32 → BitVec 32}

theorem pickedBelow_xor (bits bits' word : BitVec 32) (n : Nat)
    : pickedBelow next (bits ^^^ bits') word n
      = pickedBelow next bits word n ^^^ pickedBelow next bits' word n := by
  induction n with
  | zero => exact (BitVec.xor_self (x := 0)).symm
  | succ n ih =>
      simp only [pickedBelow]
      rw [ih, BitVec.getLsbD_xor, pick_xor, xor_xor_xor_comm]

theorem picked_xor (bits bits' word : BitVec 32)
    : picked next (bits ^^^ bits') word = picked next bits word ^^^ picked next bits' word :=
  pickedBelow_xor bits bits' word 32

theorem picked_zero (word : BitVec 32) : picked next 0 word = 0 := by
  have linear : Linear fun bits => picked next bits word := fun bits bits' =>
    picked_xor bits bits' word
  exact linear.map_zero

theorem linear_pickedBelow (linear : Linear next) (bits : BitVec 32) (n : Nat)
    : Linear fun word => pickedBelow next bits word n := by
  induction n with
  | zero => exact fun _ _ => (BitVec.xor_self (x := 0)).symm
  | succ n ih =>
      intro word word'
      have first := ih word word'
      simp only [pickedBelow] at first ⊢
      rw [first, linear.iterate n, linear_pick, xor_xor_xor_comm]

theorem linear_picked (linear : Linear next) (bits : BitVec 32) : Linear (picked next bits) :=
  linear_pickedBelow linear bits 32

/-- What passes over sums and keeps the pace of two streams takes sums in one to sums in the
other.
-/
theorem pickedBelow_map {f next' : BitVec 32 → BitVec 32} (linear : Linear f)
    (paced : ∀ word, f (next' word) = next (f word)) (bits word : BitVec 32) (n : Nat)
    : f (pickedBelow next' bits word n) = pickedBelow next bits (f word) n := by
  induction n with
  | zero => exact linear.map_zero
  | succ n ih =>
      have later : f (next'^[n] word) = next^[n] (f word) :=
        (Function.Semiconj.iterate_right paced n) word
      simp only [pickedBelow]
      rw [linear, ih, linear.map_pick, later]

/-- The first word alone is picked by one. -/
theorem picked_one (word : BitVec 32) : picked next 1 word = word := by
  simp [picked, pickedBelow, pick]

/-- Bits that are moved up by one place pick the words that come next. -/
theorem pickedBelow_shiftLeft (linear : Linear next) (bits word : BitVec 32) {n : Nat}
    (lt : n < 32)
    : pickedBelow next (bits <<< 1) word (n + 1) = next (pickedBelow next bits word n) := by
  induction n with
  | zero =>
      have none : (bits <<< 1).getLsbD 0 = false := by simp
      simp only [pickedBelow, none]
      exact (BitVec.xor_self (x := 0)).trans linear.map_zero.symm
  | succ n ih =>
      have moved : (bits <<< 1).getLsbD (n + 1) = bits.getLsbD n := by
        simp [BitVec.getLsbD_shiftLeft, lt, -BitVec.getLsbD_eq_getElem]
      rw [pickedBelow, ih (by omega), moved, Function.iterate_succ_apply', ← linear.map_pick,
        ← linear, ← pickedBelow]

end Sums

-----------------------------------------------------------------------------------------
-- The feedback of a stream
-----------------------------------------------------------------------------------------

/-- A word moved on, in bits. -/
def advance (word : BitVec 32) : BitVec 32 :=
  mixed (fun word n => word <<< n) 5
    (mixed (fun word n => word >>> n) 17
      (mixed (fun word n => word <<< n) 13 word))

theorem linear_advance : Linear advance :=
  (Linear.mixed moves_left 5).comp ((Linear.mixed moves_right 17).comp (Linear.mixed moves_left 13))

/-- The bits that pick the word after 32 draws among those before it. -/
def feedback : BitVec 32 := 0x3ec241

theorem iterate_advance_eq_picked (word : BitVec 32)
    : advance^[32] word = picked advance feedback word := by
  refine (linear_advance.iterate 32).eq_of_units (linear_picked linear_advance feedback) ?_ word
  decide +kernel

/-- The bits that pick the word after the one that these pick. -/
def push (bits : BitVec 32) : BitVec 32 := (bits <<< 1) ^^^ pick (bits.getLsbD 31) feedback

theorem picked_push (bits word : BitVec 32)
    : picked advance (push bits) word = advance (picked advance bits word) := by
  have last : picked advance (pick (bits.getLsbD 31) feedback) word
      = pick (bits.getLsbD 31) (advance^[32] word) := by
    rw [iterate_advance_eq_picked]
    cases bits.getLsbD 31
    · exact picked_zero word
    · rfl
  have others : picked advance (bits <<< 1) word = advance (pickedBelow advance bits word 31) :=
    pickedBelow_shiftLeft linear_advance bits word (by omega)
  rw [push, picked_xor, last, others, Function.iterate_succ_apply', ← linear_advance.map_pick,
    ← linear_advance, ← pickedBelow, ← picked]

/-- The bits that pick what some pick in the stream of the word that others pick. -/
def times (bits bits' : BitVec 32) : BitVec 32 := picked push bits bits'

theorem picked_times (bits bits' word : BitVec 32)
    : picked advance (times bits bits') word
      = picked advance bits (picked advance bits' word) := by
  refine pickedBelow_map (f := fun bits => picked advance bits word) ?_ ?_ bits bits' 32
  · exact fun bits bits' => picked_xor bits bits' word
  · exact fun bits => picked_push bits word

/-- The bits that pick the word after a number of draws, which has so many binary digits. -/
def power : (digits n : Nat) → BitVec 32
  | 0, _ => 1
  | digits + 1, n =>
    let half := power digits (n / 2)
    let square := times half half
    if n % 2 = 1 then push square else square

theorem picked_power {digits n : Nat} (lt : n < 2 ^ digits) (word : BitVec 32)
    : picked advance (power digits n) word = advance^[n] word := by
  induction digits generalizing n word with
  | zero =>
      obtain rfl : n = 0 := by omega
      exact picked_one word
  | succ digits ih =>
      have half := ih (show n / 2 < 2 ^ digits by omega)
      have square
          : picked advance (times (power digits (n / 2)) (power digits (n / 2))) word
            = advance^[n / 2 + n / 2] word := by
        rw [picked_times, half, half, Function.iterate_add_apply]
      simp only [power]
      split
      next odd =>
        have count : n = (n / 2 + n / 2).succ := by omega
        rw [picked_push, square, ← Function.iterate_succ_apply' advance, ← count]
      next even =>
        have count : n = n / 2 + n / 2 := by omega
        rw [square, ← count]

-----------------------------------------------------------------------------------------
-- The period of a word
-----------------------------------------------------------------------------------------

/-- The number of words other than zero. -/
def period : Nat := 2 ^ 32 - 1

theorem toBitVec_wordAfter (seed : UInt32) (n : Nat)
    : (wordAfter seed n).toBitVec = advance^[n] seed.toBitVec := by
  have paced : Function.Semiconj UInt32.toBitVec step advance := toBitVec_step
  exact paced.iterate_right n seed

theorem wordAfter_eq_iff (seed : UInt32) (n : Nat)
    : wordAfter seed n = seed ↔ advance^[n] seed.toBitVec = seed.toBitVec := by
  rw [← toBitVec_wordAfter, UInt32.toBitVec_inj]

/-- After `2 ^ 32` draws the word is what it is after one. -/
theorem wordAfter_two_pow (seed : UInt32) : wordAfter seed (2 ^ 32) = wordAfter seed 1 := by
  have same : power 33 (2 ^ 32) = power 33 1 := by decide +kernel
  have last := picked_power (show 2 ^ 32 < 2 ^ 33 by decide) seed.toBitVec
  have first := picked_power (show 1 < 2 ^ 33 by decide) seed.toBitVec
  rw [← UInt32.toBitVec_inj, toBitVec_wordAfter, toBitVec_wordAfter, ← last, ← first, same]

theorem wordAfter_period (seed : UInt32) : wordAfter seed period = seed := by
  have moved : wordAfter (wordAfter seed period) 1 = wordAfter seed 1 := by
    rw [wordAfter_wordAfter, ← wordAfter_two_pow]
    rfl
  exact (wordAfter_inj 1).1 moved

/-- The prime factors of the period. With each come the bits that make one, in a product with the
sum of one and those that pick the word after the period by this factor.
-/
def factors : List (Nat × BitVec 32) :=
  [(3, 0x9a1b191d), (5, 0x256daa81), (17, 0x552bd776), (257, 0xac9b5802), (65537, 0xd1472012)]

theorem prime_of_mem_factors {entry : Nat × BitVec 32} (member : entry ∈ factors)
    : entry.1.Prime := by
  have all : ∀ p ∈ factors.map Prod.fst, p.Prime := by
    simp only [factors, List.map_cons, List.map_nil, List.forall_mem_cons, List.not_mem_nil]
    norm_num
  exact all _ (List.mem_map_of_mem member)

theorem exists_mem_factors {p : Nat} (prime : p.Prime) (divides : p ∣ period)
    : ∃ bits, (p, bits) ∈ factors := by
  have product : period = (factors.map Prod.fst).prod := by decide
  rw [product, prime.prime.dvd_prod_iff] at divides
  obtain ⟨q, listed, divides⟩ := divides
  obtain ⟨⟨q, bits⟩, member, rfl⟩ := List.mem_map.1 listed
  obtain rfl := (Nat.prime_dvd_prime_iff_eq prime (prime_of_mem_factors member)).1 divides
  exact ⟨bits, member⟩

theorem times_power_factors
    : ∀ entry ∈ factors, times entry.2 (power 32 (period / entry.1) ^^^ 1) = 1 := by
  decide +kernel

/-- A word that the period by a factor brings back is zero, for it is what some bits pick in the
stream of the sum of two equal words.
-/
theorem wordAfter_ne {p : Nat} (prime : p.Prime) (divides : p ∣ period) {seed : UInt32}
    (some : seed ≠ 0)
    : wordAfter seed (period / p) ≠ seed := by
  obtain ⟨bits, member⟩ := exists_mem_factors prime divides
  have small : period / p < 2 ^ 32 :=
    Nat.lt_of_le_of_lt (Nat.div_le_self period p) (by decide)
  intro back
  have same := (wordAfter_eq_iff seed (period / p)).1 back
  refine some (UInt32.toBitVec_inj.1 ?_)
  calc seed.toBitVec
    _ = picked advance (times bits (power 32 (period / p) ^^^ 1)) seed.toBitVec := by
      rw [times_power_factors _ member, picked_one]
    _ = picked advance bits (advance^[period / p] seed.toBitVec ^^^ seed.toBitVec) := by
      rw [picked_times, picked_xor, picked_power small, picked_one]
    _ = 0 := by
      rw [same, BitVec.xor_self]
      exact (linear_picked linear_advance bits).map_zero

/-- A proper divisor of the period would divide it by one of the factors, too. -/
theorem minimalPeriod_step {seed : UInt32} (some : seed ≠ 0)
    : minimalPeriod step seed = period := by
  have back : IsPeriodicPt step period seed := wordAfter_period seed
  obtain ⟨k, whole⟩ := back.minimalPeriod_dvd
  refine Decidable.byContradiction fun proper => ?_
  have more : k ≠ 1 := by
    rintro rfl
    exact proper (by rw [whole, Nat.mul_one])
  obtain ⟨p, prime, j, rfl⟩ := Nat.exists_prime_and_dvd more
  have whole : period = minimalPeriod step seed * j * p := by
    rw [whole]
    ac_rfl
  refine wordAfter_ne prime ⟨_, whole.trans (Nat.mul_comm _ p)⟩ some ?_
  rw [Nat.div_eq_of_eq_mul_left prime.pos whole]
  exact (Function.isPeriodicPt_minimalPeriod step seed).mul_const j

-----------------------------------------------------------------------------------------
-- The cycle
-----------------------------------------------------------------------------------------

theorem step_zero : step 0 = 0 := rfl

theorem wordAfter_zero (n : Nat) : wordAfter 0 n = 0 := Function.iterate_fixed step_zero n

theorem wordAfter_ne_zero {seed : UInt32} (some : seed ≠ 0) (n : Nat) : wordAfter seed n ≠ 0 := by
  rw [← wordAfter_zero n]
  exact mt (wordAfter_inj n).1 some

theorem bijective_step : Function.Bijective step := by
  refine ⟨injective_step, fun word => ⟨wordAfter word (period - 1), ?_⟩⟩
  rw [step_wordAfter]
  exact wordAfter_period word

/-- A word comes back after just the multiples of the period. -/
theorem wordAfter_eq_self_iff {seed : UInt32} (some : seed ≠ 0) (n : Nat)
    : wordAfter seed n = seed ↔ period ∣ n := by
  rw [← minimalPeriod_step some]
  exact Function.isPeriodicPt_iff_minimalPeriod_dvd

/-- Within a period no word comes twice. -/
theorem wordAfter_ne_wordAfter {seed : UInt32} (some : seed ≠ 0) {i j : Nat} (later : i < j)
    (near : j < i + period)
    : wordAfter seed i ≠ wordAfter seed j := by
  obtain ⟨d, rfl⟩ := Nat.exists_eq_add_of_le' (Nat.le_of_lt later)
  rw [← wordAfter_wordAfter]
  intro same
  have back := ((wordAfter_inj i).1 same).symm
  have least := Nat.le_of_dvd (by omega) ((wordAfter_eq_self_iff some d).1 back)
  omega

/-- Every word other than zero is met, as there are no more of them than draws in a period. -/
theorem exists_wordAfter_eq {seed word : UInt32} (some : seed ≠ 0) (other : word ≠ 0)
    : ∃ n < period, wordAfter seed n = word := by
  have positive {word : UInt32} (other : word ≠ 0) : 1 ≤ word.toNat := by
    refine Nat.one_le_iff_ne_zero.2 fun zero => other ?_
    exact UInt32.toNat_inj.1 zero
  have distinct : Set.InjOn (fun n => (wordAfter seed n).toNat) (Finset.range period) := by
    intro i hi j hj same
    have hi := Finset.mem_range.1 hi
    have hj := Finset.mem_range.1 hj
    have same := UInt32.toNat_inj.1 same
    rcases Nat.lt_trichotomy i j with before | rfl | before
    · exact absurd same (wordAfter_ne_wordAfter some before (by omega))
    · rfl
    · exact absurd same.symm (wordAfter_ne_wordAfter some before (by omega))
  have inside : (Finset.range period).image (fun n => (wordAfter seed n).toNat)
      ⊆ Finset.Ico 1 (2 ^ 32) := by
    intro k member
    obtain ⟨n, _, rfl⟩ := Finset.mem_image.1 member
    exact Finset.mem_Ico.2 ⟨positive (wordAfter_ne_zero some n), (wordAfter seed n).toNat_lt⟩
  have all := Finset.eq_of_subset_of_card_le inside (by
    rw [Finset.card_image_of_injOn distinct, Finset.card_range, Nat.card_Ico]
    exact Nat.le_refl period)
  have member : word.toNat ∈ Finset.Ico 1 (2 ^ 32) :=
    Finset.mem_Ico.2 ⟨positive other, word.toNat_lt⟩
  rw [← all] at member
  obtain ⟨n, below, same⟩ := Finset.mem_image.1 member
  exact ⟨n, Finset.mem_range.1 below, UInt32.toNat_inj.1 same⟩

-----------------------------------------------------------------------------------------
-- Draws
-----------------------------------------------------------------------------------------

/-- The draw with an index, counted from zero. -/
def drawAt (seed : UInt32) (n : Nat) : Binary64 := value (wordAfter seed (n + 1))

theorem next_run (seed : UInt32) (n : Nat)
    : next.run (wordAfter seed n) = (drawAt seed n, wordAfter seed (n + 1)) := by
  rw [drawAt, ← step_wordAfter]
  rfl

theorem words_eq (seed : UInt32) (count : Nat)
    : words seed count = (List.range (count + 1)).map (wordAfter seed) := by
  induction count generalizing seed with
  | zero => rfl
  | succ count ih =>
      have later : wordAfter (step seed) = wordAfter seed ∘ Nat.succ := rfl
      rw [words, ih, later, ← List.map_map, List.range_succ_eq_map (n := count + 1),
        List.map_cons]
      rfl

theorem take_eq (seed : UInt32) (count : Nat)
    : take seed count = (List.range count).map (drawAt seed) := by
  have draws : drawAt seed = (value ∘ wordAfter seed) ∘ Nat.succ := by
    funext n
    rw [drawAt, Function.comp_apply, Function.comp_apply]
  rw [take, words_eq, List.range_succ_eq_map, List.map_cons, List.drop_one, List.tail_cons,
    List.map_map, List.map_map, draws, Function.comp_assoc]

theorem value_inj {word word' : UInt32} : value word = value word' ↔ word = word' := by
  refine ⟨fun same => ?_, fun same => same ▸ rfl⟩
  simp only [value_eq, finite.injEq, true_and] at same
  exact UInt32.toNat_inj.1 (Nat.eq_of_mul_eq_mul_right fraction_pos same)

/-- The draw of a word other than zero is neither zero nor one. -/
theorem value_bounds {word : UInt32} (some : word ≠ 0) : 0 < value word ∧ value word < 1 := by
  have number : (value word).isNaN = false := isNaN_round _ _ _
  have numberOne : (1 : Binary64).isNaN = false := by
    change (ofNat 1).isNaN = false
    rw [ofNat]
    exact isNaN_round _ _ _
  have place : (value word).place = (word.toNat * fraction : Nat) := by
    rw [value_eq, Binary64.place, signed, if_neg Bool.false_ne_true]
  have placeOne : (1 : Binary64).place = (2 ^ 32 * fraction : Nat) := by
    change (ofNat 1).place = _
    rw [ofNat_eq_finite (representable_mul_one (by decide)), Binary64.place, signed,
      if_neg Bool.false_ne_true, Nat.one_mul, one_eq]
  have positive : 0 < word.toNat := by
    refine Nat.pos_of_ne_zero fun zero => some ?_
    exact UInt32.toNat_inj.1 zero
  have low := Nat.mul_lt_mul_of_pos_right positive fraction_pos
  have below : word.toNat < 2 ^ 32 := word.toNat_lt
  have high := Nat.mul_lt_mul_of_pos_right below fraction_pos
  rw [Nat.zero_mul] at low
  refine ⟨lt_iff.2 ⟨isNaN_zero, number, ?_⟩, lt_iff.2 ⟨number, numberOne, ?_⟩⟩
  · rw [place_zero, place]
    exact Int.ofNat_lt.2 low
  · rw [placeOne, place]
    exact Int.ofNat_lt.2 high

theorem drawAt_zero (n : Nat) : drawAt 0 n = 0 := by
  change _ = ofNat 0
  rw [drawAt, wordAfter_zero, value, ofNat, UInt32.toNat_zero, Nat.zero_mul, Nat.zero_mul]

-----------------------------------------------------------------------------------------
-- The law
-----------------------------------------------------------------------------------------

/-- A stream that goes through every word other than zero before it meets its seed again. -/
structure Cyclic (seed : UInt32) : Prop where
  returns : ∀ n, wordAfter seed n = seed ↔ period ∣ n
  reaches : ∀ word, word ≠ 0 → ∃ n < period, wordAfter seed n = word
  nonzero : ∀ n, wordAfter seed n ≠ 0
  inside : ∀ n, 0 < drawAt seed n ∧ drawAt seed n < 1
  distinct
    : ∀ i j, i < j → j < i + period →
        wordAfter seed i ≠ wordAfter seed j ∧ drawAt seed i ≠ drawAt seed j

theorem cyclic {seed : UInt32} (some : seed ≠ 0) : Cyclic seed where
  returns := wordAfter_eq_self_iff some
  reaches _ := exists_wordAfter_eq some
  nonzero := wordAfter_ne_zero some
  inside n := value_bounds (wordAfter_ne_zero some (n + 1))
  distinct i j later near := by
    refine ⟨wordAfter_ne_wordAfter some later near, mt value_inj.1 ?_⟩
    exact wordAfter_ne_wordAfter some (by omega) (by omega)

/-- The words other than zero are one cycle, and zero is followed by itself. So a stream from any
other seed goes through all of them before one comes again, its draws lie strictly between zero and
one, and streams from two seeds never meet at the same index. The words and draws of the program
are these, and each draw is the exact quotient of its word and `2 ^ 32`.
-/
theorem period_law
    : (Function.Bijective step ∧ step 0 = 0)
      ∧ (∀ seed, seed ≠ 0 → Cyclic seed)
      ∧ (∀ seed seed', seed ≠ seed' → ∀ n, wordAfter seed n ≠ wordAfter seed' n)
      ∧ (∀ n, drawAt 0 n = 0)
      ∧ (∀ seed count,
        words seed count = (List.range (count + 1)).map (wordAfter seed)
        ∧ take seed count = (List.range count).map (drawAt seed)
        ∧ next.run (wordAfter seed count) = (drawAt seed count, wordAfter seed (count + 1)))
      ∧ ∀ word : UInt32, ∃ units h,
        value word = .finite false units h ∧ units * 2 ^ 32 = word.toNat * one := by
  refine ⟨⟨bijective_step, step_zero⟩, fun seed => cyclic, ?_, drawAt_zero, ?_, ?_⟩
  · intro seed seed' apart n
    exact mt (wordAfter_inj n).1 apart
  · intro seed count
    exact ⟨words_eq seed count, take_eq seed count, next_run seed count⟩
  · intro word
    refine ⟨_, _, value_eq word, ?_⟩
    rw [one_eq, Nat.mul_assoc, Nat.mul_comm fraction]

/-- Witness: the stream from one. It comes to the greatest word, and back to one after a period, and
never has the word of the stream from two.
-/
theorem period_law_one
    : ((1 : UInt32) ≠ 0 ∧ (4294967295 : UInt32) ≠ 0 ∧ (1 : UInt32) ≠ 2 ∧ 0 < period - 1)
      ∧ wordAfter 1 period = 1
      ∧ (∃ n < period, wordAfter 1 n = 4294967295)
      ∧ drawAt 1 0 ≠ drawAt 1 (period - 1)
      ∧ wordAfter 1 9 ≠ wordAfter 2 9 := by
  have terms : (1 : UInt32) ≠ 0 ∧ (4294967295 : UInt32) ≠ 0 ∧ (1 : UInt32) ≠ 2
      ∧ 0 < period - 1 := by
    decide
  obtain ⟨one, most, apart, far⟩ := terms
  obtain ⟨-, cycles, streams, -⟩ := period_law
  have stream := cycles 1 one
  refine ⟨⟨one, most, apart, far⟩, ?_, ?_, ?_, streams 1 2 apart 9⟩
  · exact (stream.returns period).2 (Nat.dvd_refl period)
  · exact stream.reaches 4294967295 most
  · exact (stream.distinct 0 (period - 1) far (by decide)).2

end Screener.Draws
