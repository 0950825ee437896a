import Screener.Proofs.Decimal.Fixed
import Screener.Proofs.Market.Invented
import Screener.Proofs.Market.Sentiment

/-!
The ranges of invented snapshots. Every table takes two draws for an entry, so each figure has its
place in the stream whatever is drawn before it; the figures that become counts are exact, and
their counts are therefore known from the words at those places.
-/

namespace Screener.Market

open Binary64 Draws
open Decimal (Nearest nearest_iff)

-- Arithmetic must not be evaluated.
attribute [local irreducible] one bound

-----------------------------------------------------------------------------------------
-- Places in the stream
-----------------------------------------------------------------------------------------

/-- The count that a word stands for. -/
def Spread.countAt (spread : Spread) (word : UInt32) : UInt32 :=
  UInt32.ofNat ((spread.figure (value word)).toWhole 0 (UInt32.size - 1))

theorem run_sample (spread : Spread) (word : UInt32)
    : spread.sample.run word = (spread.figure (value (step word)), step word) :=
  rfl

theorem run_count (spread : Spread) (word : UInt32)
    : spread.count.run word = (spread.countAt (step word), step word) :=
  rfl

/-- A table names its entries in order and takes two draws for each, by induction along them. -/
theorem run_sampleAll {α : Type} (make : String → Binary64 → Binary64 → α) (name : α → String)
    (named : ∀ title first second, name (make title first second) = title)
    (entries : List Entry) (seed : UInt32)
    : ((sampleAll make entries).run seed).1.map name = entries.map Entry.name
      ∧ ((sampleAll make entries).run seed).2 = wordAfter seed (2 * entries.length) := by
  induction entries generalizing seed with
  | nil => exact ⟨rfl, rfl⟩
  | cons entry entries ih =>
      obtain ⟨names, word⟩ := ih (wordAfter seed 2)
      have first : wordAfter seed 2 = step (step seed) := rfl
      rw [sampleAll] at names word ⊢
      simp only [List.mapM_cons, run_bind, run_sample, run_pure, ← first, List.map_cons, named,
        names, word, wordAfter_wordAfter, List.length_cons]
      exact ⟨trivial, congrArg (wordAfter seed) (by omega)⟩

/-- The places of the counts and of the change in volume among the draws of a snapshot, and the
names of its tables.
-/
structure Placed (seed : UInt32) (m : Snapshot) : Prop where
  indices : m.indices.map IndexQuote.name = indexEntries.map Entry.name
  adv : m.adv = Spread.countAt ⟨900, 0, 2300⟩ (wordAfter seed 11)
  decl : m.decl = Spread.countAt ⟨700, 0, 2000⟩ (wordAfter seed 12)
  volume : m.volChangePct = Spread.figure ⟨0, 0.5, 24⟩ (value (wordAfter seed 13))
  upLimit : m.upLimit = Spread.countAt ⟨20, 0, 90⟩ (wordAfter seed 14)
  downLimit : m.downLimit = Spread.countAt ⟨3, 0, 28⟩ (wordAfter seed 15)
  sectors : m.sectors.map Sector.name = sectorEntries.map Entry.name

theorem placed_sampleSnapshot (seed : UInt32) : Placed seed (outcome sampleSnapshot seed) := by
  obtain ⟨names, word⟩ := run_sampleAll IndexQuote.mk IndexQuote.name (fun _ _ _ => rfl)
    indexEntries seed
  have draws : 2 * indexEntries.length = 6 := rfl
  rw [draws] at word
  have sectors (word : UInt32) := (run_sampleAll Sector.mk Sector.name (fun _ _ _ => rfl)
    sectorEntries word).1
  -- Each step of the run is proved, so that none of the stream is evaluated.
  constructor <;>
    simp -implicitDefEqProofs only [outcome, sampleSnapshot, run_bind, run_sample, run_count,
      run_pure, word, step_wordAfter, names, sectors]

/-- The scores have no place in the stream. -/
theorem Placed.rescored {seed : UInt32} {m : Snapshot} (placed : Placed seed m)
    (volIntensity sentimentScore : UInt32)
    : Placed seed { m with volIntensity, sentimentScore } :=
  ⟨placed.indices, placed.adv, placed.decl, placed.volume, placed.upLimit, placed.downLimit,
    placed.sectors⟩

theorem placed_invented (seed : UInt32) : Placed seed (invented seed) := by
  rw [invented_eq]
  exact (placed_sampleSnapshot seed).rescored _ _

-----------------------------------------------------------------------------------------
-- Counts
-----------------------------------------------------------------------------------------

/-- A count is the figure `base + scale · k / 2 ^ 32` of a word `k`, rounded to nearest with a half
going up. The figure is not below zero, where counts would be held.
-/
structure Counted (base scale : Nat) (word count : UInt32) : Prop where
  figure : 0 ≤ Spread.figure ⟨ofNat base, 0, ofNat scale⟩ (value word)
  nearest : Nearest (base * 2 ^ 32 + scale * word.toNat) (2 ^ 32) count.toNat
  least : base ≤ count.toNat
  most : count.toNat ≤ base + scale

theorem value_sub_zero (word : UInt32) : value word - 0 = value word := by
  change value word + neg 0 = _
  rw [value_eq, zero_eq]
  change add _ (.finite true 0 _) = _
  have exact := round_exact false Nat.one_pos (Nat.mul_one _).symm
    (representable_mul_fraction (toNat_lt_mantissa word))
  rcases Nat.eq_zero_or_pos (word.toNat * fraction) with none | some
  · simp only [add, none, Nat.lt_irrefl, ↓reduceIte, Bool.false_eq_true]
    exact round_exact false Nat.one_pos (Nat.zero_mul 1).symm _
  · simp only [add, Bool.false_eq_true, ↓reduceIte, some, Nat.sub_zero]
    exact exact

/-- The figures that become counts are exact. -/
theorem figure_eq {base scale : Nat} (positive : 0 < scale) (small : base < 2 ^ 20)
    (small' : scale < 2 ^ 20) (word : UInt32)
    (h : Representable ((base * 2 ^ 32 + scale * word.toNat) * fraction))
    : Spread.figure ⟨ofNat base, 0, ofNat scale⟩ (value word)
      = .finite false ((base * 2 ^ 32 + scale * word.toNat) * fraction) h := by
  have product : scale * word.toNat < 2 ^ 53 :=
    calc scale * word.toNat
      _ ≤ scale * 2 ^ 32 := Nat.mul_le_mul_left _ (Nat.le_of_lt word.toNat_lt)
      _ < 2 ^ 53 := by omega
  have g : Representable (scale * word.toNat * fraction) := representable_mul_fraction product
  rw [Spread.figure, value_sub_zero, value_mul_ofNat word positive (by omega) g,
    ofNat_add_fraction (by omega) g h]

theorem counted_countAt {base scale : Nat} (positive : 0 < scale) (small : base < 2 ^ 20)
    (small' : scale < 2 ^ 20) (word : UInt32)
    : Counted base scale word (Spread.countAt ⟨ofNat base, 0, ofNat scale⟩ word) := by
  have most : scale * word.toNat ≤ scale * 2 ^ 32 :=
    Nat.mul_le_mul_left _ (Nat.le_of_lt word.toNat_lt)
  have h : Representable ((base * 2 ^ 32 + scale * word.toNat) * fraction) :=
    representable_mul_fraction (by omega)
  have figure := figure_eq positive small small' word h
  have count : (Spread.countAt ⟨ofNat base, 0, ofNat scale⟩ word).toNat
      = (2 * (base * 2 ^ 32 + scale * word.toNat) + 2 ^ 32) / 2 ^ 33 := by
    rw [Spread.countAt, figure]
    simp only [toWhole, Bool.false_eq_true, ↓reduceIte, wholeUnits_mul_fraction,
      UInt32.toNat_ofNat', UInt32.size]
    omega
  constructor
  · rw [figure, le_iff, place_zero]
    exact ⟨isNaN_zero, rfl, Int.natCast_nonneg _⟩
  · rw [nearest_iff (by decide), count]
    omega
  · omega
  · omega

-----------------------------------------------------------------------------------------
-- The change in volume
-----------------------------------------------------------------------------------------

theorem volume_bounds (word : UInt32)
    : -12 ≤ Spread.figure ⟨0, 0.5, 24⟩ (value word)
      ∧ Spread.figure ⟨0, 0.5, 24⟩ (value word) < 12 := by
  have least : (-12 : Binary64) ≤ Spread.figure ⟨0, 0.5, 24⟩ 0 := by decide +kernel
  have most : Spread.figure ⟨0, 0.5, 24⟩ (value 4294967295) < 12 := by decide +kernel
  have last : word ≤ 4294967295 := by
    have below := word.toNat_lt
    rw [UInt32.le_iff_toNat_le]
    exact Nat.le_of_lt_succ below
  have mono {a b : Binary64} (le : a ≤ b)
      : Spread.figure ⟨0, 0.5, 24⟩ a ≤ Spread.figure ⟨0, 0.5, 24⟩ b :=
    Spread.figure_mono (by decide +kernel) (by decide +kernel) (by decide +kernel) le
  exact ⟨le_trans least (mono (zero_le_value word)), lt_of_le_of_lt (mono (value_mono last)) most⟩

-----------------------------------------------------------------------------------------
-- Scores of snapshots
-----------------------------------------------------------------------------------------

namespace Snapshot

variable {m : Snapshot}

theorem isNaN_indexChange (finite : m.Finite) (i : Nat) : (m.indexChange i).isNaN = false := by
  unfold indexChange
  split
  next quote there =>
    exact isNaN_of_isFinite (finite.indices quote (List.mem_of_getElem? there)).2
  next => exact isNaN_zero

/-- The scores of a snapshot with finite figures are in their ranges. -/
theorem scores_withScores (finite : m.Finite)
    : (6 ≤ m.withScores.volIntensity.toNat ∧ m.withScores.volIntensity.toNat ≤ 99)
      ∧ m.withScores.sentimentScore.toNat ≤ 100 := by
  have moves := intensity_bounds (isNaN_indexChange finite 0) (isNaN_indexChange finite 2)
    (isNaN_of_isFinite finite.volChangePct)
  have mood := sentiment_le m.adv m.decl m.volChangePct m.upLimit m.downLimit
  simp only [withScores, UInt32.toNat_ofNat']
  omega

end Snapshot

-----------------------------------------------------------------------------------------
-- Invented snapshots
-----------------------------------------------------------------------------------------

/-- A snapshot is within the ranges of those invented from a seed. -/
structure Ranged (seed : UInt32) (m : Snapshot) : Prop where
  adv : Counted 900 2300 (wordAfter seed 11) m.adv
  decl : Counted 700 2000 (wordAfter seed 12) m.decl
  upLimit : Counted 20 90 (wordAfter seed 14) m.upLimit
  downLimit : Counted 3 28 (wordAfter seed 15) m.downLimit
  volume : -12 ≤ m.volChangePct ∧ m.volChangePct < 12
  finite : m.Finite
  indices : m.indices.length = 3 ∧ (m.indices.map IndexQuote.name).Nodup
  sectors : m.sectors.length = 7 ∧ (m.sectors.map Sector.name).Nodup
  volIntensity : 6 ≤ m.volIntensity.toNat ∧ m.volIntensity.toNat ≤ 99
  sentimentScore : m.sentimentScore.toNat ≤ 100
  scores : m.withScores = m

theorem Placed.indices_nodup {seed : UInt32} {m : Snapshot} (placed : Placed seed m)
    : m.indices.length = 3 ∧ (m.indices.map IndexQuote.name).Nodup := by
  have length := congrArg List.length placed.indices
  rw [List.length_map] at length
  rw [length, placed.indices]
  exact ⟨rfl, by decide⟩

theorem Placed.sectors_nodup {seed : UInt32} {m : Snapshot} (placed : Placed seed m)
    : m.sectors.length = 7 ∧ (m.sectors.map Sector.name).Nodup := by
  have length := congrArg List.length placed.sectors
  rw [List.length_map] at length
  rw [length, placed.sectors]
  exact ⟨rfl, by decide⟩

/-- Every invented snapshot is within its ranges, whatever its seed is. Its counts are those of the
words at their places in the stream, its change in volume is less than twelve percent either way,
its figures are finite, its indices and sectors are those of the tables under different names, and
its scores are in range and those of its other parts.
-/
theorem invented_law (seed : UInt32) : Ranged seed (invented seed) := by
  have placed := placed_invented seed
  have scores := Snapshot.scores_withScores (finite_invented seed)
  rw [withScores_invented] at scores
  exact {
    adv := placed.adv ▸ counted_countAt (by decide) (by decide) (by decide) _
    decl := placed.decl ▸ counted_countAt (by decide) (by decide) (by decide) _
    upLimit := placed.upLimit ▸ counted_countAt (by decide) (by decide) (by decide) _
    downLimit := placed.downLimit ▸ counted_countAt (by decide) (by decide) (by decide) _
    volume := placed.volume ▸ volume_bounds _
    finite := finite_invented seed
    indices := placed.indices_nodup
    sectors := placed.sectors_nodup
    volIntensity := scores.1
    sentimentScore := scores.2
    scores := withScores_invented seed }

end Screener.Market
