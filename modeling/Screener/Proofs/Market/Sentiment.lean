import Screener.Market.Sentiment
import Screener.Proofs.Binary64.Logarithm

/-!
The scores of a market are held in their ranges and never go against their arguments. Every step
of their computation keeps the order of what it is given, from the ratio of the shares through the
logarithm to the rounding at the end, so that none of the bounds they pass can turn it round.
-/

namespace Screener.Market

open Binary64

-- Arithmetic must not be evaluated.
attribute [local irreducible] one bound Binary64.round

-----------------------------------------------------------------------------------------
-- The shares of the sentiment
-----------------------------------------------------------------------------------------

/-- What the sentiment needs of a logarithm: from zero up its values are numbers that do not
decrease, and that of the base of the scale is positive.
-/
structure IsLogarithm (ln : Binary64 → Binary64) : Prop where
  mono : ∀ {a b : Binary64}, 0 ≤ a → a ≤ b → ln a ≤ ln b
  base : (ln 1.5).isPositive = true

theorem isLogarithm_ln : IsLogarithm Binary64.ln := ⟨ln_mono, isPositive_ln_base⟩

theorem zero_le_hundred : (0 : Binary64) ≤ 100 := by decide +kernel

theorem isFinite_fifty : (50 : Binary64).isFinite = true := by decide +kernel

theorem isPositive_divisor (decl : UInt32) : (ofNat (max decl.toNat 1)).isPositive = true := by
  have small := toNat_lt_mantissa decl
  exact isPositive_ofNat (by omega) (by omega)

theorem advanceDeclineRatio_nonneg (adv decl : UInt32) : 0 ≤ advanceDeclineRatio adv decl := by
  rw [advanceDeclineRatio]
  exact div_nonneg (isPositive_divisor decl) (ofNat_nonneg _)

/-- The ratio grows with the advancing shares and falls with the declining ones. -/
theorem advanceDeclineRatio_mono {adv adv' decl decl' : UInt32} (more : adv ≤ adv')
    (fewer : decl' ≤ decl)
    : advanceDeclineRatio adv decl ≤ advanceDeclineRatio adv' decl' := by
  rw [UInt32.le_iff_toNat_le] at more fewer
  refine le_trans (div_le_div_of_isPositive (isPositive_divisor decl) (ofNat_mono more)) ?_
  have small := toNat_lt_mantissa adv'
  have divisor := toNat_lt_mantissa decl
  have positive : max decl'.toNat 1 * one ≠ 0 := Nat.ne_of_gt (Nat.mul_pos (by omega) one_pos)
  have smaller : max decl'.toNat 1 * one ≤ max decl.toNat 1 * one :=
    Nat.mul_le_mul_right one (by omega)
  rw [advanceDeclineRatio, ofNat_eq_finite (representable_mul_one small),
    ofNat_eq_finite (representable_mul_one (n := max decl.toNat 1) (by omega)),
    ofNat_eq_finite (representable_mul_one (n := max decl'.toNat 1) (by omega))]
  exact div_le_div_left positive smaller

/-- A share of the sentiment lies in its range. -/
def InRange (share : Binary64) : Prop := 0 ≤ share ∧ share ≤ 100

theorem inRange_clamp {v : Binary64} (number : v.isNaN = false) : InRange (v.clamp 0 100) :=
  clamp_bounds zero_le_hundred number

variable {ln : Binary64 → Binary64}

/-- The breadth before it is held in its range. -/
theorem breadth_mono (log : IsLogarithm ln) {a b : Binary64} (nonneg : 0 ≤ a) (le : a ≤ b)
    : ln a / ln 1.5 * 40 + 50 ≤ ln b / ln 1.5 * 40 + 50 := by
  have forty : (40 : Binary64).isPositive = true := by decide +kernel
  rw [Binary64.add_comm _ 50, Binary64.add_comm _ 50]
  exact add_le_add_left isFinite_fifty
    (mul_le_mul_of_isPositive forty (div_le_div_of_isPositive log.base (log.mono nonneg le)))

theorem breadthScore_mono (log : IsLogarithm ln) {adv adv' decl decl' : UInt32}
    (more : adv ≤ adv') (fewer : decl' ≤ decl)
    : breadthScore ln adv decl ≤ breadthScore ln adv' decl' :=
  clamp_mono zero_le_hundred (breadth_mono log (advanceDeclineRatio_nonneg adv decl)
    (advanceDeclineRatio_mono more fewer))

theorem inRange_breadthScore (log : IsLogarithm ln) (adv decl : UInt32)
    : InRange (breadthScore ln adv decl) := by
  have ratio := advanceDeclineRatio_nonneg adv decl
  have same := breadth_mono log ratio (le_refl (le_iff.1 ratio).2.1)
  exact inRange_clamp (le_iff.1 same).1

theorem volume_mono {v v' : Binary64} (le : v ≤ v') : 50 + v * 1.3 ≤ 50 + v' * 1.3 := by
  have weight : (1.3 : Binary64).isPositive = true := by decide +kernel
  exact add_le_add_left isFinite_fifty (mul_le_mul_of_isPositive weight le)

theorem volumeScore_mono {v v' : Binary64} (le : v ≤ v') : volumeScore v ≤ volumeScore v' :=
  clamp_mono zero_le_hundred (volume_mono le)

theorem inRange_volumeScore {v : Binary64} (number : v.isNaN = false)
    : InRange (volumeScore v) :=
  inRange_clamp (le_iff.1 (volume_mono (le_refl number))).1

/-- The difference of two counts grows with the first and falls with the second. -/
theorem limit_mono {up up' down down' : UInt32} (more : up ≤ up') (fewer : down' ≤ down)
    : 50 + (ofNat up.toNat - ofNat down.toNat) * 0.35
      ≤ 50 + (ofNat up'.toNat - ofNat down'.toNat) * 0.35 := by
  have weight : (0.35 : Binary64).isPositive = true := by decide +kernel
  have spread : ofNat up.toNat - ofNat down.toNat ≤ ofNat up'.toNat - ofNat down'.toNat :=
    le_trans (sub_le_sub_right (isFinite_ofNat (toNat_lt_mantissa down)) (ofNat_mono more))
      (sub_le_sub_left (isFinite_ofNat (toNat_lt_mantissa up')) (ofNat_mono fewer))
  exact add_le_add_left isFinite_fifty (mul_le_mul_of_isPositive weight spread)

theorem limitScore_mono {up up' down down' : UInt32} (more : up ≤ up') (fewer : down' ≤ down)
    : limitScore up down ≤ limitScore up' down' :=
  clamp_mono zero_le_hundred (limit_mono more fewer)

theorem inRange_limitScore (up down : UInt32) : InRange (limitScore up down) :=
  inRange_clamp (le_iff.1 (limit_mono (UInt32.le_refl up) (UInt32.le_refl down))).1

-----------------------------------------------------------------------------------------
-- The sentiment
-----------------------------------------------------------------------------------------

/-- A score of breadth, volume and limit moves that is held in its range, grows with the
advancing shares, the volume and the upper limit moves, and falls with the declining shares and the
lower limit moves. A volume is ordered with itself just if it is a number.
-/
structure Sensible (score : UInt32 → UInt32 → Binary64 → UInt32 → UInt32 → Nat) : Prop where
  bounded : ∀ adv decl volume up down, score adv decl volume up down ≤ 100
  mono : ∀ {adv adv' decl decl' : UInt32} {volume volume' : Binary64}
    {up up' down down' : UInt32}, adv ≤ adv' → decl' ≤ decl → volume ≤ volume' → up ≤ up' →
      down' ≤ down → score adv decl volume up down ≤ score adv' decl' volume' up' down'

/-- A weighted sum of three shares grows with each of them. -/
theorem blend_mono {a a' b b' c c' : Binary64} (ha : InRange a) (hb : InRange b) (hc : InRange c)
    (first : a ≤ a') (second : b ≤ b') (third : c ≤ c')
    : a * 0.55 + b * 0.25 + c * 0.2 ≤ a' * 0.55 + b' * 0.25 + c' * 0.2 := by
  have breadth : (0.55 : Binary64).isPositive = true := by decide +kernel
  have volume : (0.25 : Binary64).isPositive = true := by decide +kernel
  have limit : (0.2 : Binary64).isPositive = true := by decide +kernel
  refine add_le_add_of_nonneg ?_ (mul_nonneg limit hc.1) ?_ (mul_le_mul_of_isPositive limit third)
  · exact add_nonneg (mul_nonneg breadth ha.1) (mul_nonneg volume hb.1)
  · exact add_le_add_of_nonneg (mul_nonneg breadth ha.1) (mul_nonneg volume hb.1)
      (mul_le_mul_of_isPositive breadth first) (mul_le_mul_of_isPositive volume second)

theorem sentimentWith_le (ln : Binary64 → Binary64) (adv decl : UInt32) (volume : Binary64)
    (up down : UInt32)
    : sentimentWith ln adv decl volume up down ≤ 100 :=
  toWhole_le (by decide) _

theorem sensible_sentimentWith (log : IsLogarithm ln) : Sensible (sentimentWith ln) where
  bounded := sentimentWith_le ln
  mono more fewer volumes up down :=
    toWhole_mono (by decide)
      (blend_mono (inRange_breadthScore log _ _) (inRange_volumeScore (le_iff.1 volumes).1)
        (inRange_limitScore _ _) (breadthScore_mono log more fewer) (volumeScore_mono volumes)
        (limitScore_mono up down))

theorem sentiment_le (adv decl : UInt32) (volume : Binary64) (up down : UInt32)
    : sentiment adv decl volume up down ≤ 100 :=
  sentimentWith_le Binary64.ln adv decl volume up down

-----------------------------------------------------------------------------------------
-- The intensity
-----------------------------------------------------------------------------------------

variable {first first' third third' volume volume' : Binary64}

/-- The moves before they are held in their range. -/
theorem moves_mono (hfirst : 0 ≤ first.abs) (hthird : 0 ≤ third.abs) (hvolume : 0 ≤ volume.abs)
    (firsts : first.abs ≤ first'.abs) (thirds : third.abs ≤ third'.abs)
    (volumes : volume.abs ≤ volume'.abs)
    : first.abs * 18 + third.abs * 14 + volume.abs * 1.2
      ≤ first'.abs * 18 + third'.abs * 14 + volume'.abs * 1.2 := by
  have weight : (18 : Binary64).isPositive = true := by decide +kernel
  have weight' : (14 : Binary64).isPositive = true := by decide +kernel
  have weight'' : (1.2 : Binary64).isPositive = true := by decide +kernel
  refine add_le_add_of_nonneg ?_ (mul_nonneg weight'' hvolume) ?_
    (mul_le_mul_of_isPositive weight'' volumes)
  · exact add_nonneg (mul_nonneg weight hfirst) (mul_nonneg weight' hthird)
  · exact add_le_add_of_nonneg (mul_nonneg weight hfirst) (mul_nonneg weight' hthird)
      (mul_le_mul_of_isPositive weight firsts) (mul_le_mul_of_isPositive weight' thirds)

/-- Absolute values in order are those of numbers. -/
theorem abs_nonneg_of_le {a b : Binary64} (le : a.abs ≤ b.abs) : 0 ≤ a.abs :=
  abs_nonneg ((isNaN_abs a).symm.trans (le_iff.1 le).1)

theorem intensity_mono (firsts : first.abs ≤ first'.abs) (thirds : third.abs ≤ third'.abs)
    (volumes : volume.abs ≤ volume'.abs)
    : intensity first third volume ≤ intensity first' third' volume' :=
  toWhole_mono (by decide)
    (moves_mono (abs_nonneg_of_le firsts) (abs_nonneg_of_le thirds) (abs_nonneg_of_le volumes)
      firsts thirds volumes)

theorem intensity_bounds (hfirst : first.isNaN = false) (hthird : third.isNaN = false)
    (hvolume : volume.isNaN = false)
    : 6 ≤ intensity first third volume ∧ intensity first third volume ≤ 99 := by
  have self {a : Binary64} (number : a.isNaN = false) : a.abs ≤ a.abs :=
    le_refl ((isNaN_abs a).trans number)
  have same := moves_mono (abs_nonneg hfirst) (abs_nonneg hthird) (abs_nonneg hvolume)
    (self hfirst) (self hthird) (self hvolume)
  exact toWhole_bounds (by decide) (le_iff.1 same).1

-----------------------------------------------------------------------------------------
-- Both scores
-----------------------------------------------------------------------------------------

/-- Both scores stay in their ranges and never go against their arguments. The sentiment does so
over every logarithm that does not decrease, and so over the one that it is computed with; the
intensity of moves that are numbers grows with the absolute value of each of them.
-/
theorem scores_law
    : (∀ ln, IsLogarithm ln → Sensible (sentimentWith ln))
      ∧ Sensible sentiment
      ∧ (∀ first third volume : Binary64,
          first.isNaN = false → third.isNaN = false → volume.isNaN = false →
            6 ≤ intensity first third volume ∧ intensity first third volume ≤ 99)
      ∧ ∀ first first' third third' volume volume' : Binary64,
          first.abs ≤ first'.abs → third.abs ≤ third'.abs → volume.abs ≤ volume'.abs →
            intensity first third volume ≤ intensity first' third' volume' :=
  ⟨fun _ log => sensible_sentimentWith log, sensible_sentimentWith isLogarithm_ln,
    fun _ _ _ => intensity_bounds, fun _ _ _ _ _ _ => intensity_mono⟩

/-- A day on which no share advances, and one on which none declines and moves are unbounded. -/
theorem scores_law_recovery
    : IsLogarithm Binary64.ln ∧ (0 : UInt32) ≤ 500 ∧ (0 : UInt32) ≤ 3000
      ∧ (-100 : Binary64) ≤ 10 ∧ (0 : UInt32) ≤ 50 ∧ (50 : UInt32) ≤ 200
      ∧ sentimentWith Binary64.ln 0 3000 (-100) 0 200 ≤ sentiment 500 0 10 50 50
      ∧ sentiment 0 3000 (-100) 0 200 = 0 ∧ sentiment 500 0 10 50 50 = 81
      ∧ (-0.5 : Binary64).abs ≤ (infinite true).abs ∧ (0 : Binary64).abs ≤ (-1 : Binary64).abs
      ∧ (10 : Binary64).abs ≤ (50 : Binary64).abs
      ∧ intensity (-0.5) 0 10 ≤ intensity (infinite true) (-1) 50
      ∧ intensity (-0.5) 0 10 = 21 ∧ 6 ≤ intensity (infinite true) (-1) 50
      ∧ intensity (infinite true) (-1) 50 = 99 := by
  have volumes : (-100 : Binary64) ≤ 10 := by decide +kernel
  have first : (-0.5 : Binary64).abs ≤ (infinite true).abs := by decide +kernel
  have third : (0 : Binary64).abs ≤ (-1 : Binary64).abs := by decide +kernel
  have volume : (10 : Binary64).abs ≤ (50 : Binary64).abs := by decide +kernel
  obtain ⟨every, _, bounds, moves⟩ := scores_law
  refine ⟨isLogarithm_ln, by decide, by decide, volumes, by decide, by decide,
    (every Binary64.ln isLogarithm_ln).mono (by decide) (by decide) volumes (by decide) (by decide),
    by decide +kernel, by decide +kernel, first, third, volume,
    moves _ _ _ _ _ _ first third volume, by decide +kernel, ?_, by decide +kernel⟩
  exact (bounds _ _ _ rfl (by decide +kernel) (by decide +kernel)).1

end Screener.Market
