import Screener.Proofs.Draws
import Screener.Proofs.Screening
import Screener.Proofs.Timeline.Run

/-!
Screening and simulation agree. A score grows with its draw, so its values at the ends of the
range bound it: those around the level of selected securities never sell, and those around
the other level never buy.
-/

namespace Screener.Timeline

open Binary64

-----------------------------------------------------------------------------------------
-- Scores
-----------------------------------------------------------------------------------------

theorem isFinite_level (selected : Bool)
    : (if selected then (0.72 : Binary64) else 0.38).isFinite = true := by
  cases selected <;> decide +kernel

/-- A score grows with its draw: every step of its computation keeps the order. -/
theorem score_mono (selected : Bool) {a b : Binary64} (le : a ≤ b)
    : score selected a ≤ score selected b := by
  have half : (0.5 : Binary64).isFinite = true := by decide +kernel
  have spread : (0.45 : Binary64).isPositive = true := by decide +kernel
  exact add_le_add_left (isFinite_level selected)
    (mul_le_mul_of_isPositive spread (sub_le_sub_right half le))

/-- A selected security scores high enough not to be sold, even at the lowest draw. -/
theorem least_le_score (word : UInt32) : 0.3 ≤ score true (Draws.value word) := by
  have least : (0.3 : Binary64) ≤ score true 0 := by decide +kernel
  exact le_trans least (score_mono true (Draws.zero_le_value word))

/-- Another security scores too low to be bought, even at the highest draw. -/
theorem score_le_greatest (word : UInt32) : score false (Draws.value word) ≤ 0.72 := by
  have greatest : score false 1 ≤ (0.72 : Binary64) := by decide +kernel
  exact le_trans (score_mono false (Draws.value_le_one word)) greatest

-----------------------------------------------------------------------------------------
-- Kinds of events
-----------------------------------------------------------------------------------------

theorem ofScore_ne_sell {score : Binary64} (high : 0.3 ≤ score) : Kind.ofScore score ≠ .sell := by
  unfold Kind.ofScore
  split
  next => nofun
  next =>
    rw [if_neg (not_lt_of_le high)]
    nofun

theorem ofScore_ne_buy {score : Binary64} (low : score ≤ 0.72) : Kind.ofScore score ≠ .buy := by
  unfold Kind.ofScore
  rw [if_neg (not_lt_of_le low)]
  split <;> nofun

theorem kindAt_ne_sell {strategy : Strategy} {s : Security}
    (selected : strategy.selects s = true) (word : UInt32)
    : kindAt strategy s word ≠ .sell := by
  rw [kindAt, selected]
  exact ofScore_ne_sell (least_le_score _)

theorem kindAt_ne_buy {strategy : Strategy} {s : Security}
    (other : strategy.selects s = false) (word : UInt32)
    : kindAt strategy s word ≠ .buy := by
  rw [kindAt, other]
  exact ofScore_ne_buy (score_le_greatest _)

/-- The two ways in which the explanation of a chance to buy ends. -/
def buyClosings : List String :=
  ["建议：分批试错，止损线先设定再下单。", "建议：等二次确认，避免追涨。"]

theorem explanationAt_buy (strategy : Strategy) (s : Security) (leader : Option String)
    (word : UInt32)
    : ∃ closing ∈ buyClosings,
        explanationAt strategy s leader .buy word
          = String.intercalate " " (buyReasons strategy s ++ [closing]) := by
  simp only [explanationAt, explain, run_bind, advice_run, run_pure]
  refine ⟨_, ?_, rfl⟩
  split <;> simp [buyClosings]

/-- Screening and simulation agree on every security, whatever its figures are. A selected one
is never to be sold and another never to be bought, so the limits and the signal that the
explanation of a chance to buy names all hold.
-/
theorem simulate_agrees (strategy : Strategy) (s : Security) (days seed : UInt32)
    (market : Option Market.Snapshot)
    : (∀ securities, s ∈ securities →
        (s ∈ strategy.screen securities ↔ strategy.selects s = true))
      ∧ (strategy.selects s = true →
        ∀ event ∈ simulate strategy s days seed market, event.kind ≠ .sell)
      ∧ (strategy.selects s = false →
        ∀ event ∈ simulate strategy s days seed market, event.kind ≠ .buy)
      ∧ ∀ event ∈ simulate strategy s days seed market, event.kind = .buy →
        (∃ closing ∈ buyClosings,
          event.explanation = String.intercalate " " (buyReasons strategy s ++ [closing]))
        ∧ (∀ limit, strategy.filters.peMax = some limit → s.pe ≤ limit)
        ∧ (∀ limit, strategy.filters.mcapMaxYi = some limit → s.mcapYi ≤ limit)
        ∧ (∀ limit, strategy.filters.turnMinPct = some limit → limit ≤ s.turnoverPct)
        ∧ ∀ trigger, strategy.filters.tech = some trigger →
          s.tech.shows trigger = true := by
  have drawn {event : Event} (member : event ∈ simulate strategy s days seed market)
      : ∃ word, event = eventAt strategy s (window days) (leaderOf market) word := by
    rw [simulate_eq_map] at member
    obtain ⟨word, _, rfl⟩ := List.mem_map.1 member
    exact ⟨word, rfl⟩
  have unselected (other : strategy.selects s = false) {event : Event}
      (member : event ∈ simulate strategy s days seed market)
      : event.kind ≠ .buy := by
    obtain ⟨word, rfl⟩ := drawn member
    rw [kind_eventAt]
    exact kindAt_ne_buy other word
  refine ⟨?_, ?_, fun other event member => unselected other member, ?_⟩
  · intro securities inside
    simp [Strategy.screen, inside]
  · intro selected event member
    obtain ⟨word, rfl⟩ := drawn member
    rw [kind_eventAt]
    exact kindAt_ne_sell selected word
  · intro event member bought
    have selected : strategy.selects s = true := by
      cases decided : strategy.selects s with
      | true => rfl
      | false => exact absurd bought (unselected decided member)
    have met := Filters.passes_iff.1 selected
    refine ⟨?_, met.peMax, met.mcapMaxYi, met.turnMinPct, met.tech⟩
    obtain ⟨word, rfl⟩ := drawn member
    rw [kind_eventAt] at bought
    rw [explanation_eventAt, bought]
    exact explanationAt_buy strategy s _ _

end Screener.Timeline
