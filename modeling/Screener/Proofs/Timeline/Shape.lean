import Screener.Proofs.Draws
import Screener.Proofs.Sorting
import Screener.Proofs.Text.Substring
import Screener.Proofs.Timeline.Run

/-!
The shape of timelines. All arithmetic on the first draw is exact, so the number of events is
known from its word; what is shown is the start of the stable sort of the events by day.
-/

namespace Screener.Timeline

open Binary64 Draws

-----------------------------------------------------------------------------------------
-- The number of events
-----------------------------------------------------------------------------------------

/-- The number of events is the first draw, scaled and rounded: `4 + 7 k / 2 ^ 32`. The bounds
that it is held between are never reached.
-/
theorem countOf_value (word : UInt32)
    : countOf (value word) = (4 * 2 ^ 32 + 7 * word.toNat + 2 ^ 31) / 2 ^ 32 := by
  have below := word.toNat_lt
  have factor : Representable (7 * word.toNat * fraction) :=
    representable_mul_fraction (by omega)
  have sum : Representable ((4 * 2 ^ 32 + 7 * word.toNat) * fraction) :=
    representable_mul_fraction (by omega)
  have scaled := value_mul_ofNat word (show 0 < 7 by decide) (by decide) factor
  have moved := ofNat_add_fraction (show 4 < 2 ^ 53 by decide) factor sum
  change (ofNat 4 + value word * ofNat 7).toWhole 2 12 = _
  rw [scaled, moved]
  simp only [toWhole, Bool.false_eq_true, ↓reduceIte, wholeUnits_mul_fraction]
  omega

theorem countOf_value_bounds (word : UInt32)
    : 4 ≤ countOf (value word) ∧ countOf (value word) ≤ 11 := by
  have below := word.toNat_lt
  rw [countOf_value]
  omega

-----------------------------------------------------------------------------------------
-- Days
-----------------------------------------------------------------------------------------

theorem toNat_window (days : UInt32)
    : (window days).toNat = max 20 (min days.toNat 120) := by
  unfold window
  split
  next low =>
    have low : days.toNat < 20 := low
    simp only [UInt32.reduceToNat]
    omega
  split
  next high =>
    have high : 120 < days.toNat := high
    simp only [UInt32.reduceToNat]
    omega
  next low high =>
    have low : ¬days.toNat < 20 := low
    have high : ¬120 < days.toNat := high
    omega

theorem window_window (days : UInt32) : window (window days) = window days := by
  apply UInt32.toNat_inj.1
  rw [toNat_window, toNat_window]
  omega

/-- A day lies in the window, whatever the draw. -/
theorem dayOf_bounds {days : UInt32} (positive : 0 < days.toNat) (small : days.toNat < 2 ^ 21)
    (word : UInt32)
    : 1 ≤ dayOf days (value word) ∧ dayOf days (value word) ≤ days.toNat := by
  have below := word.toNat_lt
  have product : days.toNat * word.toNat < 2 ^ 53 :=
    calc days.toNat * word.toNat
      _ ≤ days.toNat * 2 ^ 32 := Nat.mul_le_mul_left _ (Nat.le_of_lt below)
      _ < 2 ^ 53 := by omega
  rw [dayOf, value_mul_ofNat word positive (by omega) (representable_mul_fraction product)]
  simp only [toWhole, Bool.false_eq_true, ↓reduceIte]
  omega

-----------------------------------------------------------------------------------------
-- Explanations
-----------------------------------------------------------------------------------------

/-- Every explanation holds the advice that its draw chooses. -/
theorem explanationAt_ne_empty (strategy : Strategy) (s : Security) (leader : Option String)
    (kind : Kind) (word : UInt32)
    : explanationAt strategy s leader kind word ≠ "" := by
  cases kind <;> simp only [explanationAt, explain, run_bind, advice_run, run_pure]
  case buy =>
    refine Text.intercalate_ne_empty (List.mem_append_right _ (List.mem_singleton_self _)) ?_
    split <;> decide
  case sell =>
    refine Text.intercalate_ne_empty
      (List.mem_cons_of_mem _ (List.mem_singleton_self _)) ?_
    split <;> decide
  case note =>
    refine Text.intercalate_ne_empty (List.mem_append_left _
      (List.mem_append_right _ (List.mem_singleton_self _))) ?_
    split <;> decide

-----------------------------------------------------------------------------------------
-- Sorting
-----------------------------------------------------------------------------------------

section Sorting

variable {α : Type} (key : α → Nat) (xs : List α)

theorem pairwise_mergeSort_key
    : (xs.mergeSort fun a b => key a ≤ key b).Pairwise fun a b => key a ≤ key b := by
  have sorted := @List.pairwise_mergeSort α (fun a b => decide (key a ≤ key b))
    (fun a b c => by simpa using Nat.le_trans) (fun a b => by simpa using Nat.le_total _ _) xs
  simpa using sorted

/-- Sorting by a key leaves the elements of one key in their order. -/
theorem filter_mergeSort_key (k : Nat)
    : (xs.mergeSort fun a b => key a ≤ key b).filter (key · == k) = xs.filter (key · == k) := by
  refine filter_mergeSort (fun a b c => by simpa using Nat.le_trans)
    (fun a b => by simpa using Nat.le_total _ _) fun a _ b _ ha hb => ?_
  rw [beq_iff_eq] at ha hb
  simp [ha, hb]

end Sorting

-----------------------------------------------------------------------------------------
-- The shape of a timeline
-----------------------------------------------------------------------------------------

/-- An event lies in a window and is what its kind says. -/
structure WellFormed (width : Nat) (event : Event) : Prop where
  first : 1 ≤ event.day
  last : event.day ≤ width
  key : event.sortKey = event.day
  title : event.title = event.kind.title
  tag : event.tag = event.kind.tag
  explained : event.explanation ≠ ""

/-- What a timeline of a window holds of the events of a run, whose first draw is at a word.
The count is `4 + 7 k / 2 ^ 32`, rounded to nearest with a half going up.
-/
structure Shape (width : Nat) (word : UInt32) (events timeline : List Event) : Prop where
  count : events.length = (4 * 2 ^ 32 + 7 * word.toNat + 2 ^ 31) / 2 ^ 32
  few : events.length ≤ 11
  shownCount : timeline.length = min events.length 10
  some : 4 ≤ timeline.length
  start : timeline = (events.mergeSort fun a b => a.day ≤ b.day).take (min events.length 10)
  byDay : timeline.Pairwise fun a b => a.day ≤ b.day
  stable : ∀ day, timeline.filter (·.day == day) <+: events.filter (·.day == day)
  dropped
    : ∀ event ∈ timeline,
        ∀ later ∈ (events.mergeSort fun a b => a.day ≤ b.day).drop (min events.length 10),
          event.day ≤ later.day
  wellFormed : ∀ event ∈ events, WellFormed width event

theorem wellFormed_generated (strategy : Strategy) (s : Security) (days seed : UInt32)
    (market : Option Market.Snapshot)
    : ∀ event ∈ generated strategy s days seed market,
        WellFormed (window days).toNat event := by
  intro event member
  rw [generated_eq_map] at member
  obtain ⟨word, _, rfl⟩ := List.mem_map.1 member
  have width := toNat_window days
  have bounds := dayOf_bounds (show 0 < (window days).toNat by omega)
    (show (window days).toNat < 2 ^ 21 by omega) (step word)
  rw [← dayAt] at bounds
  constructor
  · rw [day_eventAt]
    exact bounds.1
  · rw [day_eventAt]
    exact bounds.2
  · rw [sortKey_eventAt, day_eventAt]
  · rw [title_eventAt, kind_eventAt]
  · rw [tag_eventAt, kind_eventAt]
  · rw [explanation_eventAt]
    exact explanationAt_ne_empty _ _ _ _ _

theorem length_generated (strategy : Strategy) (s : Security) (days seed : UInt32)
    (market : Option Market.Snapshot)
    : (generated strategy s days seed market).length
      = countOf (value (step (seedWord strategy s days seed))) := by
  rw [generated_eq_map, List.length_map, length_starts]

/-- A timeline is the start of its events by day, ties in the order of their draws. -/
theorem simulate_eq_take (strategy : Strategy) (s : Security) (days seed : UInt32)
    (market : Option Market.Snapshot)
    : simulate strategy s days seed market
      = ((generated strategy s days seed market).mergeSort fun a b => a.day ≤ b.day).take
          (min (generated strategy s days seed market).length 10) := by
  have formed := wellFormed_generated strategy s days seed market
  have keys
      : (generated strategy s days seed market).mergeSort (fun a b => a.sortKey ≤ b.sortKey)
        = (generated strategy s days seed market).mergeSort fun a b => a.day ≤ b.day :=
    mergeSort_congr fun a ha b hb => by rw [(formed a ha).key, (formed b hb).key]
  rw [simulate_eq, keys, List.take_eq_take_min, List.length_mergeSort, Nat.min_comm]
  rfl

/-- Every timeline has its shape, and only the held window counts. -/
theorem simulate_shape (strategy : Strategy) (s : Security) (days seed : UInt32)
    (market : Option Market.Snapshot)
    : (window days).toNat = max 20 (min days.toNat 120)
      ∧ Shape (window days).toNat (step (seedWord strategy s days seed))
          (generated strategy s days seed market) (simulate strategy s days seed market)
      ∧ simulate strategy s days seed market
        = simulate strategy s (window days) seed market := by
  have start := simulate_eq_take strategy s days seed market
  have count := length_generated strategy s days seed market
  have bounds := countOf_value_bounds (step (seedWord strategy s days seed))
  have formed := wellFormed_generated strategy s days seed market
  rw [← count] at bounds
  rw [countOf_value] at count
  refine ⟨toNat_window days, ?_, ?_⟩
  · generalize generated strategy s days seed market = events at start count bounds formed
    generalize simulate strategy s days seed market = timeline at start
    have sorted := pairwise_mergeSort_key Event.day events
    have shown : timeline.length = min events.length 10 := by
      rw [start, List.length_take, List.length_mergeSort]
      omega
    refine ⟨count, bounds.2, shown, by omega, start, ?_, ?_, ?_, formed⟩
    · rw [start]
      exact sorted.sublist (List.take_sublist _ _)
    · intro day
      rw [start, ← filter_mergeSort_key Event.day events day]
      exact (List.take_prefix _ _).filter _
    · intro event member later dropped
      rw [start] at member
      exact sorted.rel_of_mem_take_of_mem_drop member dropped
  · have word : seedWord strategy s (window days) seed = seedWord strategy s days seed := by
      rw [seedWord, seedWord, window_window]
    rw [simulate_eq_map, simulate_eq_map, window_window, word]

end Screener.Timeline
