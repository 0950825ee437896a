import Screener.Command.Work
import Screener.Proofs.Store.Agreement
import Screener.Proofs.Timeline.Shape
import Screener.Screening

/-!
What runs keep of screenings and simulations. Their terms and outcomes are documents, so a run
is read back as it was recorded.
-/

namespace Screener

open Json
open Json.Value (Fits)
open DocumentStore (runOf runRowOf runOf_stored)

namespace Json.Value

@[simp] theorem canonical_ofNat (n : Nat) : (ofNat n).canonical = ofNat n := by
  simp [ofNat, canonical]

@[simp] theorem canonical_ofWord (n : UInt32) : (ofWord n).canonical = ofWord n :=
  canonical_ofNat n.toNat

end Json.Value

open Json.Value (fits_ofNat fits_ofWord fits_ofFloat)

-----------------------------------------------------------------------------------------
-- Screenings
-----------------------------------------------------------------------------------------

theorem TechFlags.fits_document (depth : Nat) (tech : TechFlags)
    : Fits (depth + 2) tech.document := by
  refine .object ?_
  simp only [List.forall_mem_cons]
  exact ⟨.boolean _, .boolean _, .boolean _, List.forall_mem_nil _⟩

theorem Profile.fits_document (depth : Nat) (profile : Profile)
    : Fits (depth + 3) profile.document := by
  have concepts : Fits (depth + 2) (.list (profile.concepts.map .text)) :=
    .list (List.forall_mem_map.2 fun _ _ => .text _)
  refine .object ?_
  simp only [List.forall_mem_cons]
  exact ⟨.text _, concepts, List.forall_mem_nil _⟩

/-- A security has a document whatever its figures are. -/
theorem Security.fits_document (depth : Nat) (s : Security)
    : Fits (depth + 4) s.document := by
  refine .object ?_
  simp only [List.forall_mem_cons]
  exact ⟨.text _, .text _, .text _, fits_ofFloat _ _, fits_ofFloat _ _, fits_ofFloat _ _,
    fits_ofFloat _ _, fits_ofFloat _ _, s.tech.fits_document _, s.profile.fits_document _,
    List.forall_mem_nil _⟩

namespace Screening

/-- The run of a screening with a stored strategy: the first selected securities, their number,
and the size of the universe.
-/
def run (screening : Screening) (around : Surroundings) (strategyId : String) : Run where
  id := around.runId
  strategyId := strategyId
  params := .object [("kind", .text "screen"), ("trade_date", .text screening.tradeDate)]
  result := .object
    [("count", .ofNat (min 100 screening.selected.length)),
      ("items", .list ((screening.selected.take 100).map fun s => s.document.canonical)),
      ("total", .ofNat screening.total), ("trade_date", .text screening.tradeDate)]
  createdAt := around.now.toMicros

theorem stored_eq_run (screening : Screening) (around : Surroundings) (strategyId : String)
    : Run.stored around.runId around.now strategyId screening.params screening.result
      = screening.run around strategyId := by
  have terms : screening.params.canonical = screening.params := by
    have keys : ["kind", "trade_date"].Pairwise (· < ·) := by decide
    rw [params, canonical_object]
    · simp [Value.canonical]
    · exact keys
  have outcome : screening.result.canonical = (screening.run around strategyId).result := by
    have keys : ["count", "items", "total", "trade_date"].Pairwise (· < ·) := by decide
    rw [result, canonical_object]
    · simp [run, kept, Value.canonical, canonicalElements_eq_map, Function.comp_def]
    · exact keys
  rw [Run.stored, terms, outcome]
  rfl

theorem isDocument_params (screening : Screening) : screening.params.IsDocument := by
  refine Fits.isDocument (.object ?_)
  simp only [List.forall_mem_cons]
  exact ⟨.text _, .text _, List.forall_mem_nil _⟩

theorem isDocument_result {screening : Screening} (small : screening.total < UInt64.size)
    : screening.result.IsDocument := by
  have few : (screening.selected.take kept).length < UInt64.size :=
    Nat.lt_of_le_of_lt (List.length_take_le _ _) (by decide)
  refine Fits.isDocument (.object ?_)
  simp only [List.forall_mem_cons]
  refine ⟨fits_ofNat _ few, .list ?_, fits_ofNat _ small, .text _, List.forall_mem_nil _⟩
  exact List.forall_mem_map.2 fun s _ => s.fits_document _

theorem runOf_run {screening : Screening} (small : screening.total < UInt64.size)
    {around : Surroundings} (regular : around.now.Regular) (strategyId : String)
    : runOf (runRowOf (screening.run around strategyId))
      = .ok (screening.run around strategyId) := by
  rw [← stored_eq_run]
  exact runOf_stored screening.isDocument_params (isDocument_result small) regular _ _

end Screening

-----------------------------------------------------------------------------------------
-- Simulations
-----------------------------------------------------------------------------------------

theorem Timeline.Event.fits_document (depth : Nat) {width : Nat} {event : Timeline.Event}
    (formed : Timeline.WellFormed width event) (small : width < UInt64.size)
    : Fits (depth + 2) event.document := by
  have day : event.day < UInt64.size := Nat.lt_of_le_of_lt formed.last small
  have key : event.sortKey < UInt64.size := formed.key.symm ▸ day
  refine .object ?_
  simp only [List.forall_mem_cons]
  exact ⟨fits_ofNat _ day, .text _, .text _, .text _, .text _, fits_ofNat _ key,
    List.forall_mem_nil _⟩

theorem Timeline.wellFormed_simulate (strategy : Strategy) (s : Security) (days seed : UInt32)
    (market : Option Market.Snapshot)
    : ∀ event ∈ simulate strategy s days seed market,
        WellFormed (window days).toNat event := by
  intro event member
  rw [simulate_eq_take] at member
  have generated := List.mem_mergeSort.1 (List.mem_of_mem_take member)
  exact wellFormed_generated strategy s days seed market event generated

theorem Timeline.length_simulate_le (strategy : Strategy) (s : Security) (days seed : UInt32)
    (market : Option Market.Snapshot)
    : (simulate strategy s days seed market).length ≤ shown :=
  List.length_take_le _ _

namespace Simulation

variable {securities : List Security} {strategy : Strategy} {market : Market.Resolved}
  {request : SimulationRequest} {settings : Settings} {simulation : Simulation}

/-- The events of a simulation are those of the timeline of its own parts. -/
theorem events_of (made : of securities strategy market request settings = .ok simulation)
    : simulation.events
      = Timeline.simulate simulation.strategy simulation.security simulation.days
          simulation.seed (some market.snapshot) := by
  unfold of at made
  split at made
  · contradiction
  · obtain rfl := Except.ok.inj made
    rfl

/-- The run of a simulation with a stored strategy: all its events, and their number. -/
def run (simulation : Simulation) (around : Surroundings) (strategyId : String) : Run where
  id := around.runId
  strategyId := strategyId
  params := .object
    [("code", .text simulation.security.code), ("days", .ofWord simulation.days),
      ("kind", .text "simulate"), ("seed", .ofWord simulation.seed)]
  result := .object
    [("count", .ofNat simulation.events.length),
      ("events", .list (simulation.events.map fun event => event.document.canonical))]
  createdAt := around.now.toMicros

theorem stored_eq_run (simulation : Simulation) (around : Surroundings) (strategyId : String)
    : Run.stored around.runId around.now strategyId simulation.params simulation.result
      = simulation.run around strategyId := by
  have terms : simulation.params.canonical = simulation.params := by
    have keys : ["code", "days", "kind", "seed"].Pairwise (· < ·) := by decide
    rw [params, canonical_object]
    · simp [Value.canonical]
    · exact keys
  have outcome : simulation.result.canonical = (simulation.run around strategyId).result := by
    have keys : ["count", "events"].Pairwise (· < ·) := by decide
    rw [result, canonical_object]
    · simp [run, eventDocument, Value.canonical, canonicalElements_eq_map, Function.comp_def]
    · exact keys
  rw [Run.stored, terms, outcome]
  rfl

theorem isDocument_params (simulation : Simulation) : simulation.params.IsDocument := by
  refine Fits.isDocument (.object ?_)
  simp only [List.forall_mem_cons]
  exact ⟨.text _, fits_ofWord _ _, .text _, fits_ofWord _ _, List.forall_mem_nil _⟩

theorem isDocument_result
    (made : of securities strategy market request settings = .ok simulation)
    : simulation.result.IsDocument := by
  have few : simulation.events.length < UInt64.size := by
    rw [events_of made]
    exact Nat.lt_of_le_of_lt (Timeline.length_simulate_le _ _ _ _ _) (by decide)
  have width : (Timeline.window simulation.days).toNat < UInt64.size :=
    Nat.lt_trans (UInt32.toNat_lt _) (by decide)
  have events : ∀ event ∈ simulation.events, Fits 126 event.document := by
    rw [events_of made]
    exact fun event member => Timeline.Event.fits_document _
      (Timeline.wellFormed_simulate _ _ _ _ _ event member) width
  refine Fits.isDocument (.object ?_)
  simp only [List.forall_mem_cons]
  exact ⟨fits_ofNat _ few, .list (List.forall_mem_map.2 events), List.forall_mem_nil _⟩

theorem runOf_run
    (made : of securities strategy market request settings = .ok simulation)
    {around : Surroundings} (regular : around.now.Regular) (strategyId : String)
    : runOf (runRowOf (simulation.run around strategyId))
      = .ok (simulation.run around strategyId) := by
  rw [← stored_eq_run]
  exact runOf_stored simulation.isDocument_params (isDocument_result made) regular _ _

end Simulation

end Screener
