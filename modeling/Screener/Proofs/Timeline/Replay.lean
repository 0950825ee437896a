import Screener.Proofs.Text.Lowercase
import Screener.Proofs.Timeline.Shape
import Screener.Timeline.Request

/-!
Simulations are made again from their terms. The code of a security that is found leads to it
again, a window is its own window, and a seed that is given leaves nothing to the settings.
-/

namespace Screener

-----------------------------------------------------------------------------------------
-- Terms
-----------------------------------------------------------------------------------------

/-- The 32-bit word that a value is. -/
def Json.Value.asWord? : Json.Value → Option UInt32
  | .number (.integer n) =>
    if 0 ≤ n ∧ n.toNat < UInt32.size then some (UInt32.ofNat n.toNat) else none
  | _ => none

theorem Json.Value.asWord?_ofWord (n : UInt32) : (ofWord n).asWord? = some n := by
  have small : n.toNat < UInt32.size := n.toNat_lt
  simp [ofWord, ofNat, asWord?, small]

/-- The request that the terms of a simulation make: for its security, its window and its seed.
-/
def SimulationRequest.ofParams? (params : Json.Value) : Option SimulationRequest := do
  let code ← (params.member "code").asText?
  let days ← (params.member "days").asWord?
  let seed ← (params.member "seed").asWord?
  return ⟨code, some days, some seed⟩

/-- The request that asks for a simulation by its own terms. -/
def Simulation.again (simulation : Simulation) : SimulationRequest :=
  ⟨simulation.security.code, some simulation.days, some simulation.seed⟩

theorem Simulation.ofParams?_params (simulation : Simulation)
    : SimulationRequest.ofParams? simulation.params = some simulation.again := by
  have code : simulation.params.member "code" = .text simulation.security.code := rfl
  have days : simulation.params.member "days" = .ofWord simulation.days := rfl
  have seed : simulation.params.member "seed" = .ofWord simulation.seed := rfl
  rw [SimulationRequest.ofParams?, code, days, seed, Json.Value.asWord?_ofWord,
    Json.Value.asWord?_ofWord]
  rfl

-----------------------------------------------------------------------------------------
-- Securities
-----------------------------------------------------------------------------------------

namespace Universe

variable {securities : List Security} {code : String} {s : Security}

/-- A security is found under its code, which is the one that is asked for without the blanks
around it.
-/
theorem code_of_find? (found : find? securities code = some s) : s.code = Text.trimmed code := by
  have same := List.find?_some found
  exact beq_iff_eq.1 same

/-- A security that is found is found again under its own code. -/
theorem find?_code (found : find? securities code = some s)
    : find? securities s.code = some s := by
  have same := code_of_find? found
  have tight : Text.trimmed s.code = Text.trimmed code := by
    rw [same, Text.trimmed_trimmed]
  unfold find? at found ⊢
  rw [tight]
  exact found

end Universe

-----------------------------------------------------------------------------------------
-- Simulations
-----------------------------------------------------------------------------------------

theorem Timeline.window_bounds (days : UInt32) : 20 ≤ window days ∧ window days ≤ 120 := by
  rw [UInt32.le_iff_toNat_le, UInt32.le_iff_toNat_le, toNat_window]
  simp only [UInt32.reduceToNat]
  omega

namespace Simulation

variable {securities : List Security} {strategy : Strategy} {market : Market.Resolved}
  {request : SimulationRequest} {settings : Settings} {simulation : Simulation}

/-- A simulation that is made has found its security, and has the window and the seed that its
request and the settings leave it.
-/
theorem of_eq_ok
    : of securities strategy market request settings = .ok simulation
      ↔ ∃ security,
          Universe.find? securities request.code = some security
          ∧ simulation
            = ⟨security, strategy, Timeline.window (request.days.getD settings.days),
                request.seed.getD settings.seed,
                Timeline.simulate strategy security
                  (Timeline.window (request.days.getD settings.days))
                  (request.seed.getD settings.seed) (some market.snapshot)⟩ := by
  unfold of
  cases Universe.find? securities request.code with
  | none => simp
  | some security =>
      constructor
      · intro made
        exact ⟨security, rfl, (Except.ok.inj made).symm⟩
      · rintro ⟨_, same, rfl⟩
        obtain rfl := Option.some.inj same
        rfl

theorem days_bounds (made : of securities strategy market request settings = .ok simulation)
    : 20 ≤ simulation.days ∧ simulation.days ≤ 120 := by
  obtain ⟨_, _, rfl⟩ := of_eq_ok.1 made
  exact Timeline.window_bounds _

theorem seed_of (made : of securities strategy market request settings = .ok simulation)
    : simulation.seed = request.seed.getD settings.seed := by
  obtain ⟨_, _, rfl⟩ := of_eq_ok.1 made
  rfl

/-- By its own terms a simulation is made again, whatever the settings are now. -/
theorem of_again (made : of securities strategy market request settings = .ok simulation)
    (other : Settings)
    : of securities strategy market simulation.again other = .ok simulation := by
  obtain ⟨security, found, rfl⟩ := of_eq_ok.1 made
  refine of_eq_ok.2 ⟨security, Universe.find?_code found, ?_⟩
  simp only [again, Option.getD_some, Timeline.window_window]

end Simulation

end Screener
