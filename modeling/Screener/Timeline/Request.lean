import Screener.Failure
import Screener.Market.Feed
import Screener.Timeline.Simulation
import Screener.Universe.Basic

/-!
Simulations as they are asked for: by the code of a security, with a window and a seed that
the settings supply where they are not given.
-/

namespace Screener

/-- What a simulation is asked for. -/
structure SimulationRequest where
  code : String
  days : Option UInt32 := none
  seed : Option UInt32 := none
deriving DecidableEq, Repr

/-- A simulation with all that it was made from. -/
structure Simulation where
  security : Security
  strategy : Strategy
  days : UInt32
  seed : UInt32
  events : List Timeline.Event
deriving DecidableEq

namespace Simulation

/-- The simulation of a strategy on a security of a universe. -/
def of (securities : List Security) (strategy : Strategy) (market : Market.Resolved)
    (request : SimulationRequest) (settings : Settings)
    : Except Failure Simulation :=
  match Universe.find? securities request.code with
  | none => .error (.unknownSecurity request.code)
  | some security =>
    let days := Timeline.window (request.days.getD settings.days)
    let seed := request.seed.getD settings.seed
    .ok ⟨security, strategy, days, seed,
      Timeline.simulate strategy security days seed (some market.snapshot)⟩

/-- What a record of the simulation says of its terms. -/
def params (s : Simulation) : Json.Value :=
  .object
    [("code", .text s.security.code), ("days", .ofWord s.days), ("kind", .text "simulate"),
      ("seed", .ofWord s.seed)]

/-- The events as a document. -/
def eventDocument (s : Simulation) : Json.Value :=
  .list (s.events.map Timeline.Event.document)

/-- What a record of the simulation says of its outcome. -/
def result (s : Simulation) : Json.Value :=
  .object [("count", .ofNat s.events.length), ("events", s.eventDocument)]

end Simulation

end Screener
