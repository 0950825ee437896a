import Screener.Command.Execution
import Screener.Proofs.Command.Work

/-!
Commands that open no database leave all files as they are. Only a command that works with a
stored strategy, or on the store itself, opens one.
-/

namespace Screener

open Work

/-- The strategy comes from the database. -/
def StrategyChoice.isStored : StrategyChoice → Bool
  | .stored _ => true
  | .draft | .text _ => false

namespace Work

theorem looks_chosen (around : Surroundings) (settings : Settings) {choice : StrategyChoice}
    (free : choice.isStored = false) {β : Type} {next : Strategy × Origin → Work β}
    (others : ∀ s, Looks (next (s, none)))
    : Looks (chosen around settings choice >>= next) := by
  cases choice with
  | draft => exact others _
  | text text => exact others _
  | stored id => contradiction

end Work

namespace Command

theorem looks_showMarket (settings : Settings) (seed : Option UInt32) (asDocument : Bool)
    : Looks (showMarket settings seed asDocument) :=
  looks_bind (looks_resolveMarket settings seed) fun _ => looks_pure _

theorem looks_readText (around : Surroundings) (text : String) (base : Option String)
    (asDocument : Bool)
    : Looks (readText around text base asDocument) := by
  have told (line : String) (s : Strategy)
      : Looks (say line >>= fun _ => pure (Reply.report s.card)) :=
    looks_bind (looks_say line) fun _ => looks_pure (Reply.report s.card)
  have rest (base : Strategy) : Looks (do
      let s := Phrase.merge text base
      if asDocument then return Reply.document s.document
      let names := Phrase.matchedRules text
      if names.isEmpty then say "No rule fragments recognised; draft unchanged"
      else say ("Recognised: " ++ String.intercalate ", " names)
      return Reply.report s.card) := by
    dsimp only
    split
    · exact looks_pure _
    · split
      · exact told _ _
      · exact told _ _
  unfold readText
  cases base with
  | none => exact looks_bind (looks_pure _) rest
  | some path =>
      refine looks_bind (Work.looks_readText path) fun _ => ?_
      refine looks_bind (looks_lift _ _) fun _ => ?_
      exact looks_bind (looks_lift _ _) rest

theorem looks_screenAll (around : Surroundings) (settings : Settings) {choice : StrategyChoice}
    (free : choice.isStored = false) (asDocument : Bool)
    : Looks (screenAll around settings choice asDocument) := by
  refine looks_chosen around settings free fun s => ?_
  refine looks_bind (looks_loadSecurities settings) fun _ => ?_
  exact looks_bind (looks_pure _) fun _ => looks_answer asDocument _ _ _

theorem looks_simulateOne (around : Surroundings) (settings : Settings)
    (request : SimulationRequest) {choice : StrategyChoice} (free : choice.isStored = false)
    (asDocument : Bool)
    : Looks (simulateOne around settings request choice asDocument) := by
  refine looks_bind (looks_loadSecurities settings) fun _ => ?_
  refine looks_chosen around settings free fun s => ?_
  refine looks_bind (looks_resolveMarket settings _) fun _ => ?_
  refine looks_bind (looks_lift _ _) fun _ => ?_
  exact looks_bind (looks_pure _) fun _ => looks_answer asDocument _ _ _

theorem looks_searchAll (settings : Settings) (query : String) (watchlist : List String)
    : Looks (searchAll settings query watchlist) := by
  refine looks_bind (looks_loadSecurities settings) fun _ => ?_
  dsimp only
  split
  · exact looks_bind (looks_say _) fun _ => looks_pure _
  · exact looks_pure _

theorem looks_showSecurity (settings : Settings) (code : String) (seed : Option UInt32)
    : Looks (showSecurity settings code seed) := by
  refine looks_bind (looks_loadSecurities settings) fun _ => ?_
  refine looks_bind (looks_findSecurity _ code) fun _ => ?_
  exact looks_bind (looks_resolveMarket settings seed) fun _ => looks_pure _

end Command

end Screener
