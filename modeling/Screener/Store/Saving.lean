import Screener.Phrase.Rule
import Screener.Store.Basic

/-!
Saving a strategy from free text.
-/

namespace Screener

/-- The draft that a text describes, under a name if one is given. -/
def Phrase.draftOf (now : Timestamp) (text : String) (name : Option String) : Strategy :=
  let base := Strategy.draft now
  merge text { base with name := (name.map Text.trimmed).getD "" }

/-- Saves the strategy that a text describes. -/
def StrategyStore.save {σ : Type} [StrategyStore σ] (store : σ) (id : String) (now : Timestamp)
    (text : String) (name : Option String)
    : Except StoreProblem (Strategy × σ) :=
  create store id now (Phrase.draftOf now text name)

end Screener
