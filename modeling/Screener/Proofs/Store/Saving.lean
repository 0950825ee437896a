import Screener.Proofs.Store.Creations
import Screener.Proofs.Strategy.Drafts
import Screener.Store.Saving

/-!
Saving a strategy does not change what it does. A store gives it an identifier, a time and tags,
none of which has a part in that; the name, which enters the key of a simulation, is trimmed
before a draft is handed to a store, and limits with numbers are read back.
-/

namespace Screener

open StrategyStore (serve serveAll)

-----------------------------------------------------------------------------------------
-- What is handed to a store
-----------------------------------------------------------------------------------------

/-- The drafts that are handed to stores: what a text describes, under a name if one is given,
and what a form describes.
-/
inductive Strategy.Handed : Strategy → Prop
  | told (now : Timestamp) (text : String) (name : Option String)
    : Handed (Phrase.draftOf now text name)
  | filled (form : Form) (now : Timestamp) : Handed (form.strategy now)

/-- No draft is handed to a store under a name that trimming alters. -/
theorem Strategy.Handed.trimmed_name {d : Strategy} (handed : d.Handed)
    : Text.trimmed d.name = d.name := by
  cases handed with
  | filled form now => exact Text.trimmed_trimmed form.name
  | told now text name =>
      have given : Text.trimmed ((name.map Text.trimmed).getD "") = (name.map Text.trimmed).getD ""
          := by
        cases name with
        | none => decide
        | some name => exact Text.trimmed_trimmed name
      unfold Phrase.draftOf
      by_cases blank : Text.trim text.toList = []
      · rw [Phrase.merge_of_blank _ blank]
        exact given
      · rw [Phrase.name_merge _ blank]
        split
        · exact Strategy.trimmed_suggestedName _
        · exact given

-----------------------------------------------------------------------------------------
-- What a strategy does
-----------------------------------------------------------------------------------------

/-- Both strategies choose the same securities, have the same events in every simulation, and are
described alike.
-/
structure Strategy.SameConduct (s t : Strategy) : Prop where
  screen : ∀ securities, s.screen securities = t.screen securities
  simulate
    : ∀ security days seed market,
        Timeline.simulate s security days seed market
          = Timeline.simulate t security days seed market
  summary : s.summary = t.summary
  suggestedName : s.suggestedName = t.suggestedName

/-- What a strategy does follows from its rule and its name. -/
theorem Strategy.SameRule.sameConduct {s t : Strategy} (same : s.SameRule t)
    (name : s.name = t.name)
    : s.SameConduct t where
  screen := same.screen
  simulate := same.simulate name
  summary := same.summary
  suggestedName := same.suggestedName

/-- A stored strategy does what its draft does, and so does what its document tells. -/
theorem Strategy.Handed.sameConduct_stored {d s : Strategy} (handed : d.Handed) {id : String}
    {now : Timestamp} (stored : d.stored id now = .ok s)
    : d.SameConduct s ∧ (d.Finite → d.SameConduct s.readBack) := by
  have rule := sameRule_stored stored
  have name : d.name = s.name := by
    obtain ⟨_, rfl⟩ := stored_eq_ok stored
    exact handed.trimmed_name.symm
  refine ⟨rule.sameConduct name, fun finite => ?_⟩
  have finite := finite.of_sameRule rule
  have told : d.SameRule s.readBack :=
    ⟨rule.filters.trans finite.filters_readBack.symm, rule.exits.trans finite.exits_readBack.symm⟩
  exact told.sameConduct name

-----------------------------------------------------------------------------------------
-- Saving
-----------------------------------------------------------------------------------------

/-- A store takes the draft just if it has a name. What its identifier finds then, whatever the
store is asked for later, does what the draft does.
-/
structure KeepsConduct (σ : Type) [StrategyStore σ] (before after : List StoreRequest)
    (id : String) (now : Timestamp) (d : Strategy) : Prop where
  taken
    : (∃ s, (serve (serveAll (StrategyStore.empty : σ) before).2 (.create id now d)).1 = .created s)
      ↔ d.name ≠ ""
  kept
    : ∀ s, (serve (serveAll (StrategyStore.empty : σ) before).2 (.create id now d)).1 = .created s →
        ∃ t, (serve (serveAll (StrategyStore.empty : σ) (before ++ .create id now d :: after)).2
            (.get id)).1 = .found (some t)
          ∧ d.SameConduct t

theorem Creates.keepsConduct {σ : Type} [StrategyStore σ] (creates : Creates σ)
    {before after : List StoreRequest} {id : String} {now : Timestamp} {d : Strategy}
    (handed : d.Handed)
    (found
      : ∀ s, d.stored id now = .ok s →
          ∃ t, (serve (serveAll (StrategyStore.empty : σ) (before ++ .create id now d :: after)).2
              (.get id)).1 = .found (some t)
            ∧ d.SameConduct t)
    : KeepsConduct σ before after id now d where
  taken := by
    simp only [creates.created_iff]
    rw [← handed.trimmed_name]
    constructor
    · rintro ⟨s, stored⟩
      exact (Strategy.stored_eq_ok stored).1
    · intro named
      exact Strategy.exists_stored named id now
  kept s created := found s (creates.created_iff.1 created)

/-- Whatever kind of store it is handed to, a draft keeps its conduct, as long as its limits are
absent or finite and its identifier is new.
-/
theorem saved_keepsConduct {before : List StoreRequest} {id : String} {d : Strategy}
    (handed : d.Handed) (finite : d.Finite)
    (fresh : ∀ request ∈ before, request.newId? ≠ some id) (now : Timestamp)
    (after : List StoreRequest)
    : KeepsConduct MemoryStore before after id now d
      ∧ KeepsConduct DocumentStore before after id now d := by
  constructor
  · refine MemoryStore.creates.keepsConduct handed fun s stored => ⟨s, ?_, ?_⟩
    · exact (MemoryStore.serve_get _ id).trans (congrArg _ (find?_storedBy fresh stored))
    · exact (handed.sameConduct_stored stored).1
  · refine DocumentStore.creates.keepsConduct handed fun s stored => ⟨s.readBack, ?_, ?_⟩
    · refine (DocumentStore.serve_get _ id).trans ?_
      rw [find?_storedBy fresh stored]
      rfl
    · exact (handed.sameConduct_stored stored).2 finite

namespace SteadyForm

def now : Timestamp := ⟨⟨2025, 7, 18, by decide⟩, 40271, 120500, by decide, by decide⟩

/-- Numbers with blanks around them, one that makes no sense, and a code. -/
def form : Form :=
  { name := " 稳健 ", peMax := " 12.5", turnMinPct := "inf", tech := "break_20d",
    stopLossPct := "-6" }

def before : List StoreRequest := [.create "stg_1" now (.draft now), .list]

/-- Witness: a form is handed over under an identifier that an earlier request has not used. -/
theorem saved_keepsConduct_form
    : (form.strategy now).Handed ∧ (form.strategy now).Finite
      ∧ (∀ request ∈ before, request.newId? ≠ some "stg_2")
      ∧ (form.strategy now).name ≠ ""
      ∧ KeepsConduct MemoryStore before [.get "stg_2"] "stg_2" now (form.strategy now)
      ∧ KeepsConduct DocumentStore before [.get "stg_2"] "stg_2" now (form.strategy now) := by
  have handed := Strategy.Handed.filled form now
  have finite := form.finite_strategy now
  have fresh : ∀ request ∈ before, request.newId? ≠ some "stg_2" := by
    simp [before, StoreRequest.newId?]
  have named : (form.strategy now).name ≠ "" := by decide +kernel
  exact ⟨handed, finite, fresh, named, saved_keepsConduct handed finite fresh now [.get "stg_2"]⟩

end SteadyForm

end Screener
