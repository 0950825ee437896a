import Screener.Proofs.Store.Agreement
import Screener.Proofs.Strategy.Conduct

/-!
What a history leaves in a store, whatever strategies and times it brings. Either store adds the
same strategies in the same order; a store of texts has each of them as its document tells it.
-/

namespace Screener

open StrategyStore (serve serveAll)

-----------------------------------------------------------------------------------------
-- Creations do not depend on the store
-----------------------------------------------------------------------------------------

theorem Strategy.exists_stored {s : Strategy} (named : Text.trimmed s.name ≠ "") (id : String)
    (now : Timestamp)
    : ∃ t, s.stored id now = .ok t :=
  ⟨_, if_neg named⟩

/-- A strategy is stored with its filters and exits. -/
theorem Strategy.sameRule_stored {s t : Strategy} {id : String} {now : Timestamp}
    (stored : s.stored id now = .ok t)
    : s.SameRule t := by
  obtain ⟨_, rfl⟩ := stored_eq_ok stored
  exact ⟨rfl, rfl⟩

/-- The strategy that a request adds to any store. -/
def StoreRequest.stored? : StoreRequest → Option Strategy
  | .create id now s => (s.stored id now).toOption
  | .list | .get _ | .record _ _ _ _ _ | .runs _ _ => none

theorem StoreRequest.stored?_create {id : String} {now : Timestamp} {d s : Strategy}
    (stored : d.stored id now = .ok s)
    : (StoreRequest.create id now d).stored? = some s := by
  rw [StoreRequest.stored?, stored]
  rfl

theorem StoreRequest.stored?_eq_some {request : StoreRequest} {s : Strategy}
    : request.stored? = some s
      ↔ ∃ id now d, request = .create id now d ∧ d.stored id now = .ok s := by
  constructor
  · intro added
    cases request with
    | list | get _ | record _ _ _ _ _ | runs _ _ => contradiction
    | create id now d =>
        refine ⟨id, now, d, rfl, ?_⟩
        cases stored : d.stored id now with
        | error problem =>
            rw [StoreRequest.stored?, stored] at added
            contradiction
        | ok t =>
            obtain rfl := Option.some.inj ((stored?_create stored).symm.trans added)
            rfl
  · rintro ⟨_, _, _, rfl, stored⟩
    exact stored?_create stored

/-- A strategy is added under the identifier of its request. -/
theorem StoreRequest.id_of_stored? {request : StoreRequest} {s : Strategy}
    (added : request.stored? = some s)
    : s.id = request.newId? := by
  obtain ⟨id, now, d, rfl, stored⟩ := stored?_eq_some.1 added
  obtain ⟨_, rfl⟩ := Strategy.stored_eq_ok stored
  rfl

/-- The strategies that a history adds to any store, in their order. -/
def storedBy (history : List StoreRequest) : List Strategy :=
  history.filterMap StoreRequest.stored?

theorem mem_storedBy {history : List StoreRequest} {s : Strategy}
    : s ∈ storedBy history
      ↔ ∃ id now d, .create id now d ∈ history ∧ d.stored id now = .ok s := by
  simp only [storedBy, List.mem_filterMap, StoreRequest.stored?_eq_some]
  constructor
  · rintro ⟨_, inside, id, now, d, rfl, stored⟩
    exact ⟨id, now, d, inside, stored⟩
  · rintro ⟨id, now, d, inside, stored⟩
    exact ⟨_, inside, id, now, d, rfl, stored⟩

theorem settled_of_mem_storedBy {history : List StoreRequest} {s : Strategy}
    (member : s ∈ storedBy history)
    : s.Settled := by
  obtain ⟨_, _, _, _, stored⟩ := mem_storedBy.1 member
  exact Strategy.settled_of_stored stored

/-- A store creates a strategy as it is stored, and refuses it as that is refused. -/
def Creates (σ : Type) [StrategyStore σ] : Prop :=
  ∀ (store : σ) (id : String) (now : Timestamp) (s : Strategy),
    (StrategyStore.create store id now s).map Prod.fst = s.stored id now

theorem MemoryStore.creates : Creates MemoryStore := by
  intro store id now s
  simp only [StrategyStore.create, create]
  cases s.stored id now <;> rfl

theorem DocumentStore.creates : Creates DocumentStore := by
  intro store id now s
  simp only [StrategyStore.create, create]
  cases s.stored id now <;> rfl

theorem Creates.created?_serve {σ : Type} [StrategyStore σ] (creates : Creates σ) (store : σ)
    (request : StoreRequest)
    : (serve store request).1.created? = request.stored? := by
  cases request with
  | create id now s =>
      have same := creates store id now s
      simp only [serve, StoreRequest.stored?, ← same]
      cases StrategyStore.create store id now s <;> rfl
  | record id now strategyId params result =>
      simp only [serve]
      cases StrategyStore.record store id now strategyId params result <;> rfl
  | list =>
      simp only [serve]
      cases StrategyStore.list store <;> rfl
  | get id =>
      simp only [serve]
      cases StrategyStore.get? store id <;> rfl
  | runs strategyId asked =>
      simp only [serve]
      cases StrategyStore.runs store strategyId asked <;> rfl

/-- A creation answers with the strategy just if it can be stored. -/
theorem Creates.created_iff {σ : Type} [StrategyStore σ] (creates : Creates σ) {store : σ}
    {id : String} {now : Timestamp} {d s : Strategy}
    : (serve store (.create id now d)).1 = .created s ↔ d.stored id now = .ok s := by
  rw [← creates store id now d, serve]
  cases StrategyStore.create store id now d with
  | error problem =>
      refine iff_of_false (fun same => ?_) (fun same => ?_)
      · cases same
      · cases same
  | ok both =>
      refine ⟨fun same => ?_, fun same => ?_⟩
      · exact congrArg Except.ok (StoreAnswer.created.inj same)
      · exact congrArg StoreAnswer.created (Except.ok.inj same)

/-- The answers to a history create what the history adds, by induction over it. -/
theorem Creates.createdIn_serveAll {σ : Type} [StrategyStore σ] (creates : Creates σ) (store : σ)
    (history : List StoreRequest)
    : createdIn (serveAll store history).1 = storedBy history := by
  induction history generalizing store with
  | nil => rfl
  | cons request history ih =>
      have first := creates.created?_serve store request
      have others := ih (serve store request).2
      unfold createdIn storedBy at others ⊢
      rw [serveAll, List.filterMap_cons, List.filterMap_cons, first, others]

/-- A new identifier finds the strategy that was created under it, whatever is created later. -/
theorem find?_storedBy {before after : List StoreRequest} {id : String} {now : Timestamp}
    {d s : Strategy} (fresh : ∀ request ∈ before, request.newId? ≠ some id)
    (stored : d.stored id now = .ok s)
    : (storedBy (before ++ .create id now d :: after)).find? (fun s => s.id == some id)
      = some s := by
  have created := StoreRequest.stored?_create stored
  have own : (s.id == some id) = true := beq_iff_eq.2 (StoreRequest.id_of_stored? created)
  have none : (storedBy before).find? (fun s => s.id == some id) = none := by
    refine List.find?_eq_none.2 fun t member => ?_
    obtain ⟨request, inside, added⟩ := List.mem_filterMap.1 member
    rw [StoreRequest.id_of_stored? added, beq_iff_eq]
    exact fresh request inside
  have all : storedBy (before ++ .create id now d :: after)
      = storedBy before ++ s :: storedBy after := by
    rw [storedBy, List.filterMap_append, List.filterMap_cons_some created]
    rfl
  rw [all, List.find?_append, none, List.find?_cons, own]
  rfl

-----------------------------------------------------------------------------------------
-- What stores hold
-----------------------------------------------------------------------------------------

theorem MemoryStore.strategies_eq_storedBy (history : List StoreRequest)
    : (serveAll empty history).2.strategies = storedBy history := by
  rw [strategies_serveAll, creates.createdIn_serveAll]
  rfl

theorem MemoryStore.serve_get (history : List StoreRequest) (id : String)
    : (serve (serveAll empty history).2 (.get id)).1
      = .found ((storedBy history).find? fun s => s.id == some id) := by
  rw [← strategies_eq_storedBy]
  rfl

namespace DocumentStore

/-- A store of texts has a row for each of these strategies, in their order. -/
structure Holds (texts : DocumentStore) (strategies : List Strategy) : Prop where
  rows : texts.strategies = strategies.map Strategy.row
  identified : ∀ s ∈ strategies, s.id.isSome = true

theorem latestFirst_map {α β : Type} (time : β → String) (f : α → β) (rows : List α)
    : latestFirst time (rows.map f) = (latestFirst (fun a => time (f a)) rows).map f := by
  unfold latestFirst
  rw [← List.map_reverse]
  exact (List.map_mergeSort (f := f) fun _ _ _ _ => rfl).symm

theorem mem_latestFirst {α : Type} {time : α → String} {rows : List α} {row : α}
    : row ∈ latestFirst time rows ↔ row ∈ rows := by
  rw [latestFirst, List.mem_mergeSort, List.mem_reverse]

/-- A request adds the row of what it creates; a run and a look leave rows as they are. -/
theorem strategies_serve (texts : DocumentStore) (request : StoreRequest)
    : (serve texts request).2.strategies
      = texts.strategies ++ request.stored?.toList.map Strategy.row := by
  cases request with
  | create id now s =>
      simp only [serve, StrategyStore.create, create, StoreRequest.stored?]
      cases stored : s.stored id now with
      | error problem => exact (List.append_nil _).symm
      | ok t =>
          obtain ⟨_, rfl⟩ := Strategy.stored_eq_ok stored
          rfl
  | record id now strategyId params result =>
      simp only [serve, StrategyStore.record, record, StoreRequest.stored?]
      cases texts.get? strategyId with
      | error problem => exact (List.append_nil _).symm
      | ok found => cases found <;> exact (List.append_nil _).symm
  | list | get _ | runs _ _ => exact (List.append_nil _).symm

namespace Holds

variable {texts : DocumentStore} {strategies : List Strategy}

theorem empty : Holds .empty [] := ⟨rfl, List.forall_mem_nil _⟩

/-- A strategy is found as its document tells it. -/
theorem get?_eq (holds : Holds texts strategies) (id : String)
    : texts.get? id
      = .ok ((strategies.find? fun s => s.id == some id).map Strategy.readBack) := by
  rw [DocumentStore.get?, holds.rows, Strategy.find?_row holds.identified]
  cases strategies.find? fun s => s.id == some id with
  | none => rfl
  | some s =>
      simp only [Option.map_some, Strategy.row, strategyOf_rowOf]
      rfl

/-- Strategies are listed by the texts of their times, each as its document tells it. -/
theorem list_eq (holds : Holds texts strategies)
    : texts.list
      = .ok ((latestFirst (fun s => s.row.createdAt) strategies).map Strategy.readBack) := by
  rw [DocumentStore.list, holds.rows, latestFirst_map]
  exact Outcome.mapM_map_eq_ok_map fun s _ => strategyOf_rowOf _ s

theorem serve (holds : Holds texts strategies) (request : StoreRequest)
    : Holds (serve texts request).2 (strategies ++ request.stored?.toList) where
  rows := by rw [strategies_serve, holds.rows, List.map_append]
  identified := by
    refine List.forall_mem_append.2 ⟨holds.identified, fun s member => ?_⟩
    obtain ⟨_, _, _, _, stored⟩ := StoreRequest.stored?_eq_some.1 (Option.mem_toList.1 member)
    exact (Strategy.settled_of_stored stored).identified

/-- What a history adds is held, by induction over it. -/
theorem serveAll (holds : Holds texts strategies) (history : List StoreRequest)
    : Holds (serveAll texts history).2 (strategies ++ storedBy history) := by
  induction history generalizing texts strategies with
  | nil =>
      rw [storedBy, List.filterMap_nil, List.append_nil]
      exact holds
  | cons request history ih =>
      have last := ih (holds.serve request)
      have all : strategies ++ storedBy (request :: history)
          = strategies ++ request.stored?.toList ++ storedBy history := by
        unfold storedBy
        cases new : request.stored? <;> simp [new]
      rwa [all]

end Holds

theorem holds_serveAll (history : List StoreRequest)
    : Holds (serveAll empty history).2 (storedBy history) :=
  Holds.empty.serveAll history

theorem serve_get (history : List StoreRequest) (id : String)
    : (serve (serveAll empty history).2 (.get id)).1
      = .found (((storedBy history).find? fun s => s.id == some id).map Strategy.readBack) :=
  congrArg (StrategyStore.looked .found) ((holds_serveAll history).get?_eq id)

end DocumentStore

end Screener
