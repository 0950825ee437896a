import Mathlib.Data.List.Nodup
import Screener.Proofs.Store.Requests
import Screener.Proofs.Text.Lowercase
import Screener.Store.Memory

/-!
Histories of a store that holds values. What it holds is what its answers have added, in order,
so each law of listing and of finding is a law of these answers.
-/

namespace Screener

open StrategyStore (serve serveAll)

-----------------------------------------------------------------------------------------
-- Strategies as they are stored
-----------------------------------------------------------------------------------------

/-- What holds of a strategy from the moment it is stored. -/
structure Strategy.Settled (s : Strategy) : Prop where
  identified : s.id.isSome = true
  named : s.name ≠ ""
  trimmed : Text.trimmed s.name = s.name
  tagged : s.tags = s.inferredTags

theorem Strategy.stored_eq_ok {s t : Strategy} {id : String} {now : Timestamp}
    (h : s.stored id now = .ok t)
    : Text.trimmed s.name ≠ ""
      ∧ t = { s with
          id := some id
          name := Text.trimmed s.name
          createdAt := now.toMicros
          tags := s.inferredTags } := by
  unfold Strategy.stored at h
  dsimp only at h
  split at h
  next => contradiction
  next some =>
    obtain rfl := Except.ok.inj h
    exact ⟨some, rfl⟩

theorem Strategy.settled_of_stored {s t : Strategy} {id : String} {now : Timestamp}
    (h : s.stored id now = .ok t)
    : t.Settled := by
  obtain ⟨some, rfl⟩ := Strategy.stored_eq_ok h
  exact ⟨rfl, some, Text.trimmed_trimmed s.name, rfl⟩

namespace MemoryStore

-----------------------------------------------------------------------------------------
-- One request
-----------------------------------------------------------------------------------------

/-- All that a request can do: add a strategy as it is stored, add a run of a strategy that is
there, or leave the store.
-/
theorem serve_cases (store : MemoryStore) (request : StoreRequest)
    : (∃ id now s stored, request = .create id now s ∧ s.stored id now = .ok stored
        ∧ serve store request
          = (.created stored, { store with strategies := store.strategies ++ [stored] }))
      ∨ (∃ id now strategyId params result,
          request = .record id now strategyId params result
          ∧ (∃ s ∈ store.strategies, s.id = some strategyId)
          ∧ serve store request
            = (.recorded (Run.stored id now strategyId params result),
              { store with
                allRuns := store.allRuns ++ [Run.stored id now strategyId params result] }))
      ∨ ((serve store request).2 = store ∧ (serve store request).1.created? = none
          ∧ (serve store request).1.recorded? = none) := by
  cases request with
  | create id now s =>
      cases h : s.stored id now with
      | ok stored =>
          refine .inl ⟨id, now, s, stored, rfl, h, ?_⟩
          simp [serve, StrategyStore.create, create, h, StrategyStore.added]
      | error problem =>
          refine .inr (.inr ?_)
          simp [serve, StrategyStore.create, create, h, StrategyStore.added,
            StoreAnswer.created?, StoreAnswer.recorded?]
  | record id now strategyId params result =>
      cases h : store.get? strategyId with
      | some s =>
          have member := List.mem_of_find?_eq_some h
          have same : s.id = some strategyId := by simpa using List.find?_some h
          refine .inr (.inl ⟨id, now, strategyId, params, result, rfl, ⟨s, member, same⟩, ?_⟩)
          simp [serve, StrategyStore.record, record, h, StrategyStore.added]
      | none =>
          refine .inr (.inr ?_)
          simp [serve, StrategyStore.record, record, h, StrategyStore.added,
            StoreAnswer.created?, StoreAnswer.recorded?]
  | list | get _ | runs _ _ => exact .inr (.inr ⟨rfl, rfl, rfl⟩)

theorem strategies_serve (store : MemoryStore) (request : StoreRequest)
    : (serve store request).2.strategies
      = store.strategies ++ (serve store request).1.created?.toList := by
  obtain ⟨_, _, _, _, _, _, h⟩ | ⟨_, _, _, _, _, _, _, h⟩ | ⟨same, none, _⟩ :=
    serve_cases store request
  · rw [h]
    rfl
  · rw [h]
    exact (List.append_nil _).symm
  · rw [same, none]
    exact (List.append_nil _).symm

theorem allRuns_serve (store : MemoryStore) (request : StoreRequest)
    : (serve store request).2.allRuns
      = store.allRuns ++ (serve store request).1.recorded?.toList := by
  obtain ⟨_, _, _, _, _, _, h⟩ | ⟨_, _, _, _, _, _, _, h⟩ | ⟨same, _, none⟩ :=
    serve_cases store request
  · rw [h]
    exact (List.append_nil _).symm
  · rw [h]
    rfl
  · rw [same, none]
    exact (List.append_nil _).symm

/-- What always holds of a store: its strategies are settled, and every run is one of them. -/
structure Sound (store : MemoryStore) : Prop where
  settled : ∀ s ∈ store.strategies, s.Settled
  referred : ∀ run ∈ store.allRuns, ∃ s ∈ store.strategies, s.id = some run.strategyId

theorem sound_empty : Sound empty :=
  ⟨fun _ member => absurd member List.not_mem_nil, fun _ member => absurd member List.not_mem_nil⟩

/-- A request keeps a store sound: what is added is settled, or a run of what is there. -/
theorem Sound.serve {store : MemoryStore} (sound : store.Sound) (request : StoreRequest)
    : (serve store request).2.Sound := by
  obtain ⟨id, now, s, stored, _, ok, h⟩ | ⟨id, now, strategyId, params, result, _, known, h⟩
    | ⟨same, _, _⟩ := serve_cases store request
  · rw [h]
    constructor
    · intro t member
      rcases List.mem_append.1 member with member | member
      · exact sound.settled t member
      · obtain rfl := List.mem_singleton.1 member
        exact Strategy.settled_of_stored ok
    · intro run member
      obtain ⟨t, there, same⟩ := sound.referred run member
      exact ⟨t, List.mem_append_left _ there, same⟩
  · rw [h]
    constructor
    · exact sound.settled
    · intro run member
      rcases List.mem_append.1 member with member | member
      · exact sound.referred run member
      · obtain rfl := List.mem_singleton.1 member
        exact known
  · rw [same]
    exact sound

-----------------------------------------------------------------------------------------
-- Whole histories
-----------------------------------------------------------------------------------------

theorem Sound.serveAll {store : MemoryStore} (sound : store.Sound)
    (history : List StoreRequest)
    : (serveAll store history).2.Sound := by
  induction history generalizing store with
  | nil => exact sound
  | cons request history ih => exact ih (sound.serve request)

/-- Where each answer tells what is added, a store holds what its answers have told, in order. By
induction on the history.
-/
theorem held_serveAll {α : Type} {held : MemoryStore → List α} {told? : StoreAnswer → Option α}
    (one
      : ∀ store request,
          held (serve store request).2 = held store ++ (told? (serve store request).1).toList)
    (store : MemoryStore) (history : List StoreRequest)
    : held (serveAll store history).2
      = held store ++ (serveAll store history).1.filterMap told? := by
  induction history generalizing store with
  | nil => exact (List.append_nil _).symm
  | cons request history ih =>
      simp only [StrategyStore.serveAll]
      rw [ih, one, List.append_assoc, List.filterMap_cons]
      cases told? (StrategyStore.serve store request).1 <;> rfl

theorem strategies_serveAll (store : MemoryStore) (history : List StoreRequest)
    : (serveAll store history).2.strategies
      = store.strategies ++ createdIn (serveAll store history).1 :=
  held_serveAll strategies_serve store history

theorem allRuns_serveAll (store : MemoryStore) (history : List StoreRequest)
    : (serveAll store history).2.allRuns
      = store.allRuns ++ recordedIn (serveAll store history).1 :=
  held_serveAll allRuns_serve store history

/-- A strategy that an answer adds has the identifier of its request. -/
theorem id_of_created {store : MemoryStore} {request : StoreRequest} {s : Strategy}
    (new : (serve store request).1 = .created s)
    : ∃ id, request.newId? = some id ∧ s.id = some id := by
  obtain ⟨id, now, d, stored, rfl, ok, h⟩ | ⟨_, _, _, _, _, _, _, h⟩ | ⟨_, none, _⟩ :=
    serve_cases store request
  · rw [h] at new
    obtain rfl := StoreAnswer.created.inj new
    obtain ⟨_, rfl⟩ := Strategy.stored_eq_ok ok
    exact ⟨id, rfl, rfl⟩
  · rw [h] at new
    contradiction
  · rw [new] at none
    contradiction

/-- The identifiers of added strategies come in the order of the requests that bring them. -/
theorem ids_sublist (store : MemoryStore) (history : List StoreRequest)
    : ((createdIn (serveAll store history).1).map Strategy.id).Sublist
        ((history.filterMap StoreRequest.newId?).map some) := by
  induction history generalizing store with
  | nil => exact List.Sublist.refl []
  | cons request history ih =>
      have others := ih (serve store request).2
      unfold createdIn at others ⊢
      simp only [StrategyStore.serveAll]
      cases answer : (StrategyStore.serve store request).1 with
      | created s =>
          obtain ⟨id, new, same⟩ := id_of_created answer
          rw [List.filterMap_cons_some (show StoreAnswer.created? (.created s) = some s from rfl),
            List.filterMap_cons_some new, List.map_cons, List.map_cons, same]
          exact others.cons_cons (some id)
      | listed _ | found _ | recorded _ | runs _ | refused _ =>
          rw [List.filterMap_cons_none rfl]
          cases new : request.newId? with
          | none => rwa [List.filterMap_cons_none new]
          | some id =>
              rw [List.filterMap_cons_some new, List.map_cons]
              exact others.cons (some id)

/-- With fresh identifiers, what a creation has answered is found from then on. -/
theorem get?_serveAll {history : List StoreRequest}
    (fresh : (history.filterMap StoreRequest.newId?).Nodup) {s : Strategy} {id : String}
    (new : s ∈ createdIn (serveAll empty history).1) (own : s.id = some id)
    : (serveAll empty history).2.get? id = some s := by
  have distinct : ((createdIn (StrategyStore.serveAll empty history).1).map Strategy.id).Nodup :=
    (fresh.map fun _ _ => Option.some.inj).sublist (ids_sublist empty history)
  rw [get?, strategies_serveAll, show empty.strategies = [] from rfl, List.nil_append]
  cases found : (createdIn (StrategyStore.serveAll empty history).1).find?
      fun s => s.id == some id with
  | none =>
      rw [List.find?_eq_none] at found
      exact absurd (by simp [own]) (found s new)
  | some t =>
      have same : t.id = some id := by simpa using List.find?_some found
      have there := List.mem_of_find?_eq_some found
      rw [List.inj_on_of_nodup_map distinct there new (same.trans own.symm)]

/-- A creation that is answered with a strategy has given it its identifier. -/
theorem mem_createdIn_of_mem_zip {store : MemoryStore} {history : List StoreRequest}
    {id : String} {now : Timestamp} {d s : Strategy}
    (answered : (StoreRequest.create id now d, StoreAnswer.created s)
      ∈ history.zip (serveAll store history).1)
    : s ∈ createdIn (serveAll store history).1 ∧ s.id = some id := by
  induction history generalizing store with
  | nil => contradiction
  | cons request history ih =>
      unfold createdIn at ih ⊢
      simp only [StrategyStore.serveAll, List.zip_cons_cons] at answered ⊢
      rcases List.mem_cons.1 answered with first | later
      · obtain ⟨rfl, answer⟩ := Prod.mk.inj first
        obtain ⟨own, new, same⟩ := id_of_created answer.symm
        obtain rfl := Option.some.inj new
        rw [← answer]
        exact ⟨List.mem_cons_self, same⟩
      · obtain ⟨new, same⟩ := ih later
        refine ⟨?_, same⟩
        rw [List.filterMap_cons]
        split
        next => exact new
        next => exact List.mem_cons_of_mem _ new

-----------------------------------------------------------------------------------------
-- The laws of a store
-----------------------------------------------------------------------------------------

/-- The laws of a store after a history, whose answers have added all that it holds. -/
structure Lawful (history : List StoreRequest) (answers : List StoreAnswer)
    (store : MemoryStore) : Prop where
  identified : ∀ s ∈ store.strategies, s.id.isSome = true
  named : ∀ s ∈ store.strategies, s.name ≠ "" ∧ Text.trimmed s.name = s.name
  tagged : ∀ s ∈ store.strategies, s.tags = s.inferredTags
  referred : ∀ run ∈ store.allRuns, ∃ s ∈ store.strategies, s.id = some run.strategyId
  /-- What a creation has answered is what its identifier finds. -/
  kept
    : ∀ id now d s,
        (StoreRequest.create id now d, StoreAnswer.created s) ∈ history.zip answers →
        serve store (.get id) = (.found (some s), store)
  listed : serve store .list = (.listed (createdIn answers).reverse, store)
  runs
    : ∀ id asked,
        serve store (.runs id asked)
          = (.runs (((recordedIn answers).reverse.filter fun run => run.strategyId == id).take
              (max 1 (min asked 100))), store)
  fewer : ∀ id asked more, asked ≤ more → store.runs id asked <+: store.runs id more
  /-- A run of one strategy does not show among those of another. -/
  apart
    : ∀ runId now other params result id asked, other ≠ id →
        serve (serve store (.record runId now other params result)).2 (.runs id asked)
          = ((serve store (.runs id asked)).1,
            (serve store (.record runId now other params result)).2)
  /-- A strategy whose name is blank is refused. -/
  unnamed
    : ∀ id now s, Text.trimmed s.name = "" →
        serve store (.create id now s) = (.refused .unnamed, store)
  /-- A run of a strategy that is not there is refused. -/
  unknown
    : ∀ runId now id params result, (∀ s ∈ store.strategies, s.id ≠ some id) →
        serve store (.record runId now id params result)
          = (.refused (.unknownStrategy id), store)

theorem runs_serve_of_ne (store : MemoryStore) (runId : String) (now : Timestamp)
    {other id : String} (params result : Json.Value) (asked : Nat) (different : other ≠ id)
    : (serve store (.record runId now other params result)).2.runs id asked
      = store.runs id asked := by
  unfold runs
  obtain ⟨_, _, _, _, same, _⟩ | ⟨_, _, _, _, _, same, _, h⟩ | ⟨same, _, _⟩ :=
    serve_cases store (.record runId now other params result)
  · contradiction
  · obtain ⟨rfl, rfl, rfl, rfl, rfl⟩ := StoreRequest.record.inj same
    rw [h]
    simp [Run.stored, different]
  · rw [same]

/-- Every store that a history leads to from the empty one is lawful, where the identifiers of
its records are fresh.
-/
theorem lawful_serveAll (history : List StoreRequest)
    (fresh : (history.filterMap StoreRequest.newId?).Nodup)
    : Lawful history (serveAll empty history).1 (serveAll empty history).2 := by
  have sound := sound_empty.serveAll history
  have strategies := strategies_serveAll empty history
  have allRuns := allRuns_serveAll empty history
  rw [show empty.strategies = [] from rfl, List.nil_append] at strategies
  rw [show empty.allRuns = [] from rfl, List.nil_append] at allRuns
  constructor
  case identified => exact fun s member => (sound.settled s member).identified
  case named =>
    exact fun s member => ⟨(sound.settled s member).named, (sound.settled s member).trimmed⟩
  case tagged => exact fun s member => (sound.settled s member).tagged
  case referred => exact sound.referred
  case kept =>
    intro id now d s answered
    obtain ⟨new, own⟩ := mem_createdIn_of_mem_zip answered
    have found := get?_serveAll fresh new own
    simp only [StrategyStore.serve, StrategyStore.get?, StrategyStore.looked, found]
  case listed =>
    simp only [StrategyStore.serve, StrategyStore.list, StrategyStore.looked, list, strategies]
  case runs =>
    intro id asked
    simp only [StrategyStore.serve, StrategyStore.runs, StrategyStore.looked, runs, allRuns,
      Run.limit]
  case fewer =>
    intro id asked more le
    refine List.take_prefix_take_left ?_
    unfold Run.limit
    omega
  case apart =>
    intro runId now other params result id asked different
    have same := runs_serve_of_ne (serveAll empty history).2 runId now params result asked
      different
    simp only [StrategyStore.serve, StrategyStore.runs, StrategyStore.looked] at same ⊢
    rw [same]
  case unnamed =>
    intro id now s blank
    simp [StrategyStore.serve, StrategyStore.create, create, Strategy.stored, blank,
      StrategyStore.added]
  case unknown =>
    intro runId now id params result absent
    have none : (serveAll empty history).2.get? id = none := by
      rw [get?, List.find?_eq_none]
      intro s member
      simpa using absent s member
    simp only [StrategyStore.serve, StrategyStore.record, record, none, StrategyStore.added]

def noon : Timestamp := ⟨⟨2024, 3, 1, by decide⟩, 43200, 120000, by decide, by decide⟩

def valueDraft : Strategy := { Strategy.draft noon with name := " value " }

/-- A named strategy is stored and run twice; a draft without a name and a run of a strategy
that is not there are refused.
-/
def mixedHistory : List StoreRequest :=
  [.create "stg_1" noon valueDraft, .create "stg_2" noon (.draft noon),
    .record "run_1" noon "stg_1" .null .null, .record "run_2" noon "stg_2" .null .null,
    .record "run_3" noon "stg_1" (.boolean true) .null]

def valueStrategy : Strategy :=
  { valueDraft with
    id := some "stg_1"
    name := "value" }

def valueRuns : List Run :=
  [.stored "run_1" noon "stg_1" .null .null, .stored "run_3" noon "stg_1" (.boolean true) .null]

theorem serveAll_mixedHistory
    : serveAll empty mixedHistory
      = ([.created valueStrategy, .refused .unnamed, .recorded valueRuns[0],
          .refused (.unknownStrategy "stg_2"), .recorded valueRuns[1]],
        ⟨[valueStrategy], valueRuns⟩) := by
  have named : Text.trimmed valueDraft.name = "value" := by decide +kernel
  have stored : valueDraft.stored "stg_1" noon = .ok valueStrategy := by
    rw [Strategy.stored, named]
    rfl
  have unnamed : (Strategy.draft noon).stored "stg_2" noon = .error .unnamed := by
    rw [Strategy.stored, show Text.trimmed (Strategy.draft noon).name = "" by decide +kernel]
    rfl
  simp only [mixedHistory, serveAll, serve, StrategyStore.create, create, stored, unnamed]
  rfl

/-- Witness: the identifiers of a history with two refusals are fresh. What it has added is
listed and found afterwards, the latest run first.
-/
theorem lawful_serveAll_mixedHistory
    : (mixedHistory.filterMap StoreRequest.newId?).Nodup
      ∧ Lawful mixedHistory (serveAll empty mixedHistory).1 (serveAll empty mixedHistory).2
      ∧ (serve (serveAll empty mixedHistory).2 .list).1 = .listed [valueStrategy]
      ∧ (serve (serveAll empty mixedHistory).2 (.get "stg_1")).1 = .found (some valueStrategy)
      ∧ (serve (serveAll empty mixedHistory).2 (.runs "stg_1" 20)).1 = .runs valueRuns.reverse
      ∧ (serve (serveAll empty mixedHistory).2 (.runs "stg_1" 1)).1 = .runs [valueRuns[1]] := by
  have fresh : (mixedHistory.filterMap StoreRequest.newId?).Nodup := by decide
  have lawful := lawful_serveAll mixedHistory fresh
  rw [serveAll_mixedHistory] at lawful ⊢
  refine ⟨fresh, lawful, ?_, ?_, ?_, ?_⟩
  · rw [lawful.listed]
    rfl
  · rw [lawful.kept "stg_1" noon valueDraft valueStrategy List.mem_cons_self]
  · rw [lawful.runs]
    rfl
  · rw [lawful.runs]
    rfl

end MemoryStore

end Screener
