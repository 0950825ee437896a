import Screener.Proofs.Draws
import Screener.Timeline.Simulation

/-!
Runs of a simulation, seen through the words of their stream. Every event takes three draws,
whatever is decided on the way, so the word before each event follows from the key of the run
alone; strategy, security and market only say what becomes of it.
-/

namespace Screener

namespace Timeline

-----------------------------------------------------------------------------------------
-- One event
-----------------------------------------------------------------------------------------

variable (strategy : Strategy) (s : Security) (days : UInt32) (leader : Option String)

/-- What an explanation says at a word. -/
def explanationAt (kind : Kind) (word : UInt32) : String :=
  ((explain strategy s leader kind).run word).1

/-- The kind of the event after a word. -/
def kindAt (word : UInt32) : Kind :=
  .ofScore (score (strategy.selects s) (Draws.value (Draws.step (Draws.step word))))

/-- The day of the event after a word. -/
def dayAt (word : UInt32) : Nat := dayOf days (Draws.value (Draws.step word))

/-- The event after a word. -/
def eventAt (word : UInt32) : Event :=
  .on (dayAt days word) (kindAt strategy s word)
    (explanationAt strategy s leader (kindAt strategy s word)
      (Draws.step (Draws.step word)))

@[simp]
theorem day_eventAt (word : UInt32)
    : (eventAt strategy s days leader word).day = dayAt days word := by
  simp only [eventAt, Event.on]

@[simp]
theorem sortKey_eventAt (word : UInt32)
    : (eventAt strategy s days leader word).sortKey = dayAt days word := by
  simp only [eventAt, Event.on]

@[simp]
theorem kind_eventAt (word : UInt32)
    : (eventAt strategy s days leader word).kind = kindAt strategy s word := by
  simp only [eventAt, Event.on]

@[simp]
theorem title_eventAt (word : UInt32)
    : (eventAt strategy s days leader word).title = (kindAt strategy s word).title := by
  simp only [eventAt, Event.on]

@[simp]
theorem tag_eventAt (word : UInt32)
    : (eventAt strategy s days leader word).tag = (kindAt strategy s word).tag := by
  simp only [eventAt, Event.on]

@[simp]
theorem explanation_eventAt (word : UInt32)
    : (eventAt strategy s days leader word).explanation
      = explanationAt strategy s leader (kindAt strategy s word)
          (Draws.step (Draws.step word)) := by
  simp only [eventAt, Event.on]

/-- The word after the draws of one event. -/
def leap (word : UInt32) : UInt32 := Draws.step (Draws.step (Draws.step word))

theorem advice_run (bound : Binary64) (above otherwise : String) (word : UInt32)
    : (advice bound above otherwise).run word
      = (if bound < Draws.value (Draws.step word) then above else otherwise,
        Draws.step word) := by
  rw [advice, Draws.run_next_bind, run_pure]

/-- An explanation takes one draw, whatever the kind. -/
theorem explain_run (kind : Kind) (word : UInt32)
    : (explain strategy s leader kind).run word
      = (explanationAt strategy s leader kind word, Draws.step word) := by
  refine Prod.ext rfl ?_
  cases kind <;> simp only [explain, run_bind, advice_run, run_pure]

/-- An event takes three draws: for its day, its score and its explanation. -/
theorem nextEvent_run (word : UInt32)
    : (nextEvent strategy s days leader).run word
      = (eventAt strategy s days leader word, leap word) := by
  unfold nextEvent
  rw [Draws.run_next_bind]
  dsimp only
  rw [Draws.run_next_bind, run_bind, explain_run, run_pure]
  simp only [eventAt, kindAt, dayAt, leap]

-----------------------------------------------------------------------------------------
-- Whole runs
-----------------------------------------------------------------------------------------

/-- The words before each of `count` events. -/
def starts (word : UInt32) : (count : Nat) → List UInt32
  | 0 => []
  | count + 1 => word :: starts (leap word) count

@[simp]
theorem length_starts (word : UInt32) (count : Nat) : (starts word count).length = count := by
  induction count generalizing word with
  | zero => rfl
  | succ count ih => simp [starts, ih]

/-- Events drawn one after another are those after their words, by induction on how many. -/
theorem mapM_nextEvent_run {α : Type} (items : List α) (word : UInt32)
    : ((items.mapM fun _ => nextEvent strategy s days leader).run word).1
      = (starts word items.length).map (eventAt strategy s days leader) := by
  induction items generalizing word with
  | nil => rfl
  | cons item items ih =>
      simp only [List.mapM_cons, run_bind, nextEvent_run, run_pure, ih, List.length_cons,
        starts, List.map_cons]

/-- The events of a run: the first draw sets their number, each then has its word. -/
theorem drawEvents_run (word : UInt32)
    : ((drawEvents strategy s days leader).run word).1
      = (starts (Draws.step word) (countOf (Draws.value (Draws.step word)))).map
          (eventAt strategy s days leader) := by
  rw [drawEvents, Draws.run_next_bind, mapM_nextEvent_run, List.length_range]

/-- The word that a run starts from. -/
def seedWord (strategy : Strategy) (s : Security) (days seed : UInt32) : UInt32 :=
  (SeedKey.of s.code strategy.name (window days) seed).runSeed

/-- The sector that leads a market, if there is one. -/
def leaderOf (market : Option Market.Snapshot) : Option String :=
  (market.bind fun m => m.leader? .gain).map Market.Sector.name

/-- The events of a run in the order of their draws. -/
def generated (strategy : Strategy) (s : Security) (days seed : UInt32)
    (market : Option Market.Snapshot)
    : List Event :=
  Draws.outcome (drawEvents strategy s (window days) (leaderOf market))
    (seedWord strategy s days seed)

/-- The words before the events that are shown, by day and in the order of their draws. -/
def shownStarts (days word : UInt32) : List UInt32 :=
  ((starts (Draws.step word) (countOf (Draws.value (Draws.step word)))).mergeSort
    fun a b => dayAt days a ≤ dayAt days b).take shown

theorem generated_eq_map (strategy : Strategy) (s : Security) (days seed : UInt32)
    (market : Option Market.Snapshot)
    : generated strategy s days seed market
      = (starts (Draws.step (seedWord strategy s days seed))
          (countOf (Draws.value (Draws.step (seedWord strategy s days seed))))).map
            (eventAt strategy s (window days) (leaderOf market)) := by
  rw [generated, Draws.outcome, drawEvents_run]

theorem simulate_eq (strategy : Strategy) (s : Security) (days seed : UInt32)
    (market : Option Market.Snapshot)
    : simulate strategy s days seed market
      = ((generated strategy s days seed market).mergeSort
          fun a b => a.sortKey ≤ b.sortKey).take shown := by
  simp only [simulate, generated, leaderOf, seedWord]

/-- A timeline holds the events after the words that are shown. Sorting looks at days only,
and so sorts the words just as it sorts their events.
-/
theorem simulate_eq_map (strategy : Strategy) (s : Security) (days seed : UInt32)
    (market : Option Market.Snapshot)
    : simulate strategy s days seed market
      = (shownStarts (window days) (seedWord strategy s days seed)).map
          (eventAt strategy s (window days) (leaderOf market)) := by
  have sorted := List.map_mergeSort
    (r := fun a b => decide (dayAt (window days) a ≤ dayAt (window days) b))
    (s := fun a b : Event => decide (a.sortKey ≤ b.sortKey))
    (f := eventAt strategy s (window days) (leaderOf market))
    (l := starts (Draws.step (seedWord strategy s days seed))
      (countOf (Draws.value (Draws.step (seedWord strategy s days seed)))))
    fun a _ b _ => by rw [sortKey_eventAt, sortKey_eventAt]
  rw [simulate_eq, generated_eq_map, shownStarts, List.map_take, sorted]

-----------------------------------------------------------------------------------------
-- Two runs
-----------------------------------------------------------------------------------------

/-- Only a note mentions the market. -/
theorem explanationAt_of_ne_note (strategy : Strategy) (s : Security)
    (leader leader' : Option String) {kind : Kind} (other : kind ≠ .note) (word : UInt32)
    : explanationAt strategy s leader kind word = explanationAt strategy s leader' kind word := by
  cases kind with
  | buy | sell => simp only [explanationAt, explain]
  | note => contradiction

/-- A note under a leading sector starts with the hint at it, and goes on as it would. -/
theorem explanationAt_note (strategy : Strategy) (s : Security) (sector : String)
    (word : UInt32)
    : explanationAt strategy s (some sector) .note word
      = sectorHint sector ++ " " ++ explanationAt strategy s none .note word := by
  simp only [explanationAt, explain, run_bind, advice_run, run_pure]
  simp only [Option.map_some, Option.map_none, Option.toList_some, Option.toList_none,
    List.nil_append, List.cons_append, String.intercalate_cons_cons]

/-- The word that a run starts from is set by its key. -/
theorem seedWord_congr {strategy strategy' : Strategy}
    (same : strategy.seedName = strategy'.seedName) (s : Security) (days seed : UInt32)
    : seedWord strategy s days seed = seedWord strategy' s days seed := by
  have key (strategy : Strategy)
      : SeedKey.of s.code strategy.name (window days) seed
        = ⟨s.code, strategy.seedName, window days, seed⟩ := rfl
  rw [seedWord, seedWord, key, key, same]

/-- Two runs under one key differ only where they may. Their events stand on the same days;
they are of the same kinds if both strategies select the security or neither does; and for
one strategy the market is told only in notes, ahead of what they say without it.
-/
theorem simulate_congr (s : Security) (days seed : UInt32) (strategy strategy' : Strategy)
    (market market' : Option Market.Snapshot)
    (same : strategy.seedName = strategy'.seedName)
    : let run := simulate strategy s days seed market
      let run' := simulate strategy' s days seed market'
      run.length = run'.length
      ∧ ∀ (i : Nat) (event event' : Event), run[i]? = some event → run'[i]? = some event' →
        event.day = event'.day
        ∧ (strategy.selects s = strategy'.selects s →
          event.kind = event'.kind ∧ event.title = event'.title ∧ event.tag = event'.tag)
        ∧ (strategy = strategy' →
          (event.kind ≠ .note → event.explanation = event'.explanation)
          ∧ ∀ m leader, event.kind = .note → market = some m → m.leader? .gain = some leader →
            market' = none →
            event.explanation
              = "主线参考：" ++ leader.name ++ "（示例），关注板块共振。" ++ " "
                ++ event'.explanation) := by
  intro run run'
  have words : run = (shownStarts (window days) (seedWord strategy s days seed)).map
      (eventAt strategy s (window days) (leaderOf market)) :=
    simulate_eq_map strategy s days seed market
  have words' : run' = (shownStarts (window days) (seedWord strategy s days seed)).map
      (eventAt strategy' s (window days) (leaderOf market')) := by
    rw [seedWord_congr same]
    exact simulate_eq_map strategy' s days seed market'
  refine ⟨by rw [words, words', List.length_map, List.length_map], ?_⟩
  intro i event event' here here'
  rw [words, List.getElem?_map, Option.map_eq_some_iff] at here
  rw [words', List.getElem?_map, Option.map_eq_some_iff] at here'
  obtain ⟨word, at_, rfl⟩ := here
  obtain ⟨word', at', rfl⟩ := here'
  obtain rfl : word = word' := Option.some.inj (at_.symm.trans at')
  simp only [day_eventAt, kind_eventAt, title_eventAt, tag_eventAt, explanation_eventAt]
  refine ⟨trivial, fun selects => ?_, fun equal => ?_⟩
  · have kinds : kindAt strategy s word = kindAt strategy' s word := by
      rw [kindAt, kindAt, selects]
    rw [kinds]
    exact ⟨rfl, rfl, rfl⟩
  · subst equal
    refine ⟨fun other => explanationAt_of_ne_note _ _ _ _ other _, ?_⟩
    intro m leader note under led bare
    subst under bare
    have hint : leaderOf (some m) = some leader.name := by simp [leaderOf, led]
    have silent : leaderOf none = none := rfl
    have told := explanationAt_note strategy s leader.name (Draws.step (Draws.step word))
    rw [sectorHint] at told
    rw [note, hint, silent]
    exact told

/-- A draft that asks for nothing, a security, and a market with one sector. -/
def openDraft : Strategy :=
  .draft ⟨⟨2024, 6, 3, by decide⟩, 0, 0, Nat.succ_pos _, Nat.succ_pos _⟩

def spirits : Security :=
  ⟨"600519", "贵州茅台", "白酒", 21000, 24.5, 0.3, 1680, 1.2, ⟨true, false, false⟩, ⟨"贵州", []⟩⟩

def brokerage : Market.Sector := ⟨"券商", 2.5, 30⟩

def brokers : Market.Snapshot :=
  ⟨[], 9000, none, none, none, 0, 0, 0, 0, 0, [brokerage], 0, 0⟩

/-- Witness: the draft's run on the security, in the market of brokers and outside of it. -/
theorem simulate_congr_brokers
    : (simulate openDraft spirits 60 1234567 (some brokers)).length
        = (simulate openDraft spirits 60 1234567 none).length
      ∧ ∀ (i : Nat) (event event' : Event),
        (simulate openDraft spirits 60 1234567 (some brokers))[i]? = some event →
        (simulate openDraft spirits 60 1234567 none)[i]? = some event' →
        event.day = event'.day
        ∧ event.kind = event'.kind
        ∧ (event.kind ≠ .note → event.explanation = event'.explanation)
        ∧ (event.kind = .note →
          event.explanation
            = "主线参考：" ++ brokerage.name ++ "（示例），关注板块共振。" ++ " "
              ++ event'.explanation) := by
  have led : brokers.leader? .gain = some brokerage := by
    simp [brokers, Market.Snapshot.leader?, Market.Snapshot.ranked]
  obtain ⟨length, alike⟩ := simulate_congr spirits 60 1234567 openDraft openDraft
    (some brokers) none rfl
  refine ⟨length, ?_⟩
  intro i event event' here here'
  obtain ⟨day, kinds, texts⟩ := alike i event event' here here'
  obtain ⟨traded, noted⟩ := texts rfl
  exact ⟨day, (kinds rfl).1, traded, fun note => noted brokers brokerage note rfl led rfl⟩

end Timeline

end Screener
