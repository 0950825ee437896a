import Screener.Proofs.Command.Effects
import Screener.Proofs.Strategy.ReadBack
import Screener.Proofs.Timeline.Replay

/-!
Recorded simulations are made again by the command that recorded them. What a run adds to a
database leaves all other files readable as they were, so the command finds the same universe and
the same strategy; and the terms that were recorded leave nothing to the seed and the window of
the settings.
-/

namespace Screener

open Work
open DocumentStore (runRowOf)

-----------------------------------------------------------------------------------------
-- Files
-----------------------------------------------------------------------------------------

namespace Workspace

variable {w : Workspace} {place : FilePlace} {old : DocumentStore}

/-- A file that is written over leaves the same places known. -/
theorem any_write (content : w.content? place = some (.database old)) (store : DocumentStore)
    (p : FilePlace → Bool)
    : ((w.write place (.database store)).files.any fun file => p file.1)
      = w.files.any fun file => p file.1 := by
  obtain ⟨file, found, _⟩ := Option.map_eq_some_iff.1 content
  have here : file.1 = place := by simpa using List.find?_some found
  have known : file ∈ w.files := List.mem_of_find?_eq_some found
  rw [Bool.eq_iff_iff, List.any_eq_true, List.any_eq_true]
  constructor
  · rintro ⟨other, member, holds⟩
    rcases List.mem_cons.1 member with rfl | member
    · exact ⟨file, known, here ▸ holds⟩
    · exact ⟨other, (List.mem_filter.1 member).1, holds⟩
  · rintro ⟨other, member, holds⟩
    by_cases same : other.1 = place
    · exact ⟨(place, .database store), List.mem_cons_self, same ▸ holds⟩
    · exact ⟨other, List.mem_cons_of_mem _ (List.mem_filter.2 ⟨member, by simpa using same⟩), holds⟩

theorem isDirectory_write (content : w.content? place = some (.database old))
    (store : DocumentStore) (other : FilePlace)
    : (w.write place (.database store)).isDirectory other = w.isDirectory other := by
  have below := any_write content store fun file => other.isPrefixOf file && other != file
  unfold isDirectory
  rw [below, content?_write]
  split
  next same =>
    subst same
    rw [content]
    rfl
  next => rfl

theorem step_write (content : w.content? place = some (.database old)) (store : DocumentStore)
    : (w.write place (.database store)).step = w.step := by
  funext other name
  unfold step
  rw [isDirectory_write content, content?_write]
  split
  next => rfl
  next =>
    split
    next same =>
      subst same
      rw [content]
      rfl
    next => rfl

/-- A database that is written over leads and settles all paths as before. -/
theorem settle_write (content : w.content? place = some (.database old)) (store : DocumentStore)
    (path : String)
    : (w.write place (.database store)).settle path = w.settle path := by
  have same : (w.write place (.database store)).settleName = w.settleName := by
    funext other name
    simp only [settleName, step_write content]
  rw [settle, settle, same]

/-- A database that is written over leaves all texts as they were. -/
theorem read_write (content : w.content? place = some (.database old)) (store : DocumentStore)
    (path : String)
    : (w.write place (.database store)).read path = w.read path := by
  have found : (w.write place (.database store)).find path = w.find path := by
    rw [find, find, step_write content]
  rw [read, read, found]
  refine bind_congr fun other => ?_
  rw [isDirectory_write content, content?_write]
  by_cases same : other = place
  · subst same
    rw [if_pos rfl, content]
  · rw [if_neg same]

end Workspace

-----------------------------------------------------------------------------------------
-- Work that succeeds
-----------------------------------------------------------------------------------------

namespace Work

variable {α β : Type}

theorem run_bind_eq_ok {work : Work α} {next : α → Work β} {s u : Session} {b : β}
    : (work >>= next).run.run s = (.ok b, u)
      ↔ ∃ a t, work.run.run s = (.ok a, t) ∧ (next a).run.run t = (.ok b, u) := by
  rw [run_bind]
  constructor
  · intro run
    rcases first : work.run.run s with ⟨failure | a, t⟩
    · rw [first] at run
      cases run
    · rw [first] at run
      exact ⟨a, t, rfl, run⟩
  · rintro ⟨a, t, first, run⟩
    rw [first]
    exact run

theorem run_lift_eq_ok {ε : Type} {failure : ε → Failure} {result : Except ε α} {s t : Session}
    {a : α}
    : (Work.lift failure result).run.run s = (.ok a, t) ↔ result = .ok a ∧ s = t := by
  cases result with
  | error e =>
      constructor
      · intro run
        cases run
      · rintro ⟨ok, _⟩
        cases ok
  | ok b =>
      constructor
      · intro run
        cases run
        exact ⟨rfl, rfl⟩
      · rintro ⟨ok, rfl⟩
        cases ok
        rfl

theorem Looks.workspace_eq {work : Work α} (looks : Looks work) {s t : Session}
    {result : Except Failure α} (run : work.run.run s = (result, t))
    : t.workspace = s.workspace := by
  have same := looks s
  rw [run] at same
  exact same

theorem Looks.yields {work : Work α} (looks : Looks work) {s t : Session} {a : α}
    (run : work.run.run s = (.ok a, t)) {w : Workspace} (here : s.workspace = w)
    : Yields work w a := by
  subst here
  exact ⟨s.said, t, run, looks.workspace_eq run⟩

/-- Whatever has been said, the work comes from files to a result and to files. -/
def Gives (work : Work α) (w : Workspace) (a : α) (w' : Workspace) : Prop :=
  ∀ said, ∃ said', work.run.run ⟨w, said⟩ = (.ok a, ⟨w', said'⟩)

theorem gives_pure (a : α) (w : Workspace) : Gives (pure a) w a w := fun said => ⟨said, rfl⟩

theorem gives_say (line : String) (w : Workspace) : Gives (say line) w () w :=
  fun said => ⟨said ++ [line], rfl⟩

theorem gives_readText (path : String) (w : Workspace)
    : Gives (readText path) w (w.read path) w :=
  fun said => ⟨said, rfl⟩

theorem gives_lift {ε : Type} {failure : ε → Failure} {result : Except ε α} {a : α}
    (ok : result = .ok a) (w : Workspace)
    : Gives (Work.lift failure result) w a w := by
  subst ok
  exact gives_pure a w

theorem gives_bind {work : Work α} {next : α → Work β} {u v w : Workspace} {a : α} {b : β}
    (first : Gives work u a v) (others : Gives (next a) v b w)
    : Gives (work >>= next) u b w := by
  intro said
  obtain ⟨said', run⟩ := first said
  obtain ⟨said'', run'⟩ := others said'
  exact ⟨said'', run_bind_eq_ok.2 ⟨a, _, run, run'⟩⟩

/-- The universe of the settings is that of their table, which other files have no part in. -/
theorem gives_loadSecurities {settings other : Settings} {securities : List Security}
    {w w' : Workspace} (yields : Yields (loadSecurities settings) w securities)
    (table : other.csvPath = settings.csvPath) (same : ∀ path, w'.read path = w.read path)
    : Gives (loadSecurities other) w' securities w' := by
  obtain ⟨said, t, run, _⟩ := yields
  unfold loadSecurities at run ⊢
  rw [table]
  cases configured : settings.csvPath with
  | none =>
      rw [configured] at run
      obtain ⟨ok, _⟩ := Prod.mk.inj run
      obtain rfl := Except.ok.inj ok
      exact gives_pure _ w'
  | some path =>
      rw [configured] at run
      obtain ⟨content, s, here, run⟩ := run_bind_eq_ok.1 run
      obtain ⟨text, s', read, run⟩ := run_bind_eq_ok.1 run
      obtain ⟨rows, s'', parsed, run⟩ := run_bind_eq_ok.1 run
      obtain ⟨_, u, told, last⟩ := run_bind_eq_ok.1 run
      cases here
      cases last
      have content := (run_lift_eq_ok.1 read).1
      rw [← same path] at content
      refine gives_bind (gives_readText path w') (gives_bind (gives_lift content w') ?_)
      refine gives_bind (gives_lift (run_lift_eq_ok.1 parsed).1 w') ?_
      exact gives_bind (gives_say _ w') (gives_pure _ w')

-----------------------------------------------------------------------------------------
-- Databases
-----------------------------------------------------------------------------------------

/-- The settings name a file that holds a database, which may be changed or not. -/
structure Held (settings : Settings) (w : Workspace) (place : FilePlace) (store : DocumentStore)
    (isReadOnly : Bool)
    : Prop where
  named
    : ∃ path address, settings.databasePath = some path
        ∧ DatabaseAddress.parse path = .ok address
        ∧ address.isKept = true
        ∧ address.isReadOnly = isReadOnly
        ∧ w.settle address.name = some place
  plain : w.isDirectory place = false
  content : w.content? place = some (.database store)

variable {settings : Settings} {w : Workspace} {place : FilePlace} {store : DocumentStore}
  {isReadOnly : Bool}

theorem Held.of_path (held : Held settings w place store isReadOnly) {other : Settings}
    (same : other.databasePath = settings.databasePath)
    : Held other w place store isReadOnly where
  named := same ▸ held.named
  plain := held.plain
  content := held.content

/-- A database that is written over is held as well. -/
theorem Held.write (held : Held settings w place store isReadOnly) (store' : DocumentStore)
    : Held settings (w.write place (.database store')) place store' isReadOnly where
  named := by
    obtain ⟨path, address, configured, parsed, kept, change, settled⟩ := held.named
    exact ⟨path, address, configured, parsed, kept, change,
      (Workspace.settle_write held.content store' address.name).trans settled⟩
  plain := (Workspace.isDirectory_write held.content store' place).trans held.plain
  content := by rw [Workspace.content?_write, if_pos rfl]

/-- A database that is held is opened without a change of the files. -/
theorem Held.gives (held : Held settings w place store isReadOnly)
    : Gives (openDatabase settings) w ⟨some place, store, isReadOnly⟩ w := by
  obtain ⟨path, address, configured, parsed, kept, change, settled⟩ := held.named
  unfold openDatabase
  rw [configured]
  refine gives_bind (gives_lift parsed w) ?_
  rw [if_pos kept]
  intro said
  refine ⟨said, ?_⟩
  unfold openFile
  refine run_bind_eq_ok.2 ⟨⟨w, said⟩, ⟨w, said⟩, rfl, ?_⟩
  simp only [settled, held.plain, held.content, change]
  rfl

theorem newDatabase_store {address : DatabaseAddress} {s t : Session} {database : Database}
    (run : (newDatabase address place).run.run s = (.ok database, t))
    : database.store = .empty := by
  unfold newDatabase at run
  obtain ⟨_, _, _, run⟩ := run_bind_eq_ok.1 run
  dsimp only at run
  split at run
  · obtain ⟨_, _, failed, _⟩ := run_bind_eq_ok.1 run
    cases failed
  · obtain ⟨_, _, _, last⟩ := run_bind_eq_ok.1 run
    cases last
    rfl

/-- A database that holds something was there when it was opened. -/
theorem held_of_openDatabase {s t : Session} {database : Database}
    (run : (openDatabase settings).run.run s = (.ok database, t))
    (filled : database.store ≠ .empty)
    : t = s ∧ ∃ place, database.place = some place
        ∧ Held settings s.workspace place database.store database.isReadOnly := by
  unfold openDatabase at run
  cases configured : settings.databasePath with
  | none =>
      rw [configured] at run
      cases run
  | some path =>
      rw [configured] at run
      obtain ⟨address, _, taken, run⟩ := run_bind_eq_ok.1 run
      obtain ⟨parsed, rfl⟩ := run_lift_eq_ok.1 taken
      split at run
      next kept =>
        unfold openFile at run
        obtain ⟨_, _, here, run⟩ := run_bind_eq_ok.1 run
        cases here
        dsimp only at run
        split at run
        next => cases run
        next place settled =>
          split at run
          next =>
            obtain ⟨_, _, failed, _⟩ := run_bind_eq_ok.1 run
            cases failed
          next plain =>
            split at run
            next store content =>
              cases run
              exact ⟨rfl, place, rfl, ⟨path, address, configured, parsed, kept, rfl, settled⟩,
                by simpa using plain, content⟩
            next => exact absurd (newDatabase_store run) filled
            next => cases run
            next =>
              split at run
              next => exact absurd (newDatabase_store run) filled
              next => cases run
      next =>
        obtain ⟨_, _, _, last⟩ := run_bind_eq_ok.1 run
        cases last
        exact absurd rfl filled

theorem find_eq_ok {id : String} {s : Strategy}
    : StrategyStore.find store id = .ok s ↔ store.get? id = .ok (some s) := by
  constructor
  · intro found
    obtain ⟨looked, got, found⟩ := Outcome.bind_eq_ok.1 found
    cases looked with
    | none => cases found
    | some other =>
        obtain rfl := Except.ok.inj found
        exact got
  · intro got
    exact Outcome.bind_eq_ok.2 ⟨some s, got, rfl⟩

/-- A run of a strategy that is stored is added behind the others. -/
theorem record_eq_ok {id runId : String} {s : Strategy} (got : store.get? id = .ok (some s))
    (now : Timestamp) (params result : Json.Value)
    : StrategyStore.record store runId now id params result
      = .ok (Run.stored runId now id params result,
          { store with
            allRuns := store.allRuns ++ [runRowOf (Run.stored runId now id params result)] }) := by
  exact Outcome.bind_eq_ok.2 ⟨some s, got, rfl⟩

theorem run_keep_eq_ok {s t : Session} {isReadOnly : Bool}
    : (keep ⟨some place, store, isReadOnly⟩).run.run s = (.ok (), t)
      ↔ isReadOnly = false
        ∧ t = { s with workspace := s.workspace.write place (.database store) } := by
  cases isReadOnly with
  | true =>
      constructor
      · intro run
        cases run
      · rintro ⟨writable, _⟩
        cases writable
  | false =>
      constructor
      · intro run
        cases run
        exact ⟨rfl, rfl⟩
      · rintro ⟨_, rfl⟩
        rfl

variable {around : Surroundings} {id : String} {found : Strategy}

theorem chosen_stored_eq_ok {s t : Session} {origin : Origin}
    (run : (chosen around settings (.stored id)).run.run s = (.ok (found, origin), t))
    : t = s ∧ ∃ place store isReadOnly, origin = some (id, ⟨some place, store, isReadOnly⟩)
        ∧ Held settings s.workspace place store isReadOnly
        ∧ store.get? id = .ok (some found) := by
  obtain ⟨database, u, opened, run⟩ := run_bind_eq_ok.1 run
  obtain ⟨_, _, sought, last⟩ := run_bind_eq_ok.1 run
  cases last
  obtain ⟨looked, rfl⟩ := run_lift_eq_ok.1 sought
  have got := find_eq_ok.1 looked
  have filled : database.store ≠ .empty := by
    intro nothing
    rw [nothing] at got
    cases got
  obtain ⟨same, place, placed, held⟩ := held_of_openDatabase opened filled
  obtain ⟨_, store, isReadOnly⟩ := database
  cases placed
  exact ⟨same, place, store, isReadOnly, rfl, held, got⟩

theorem gives_chosen (held : Held settings w place store isReadOnly)
    (got : store.get? id = .ok (some found)) (around : Surroundings)
    : Gives (chosen around settings (.stored id)) w
        (found, some (id, ⟨some place, store, isReadOnly⟩)) w :=
  gives_bind held.gives (gives_bind (gives_lift (find_eq_ok.2 got) w) (gives_pure _ w))

/-- The database with a run added. -/
def withRun (store : DocumentStore) (run : Run) : DocumentStore :=
  { store with allRuns := store.allRuns ++ [runRowOf run] }

theorem record_stored_eq_ok {s t : Session} {params result : Json.Value}
    (got : store.get? id = .ok (some found))
    (run : (record around (some (id, ⟨some place, store, isReadOnly⟩)) params result).run.run s
      = (.ok (), t))
    : isReadOnly = false
      ∧ t.workspace
        = s.workspace.write place (.database
            (withRun store (Run.stored around.runId around.now id params result))) := by
  obtain ⟨⟨_, _⟩, _, added, run⟩ := run_bind_eq_ok.1 run
  obtain ⟨recorded, rfl⟩ := run_lift_eq_ok.1 added
  rw [record_eq_ok got] at recorded
  cases recorded
  obtain ⟨_, _, written, last⟩ := run_bind_eq_ok.1 run
  cases last
  obtain ⟨writable, rfl⟩ := run_keep_eq_ok.1 written
  exact ⟨writable, rfl⟩

theorem gives_record (got : store.get? id = .ok (some found)) (around : Surroundings)
    (params result : Json.Value) (w : Workspace)
    : Gives (record around (some (id, ⟨some place, store, false⟩)) params result) w ()
        (w.write place (.database
          (withRun store (Run.stored around.runId around.now id params result)))) := by
  have kept (store : DocumentStore)
      : Gives (keep ⟨some place, store, false⟩) w () (w.write place (.database store)) :=
    fun said => ⟨said, run_keep_eq_ok.2 ⟨rfl, rfl⟩⟩
  exact gives_bind (gives_lift (record_eq_ok got _ _ _) w) (gives_bind (kept _) (gives_say _ _))

/-- Without a feed the market is the one invented from the seed that is given, or from that of
the settings.
-/
theorem run_resolveMarket (noFeed : settings.feedPath = none) (seed : Option UInt32) (s : Session)
    : (resolveMarket settings seed).run.run s
      = (.ok (Market.resolve none (seed.getD settings.seed)), s) := by
  unfold resolveMarket
  rw [noFeed]
  rfl

end Work

-----------------------------------------------------------------------------------------
-- Runs
-----------------------------------------------------------------------------------------

/-- A run of a simulation with a stored strategy has found its universe, its strategy and its
market, and has left a database with one run more.
-/
structure Command.Ran (around : Surroundings) (settings : Settings) (before : Workspace)
    (place : FilePlace) (store : DocumentStore) (found : Strategy) (securities : List Security)
    (simulation : Simulation) (request : SimulationRequest) (id : String) (after : Workspace)
    : Prop where
  listed : Yields (loadSecurities settings) before securities
  held : Held settings before place store false
  got : store.get? id = .ok (some found)
  made
    : ∃ resolved, Yields (resolveMarket settings request.seed) before resolved
        ∧ Simulation.of securities found resolved request settings = .ok simulation
  left : after = before.write place (.database (withRun store (simulation.run around id)))

namespace Command

variable {around : Surroundings} {settings : Settings} {request : SimulationRequest} {id : String}
  {asDocument : Bool}

theorem ran_of_simulateOne {s t : Session} {reply : Reply}
    (run : (simulateOne around settings request (.stored id) asDocument).run.run s
      = (.ok reply, t))
    : ∃ place store found securities simulation,
        Ran around settings s.workspace place store found securities simulation request id
          t.workspace
        ∧ reply = simulation.reply found asDocument := by
  obtain ⟨securities, s₁, loaded, chooses⟩ := run_bind_eq_ok.1 run
  obtain ⟨⟨found, origin⟩, s₂, chose, resolves⟩ := run_bind_eq_ok.1 chooses
  obtain ⟨resolved, s₃, market, makes⟩ := run_bind_eq_ok.1 resolves
  obtain ⟨simulation, s₄, lifted, records⟩ := run_bind_eq_ok.1 makes
  obtain ⟨_, s₅, recorded, answers⟩ := run_bind_eq_ok.1 records
  obtain ⟨made, rfl⟩ := run_lift_eq_ok.1 lifted
  have first := (looks_loadSecurities settings).workspace_eq loaded
  obtain ⟨rfl, place, store, isReadOnly, rfl, held, got⟩ := chosen_stored_eq_ok chose
  have third := (looks_resolveMarket settings request.seed).workspace_eq market
  obtain ⟨rfl, left⟩ := record_stored_eq_ok got recorded
  have answered : t.workspace = s₅.workspace ∧ reply = simulation.reply found asDocument := by
    cases asDocument with
    | true =>
        cases answers
        exact ⟨rfl, rfl⟩
    | false =>
        cases answers
        exact ⟨rfl, rfl⟩
  obtain ⟨last, answer⟩ := answered
  have listed := (looks_loadSecurities settings).yields loaded rfl
  have yields := (looks_resolveMarket settings request.seed).yields market first
  refine ⟨place, store, found, securities, simulation, ⟨listed, first ▸ held, got,
    ⟨resolved, yields, made⟩, ?_⟩, answer⟩
  rw [last, left, third, first, Simulation.stored_eq_run]

variable {before after : Workspace} {place : FilePlace} {store : DocumentStore} {found : Strategy}
  {securities : List Security} {simulation : Simulation}

/-- Where universe, strategy and market are found, the command simulates and adds its run. -/
theorem gives_simulateOne {resolved : Market.Resolved}
    (listed : Gives (loadSecurities settings) before securities before)
    (held : Held settings before place store false) (got : store.get? id = .ok (some found))
    (market : Gives (resolveMarket settings request.seed) before resolved before)
    (made : Simulation.of securities found resolved request settings = .ok simulation)
    (around : Surroundings) (asDocument : Bool)
    : Gives (simulateOne around settings request (.stored id) asDocument) before
        (simulation.reply found asDocument)
        (before.write place (.database (withRun store (simulation.run around id)))) := by
  have recorded := @gives_record place _ _ _ got around simulation.params simulation.result before
  rw [Simulation.stored_eq_run] at recorded
  refine gives_bind listed (gives_bind (gives_chosen held got around) ?_)
  refine gives_bind market (gives_bind (gives_lift made before) (gives_bind recorded ?_))
  cases asDocument with
  | true => exact gives_pure _ _
  | false => exact gives_bind (gives_say _ _) (gives_pure _ _)

theorem Ran.recorded
    (ran : Ran around settings before place store found securities simulation request id after)
    : Recorded settings before place found (simulation.run around id) after := by
  obtain ⟨path, address, configured, parsed, kept, _, settled⟩ := ran.held.named
  have named : settings.address? = some address := by
    simp [Settings.address?, configured, parsed, Except.toOption]
  have holds : before.stored place = store := by
    rw [Workspace.stored, ran.held.content]
  refine ⟨?_, ?_, ?_⟩
  · rw [Settings.databasePlace?, named, Option.filter_some, if_pos kept]
    exact settled
  · rw [holds]
    exact ran.got
  · rw [ran.left, holds]
    exact Workspace.becomes_write _ _ _

/-- On the files that a run leaves, the command runs again by the terms that were recorded, and
comes to the same simulation. Seed and window of the settings may be others.
-/
theorem Ran.again
    (ran : Ran around settings before place store found securities simulation request id after)
    {other : Settings} (noFeed : settings.feedPath = none) (noFeed' : other.feedPath = none)
    (table : other.csvPath = settings.csvPath)
    (database : other.databasePath = settings.databasePath) (around' : Surroundings)
    (asDocument : Bool)
    : ∃ last,
        Gives (simulateOne around' other simulation.again (.stored id) asDocument) after
          (simulation.reply found asDocument) last
        ∧ Ran around' other after place (withRun store (simulation.run around id)) found securities
            simulation simulation.again id last := by
  obtain ⟨resolved, ⟨said, t, run, _⟩, made⟩ := ran.made
  rw [run_resolveMarket noFeed] at run
  cases run
  have seed : simulation.again.seed.getD other.seed = request.seed.getD settings.seed :=
    Simulation.seed_of made
  have market (u : Session) := run_resolveMarket noFeed' simulation.again.seed u
  rw [seed] at market
  have held : Held other after place (withRun store (simulation.run around id)) false := by
    rw [ran.left]
    exact (ran.held.write _).of_path database
  have same (path : String) : after.read path = before.read path := by
    rw [ran.left]
    exact Workspace.read_write ran.held.content _ path
  have got : (withRun store (simulation.run around id)).get? id = .ok (some found) := ran.got
  have listed := gives_loadSecurities ran.listed table same
  have remade := Simulation.of_again made other
  refine ⟨_, gives_simulateOne listed held got (fun said => ⟨said, market _⟩) remade around'
    asDocument, ?_⟩
  obtain ⟨_, run⟩ := listed []
  exact ⟨⟨[], _, run, rfl⟩, held, got, ⟨_, ⟨[], _, market _, rfl⟩, remade⟩, rfl⟩

end Command

/-- A simulation can be made again from what is recorded of its terms: its code, its window, which
is one of 20 to 120 days, and its seed. In the same universe and market, or without a feed in the
market that the seed gives, it comes out the same under any settings. So does the command, on the
files that its first run has left, where it records the same terms with the same outcome.
-/
theorem Simulation.replay (settings other : Settings) (request : SimulationRequest)
    : (∀ securities strategy market (simulation : Simulation),
        of securities strategy market request settings = .ok simulation →
        20 ≤ simulation.days ∧ simulation.days ≤ 120
        ∧ ∃ again, SimulationRequest.ofParams? simulation.params = some again
          ∧ of securities strategy market again other = .ok simulation
          ∧ (settings.feedPath = none → other.feedPath = none → ∀ s t, ∃ resolved,
            (resolveMarket settings request.seed).run.run s = (.ok resolved, s)
            ∧ (resolveMarket other (some simulation.seed)).run.run t = (.ok resolved, t)
            ∧ resolved.source = .invented simulation.seed none))
      ∧ (settings.feedPath = none → other.feedPath = none → other.csvPath = settings.csvPath →
        other.databasePath = settings.databasePath →
        ∀ around id asDocument s reply t,
          (Command.simulateOne around settings request (.stored id) asDocument).run.run s
            = (.ok reply, t) →
          ∃ place found, ∃ simulation : Simulation, ∃ again,
            reply = simulation.reply found asDocument
            ∧ Recorded settings s.workspace place found (simulation.run around id) t.workspace
            ∧ SimulationRequest.ofParams? (simulation.run around id).params = some again
            ∧ ∀ around' asDocument' said, ∃ u,
              (Command.simulateOne around' other again (.stored id) asDocument').run.run
                  ⟨t.workspace, said⟩
                = (.ok (simulation.reply found asDocument'), u)
              ∧ Recorded other t.workspace place found (simulation.run around' id)
                  u.workspace) := by
  constructor
  · intro securities strategy market simulation made
    obtain ⟨low, high⟩ := days_bounds made
    have seed := seed_of made
    refine ⟨low, high, simulation.again, simulation.ofParams?_params, of_again made other, ?_⟩
    intro noFeed noFeed' s t
    have first := run_resolveMarket noFeed request.seed s
    have second := run_resolveMarket noFeed' (some simulation.seed) t
    rw [← seed] at first
    exact ⟨_, first, second, rfl⟩
  · intro noFeed noFeed' table database around id asDocument s reply t run
    obtain ⟨place, store, found, securities, simulation, ran, answer⟩ :=
      Command.ran_of_simulateOne run
    refine ⟨place, found, simulation, simulation.again, answer, ran.recorded,
      simulation.ofParams?_params, ?_⟩
    intro around' asDocument' said
    obtain ⟨last, gives, again⟩ := ran.again noFeed noFeed' table database around' asDocument'
    obtain ⟨said', rerun⟩ := gives said
    exact ⟨_, rerun, again.recorded⟩

-- A stored draft is simulated for a code with a blank before it, with a window of the settings
-- that is too long.
namespace RecordedDraft

def now : Timestamp := ⟨⟨2024, 6, 5, by decide⟩, 36061, 250000, by decide, by decide⟩

def around : Surroundings := ⟨now, "20240605", "stg_2", "run_1"⟩

def draft : Strategy := { Strategy.draft now with id := some "stg_1" }

def store : DocumentStore := ⟨[DocumentStore.rowOf "stg_1" draft], []⟩

def files : Workspace := ⟨[(["a.db"], .database store)]⟩

def settings : Settings := { Settings.standard with databasePath := some "a.db", days := 300 }

/-- The settings by the time of the second run. -/
def changed : Settings := { settings with seed := 1, days := 60 }

def request : SimulationRequest := ⟨" 600519", none, some 7⟩

def security : Security :=
  ⟨"600519", "贵州茅台", "白酒", 22000, 30.5, 0.8, 1688.2, 1.12,
      ⟨true, false, false⟩, ⟨"贵州", ["消费", "高端"]⟩⟩

def simulation : Simulation :=
  ⟨security, draft, 120, 7,
    Timeline.simulate draft security 120 7 (some (Market.resolve none 7).snapshot)⟩

theorem find?_request : Universe.find? Universe.sample request.code = some security := by
  decide +kernel

theorem made
    : Simulation.of Universe.sample draft (Market.resolve none 7) request settings
      = .ok simulation :=
  Simulation.of_eq_ok.2 ⟨security, find?_request, rfl⟩

theorem get?_store : store.get? "stg_1" = .ok (some draft) := by
  have finite : draft.Finite := by
    intro part v set
    cases part <;> cases set
  have regular : draft.createdAt.Regular := ⟨by decide, by decide, by decide⟩
  have row : store.strategies.find? (fun row => row.id == "stg_1")
      = some (DocumentStore.rowOf "stg_1" draft) := by
    simp [store, DocumentStore.rowOf]
  have read : DocumentStore.strategyOf (DocumentStore.rowOf "stg_1" draft) = .ok draft := by
    rw [DocumentStore.strategyOf, DocumentStore.rowOf, Strategy.parse_document finite regular]
    rfl
  rw [DocumentStore.get?, row]
  simp only [read]
  rfl

theorem held : Held settings files ["a.db"] store false where
  named := ⟨"a.db", .ofName "a.db", rfl, by decide +kernel, by decide +kernel, rfl, by
    decide +kernel⟩
  plain := by decide +kernel
  content := rfl

theorem run_request
    : ∃ t, (Command.simulateOne around settings request (.stored "stg_1") true).run.run ⟨files, []⟩
        = (.ok (simulation.reply draft true), t) := by
  have listed : Gives (loadSecurities settings) files Universe.sample files := gives_pure _ _
  have market : Gives (resolveMarket settings request.seed) files (Market.resolve none 7) files :=
    fun said => ⟨said, run_resolveMarket rfl _ _⟩
  obtain ⟨said, run⟩ :=
    Command.gives_simulateOne listed held get?_store market made around true []
  exact ⟨_, run⟩

/-- Witness: the window that was too long is one of 120 days, and the run of the settings that
have changed has the same answer as the first.
-/
theorem replay_recordedDraft
    : (∃ again, SimulationRequest.ofParams? simulation.params = some again
        ∧ Simulation.of Universe.sample draft (Market.resolve none 7) again changed
          = .ok simulation
        ∧ ∃ resolved,
          (resolveMarket changed (some simulation.seed)).run.run ⟨files, []⟩
            = (.ok resolved, ⟨files, []⟩)
          ∧ resolved.source = .invented simulation.seed none)
      ∧ ∃ t, ∃ again u,
        (Command.simulateOne around settings request (.stored "stg_1") true).run.run ⟨files, []⟩
          = (.ok (simulation.reply draft true), t)
        ∧ (Command.simulateOne around changed again (.stored "stg_1") true).run.run
            ⟨t.workspace, []⟩
          = (.ok (simulation.reply draft true), u) := by
  obtain ⟨first, second⟩ := Simulation.replay settings changed request
  constructor
  · obtain ⟨_, _, again, terms, remade, market⟩ := first _ _ _ _ made
    obtain ⟨resolved, _, same, source⟩ := market rfl rfl ⟨files, []⟩ ⟨files, []⟩
    exact ⟨again, terms, remade, resolved, same, source⟩
  · obtain ⟨t, run⟩ := run_request
    obtain ⟨_, found, other, again, answer, _, _, reruns⟩ := second rfl rfl rfl rfl around
      "stg_1" true _ _ t run
    obtain ⟨u, rerun, _⟩ := reruns around true []
    exact ⟨t, again, u, run, answer ▸ rerun⟩

end RecordedDraft

end Screener
