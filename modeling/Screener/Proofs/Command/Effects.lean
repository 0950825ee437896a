import Screener.Proofs.Command.Reading
import Screener.Proofs.Command.Runs

/-!
What commands change. A command that fails, or works with no stored strategy on others, leaves
the same strategies and runs stored. One that saves adds a strategy to the database of its
settings, and one that works with a stored strategy adds the run of what it reports. None of this
is undone where the answer cannot be written.
-/

namespace Screener

open Work
open Workspace (Same Becomes)
open DocumentStore (rowOf strategyOf runOf runRowOf)

-----------------------------------------------------------------------------------------
-- Effects
-----------------------------------------------------------------------------------------

/-- What a command that screens reports. -/
def Screening.reply (screening : Screening) (s : Strategy) (asDocument : Bool) : Reply :=
  if asDocument then
    .document (.object
      [("strategy", s.document), ("total", .ofNat screening.total),
        ("matches", .list (screening.selected.map Security.document))])
  else
    .report
      ("命中 " ++ Nat.repr screening.selected.length ++ " / " ++ Nat.repr screening.total ++
        "\n" ++ Universe.report screening.selected)

/-- What a command that simulates reports. -/
def Simulation.reply (simulation : Simulation) (s : Strategy) (asDocument : Bool) : Reply :=
  if asDocument then
    .document (.object
      [("strategy", s.document), ("params", simulation.params),
        ("events", simulation.eventDocument)])
  else .report (Timeline.report simulation.events)

/-- A draft has been stored as a strategy. The database has one strategy more, and is as it was
otherwise; if it is in memory, it is gone with the command.
-/
structure Saved (around : Surroundings) (settings : Settings) (before : Workspace)
    (draft added : Strategy) (after : Workspace)
    : Prop where
  stored : draft.stored around.strategyId around.now = .ok added
  kept
    : (∃ place, settings.databasePlace? before = some place
        ∧ Becomes before place
            { before.stored place with
              strategies := (before.stored place).strategies ++ [rowOf around.strategyId added] }
            after)
      ∨ (settings.isInMemory = true ∧ Same before after)
  readable
    : draft.Finite → around.now.Regular → strategyOf (rowOf around.strategyId added) = .ok added

/-- A run of a stored strategy has been added. The database, which is in a file, is as it was
otherwise.
-/
structure Recorded (settings : Settings) (before : Workspace) (place : FilePlace) (s : Strategy)
    (run : Run) (after : Workspace)
    : Prop where
  settled : settings.databasePlace? before = some place
  found : (before.stored place).get? run.strategyId = .ok (some s)
  becomes
    : Becomes before place
        { before.stored place with
          allRuns := (before.stored place).allRuns ++ [runRowOf run] }
        after

/-- A universe has been screened with a stored strategy: the selected securities are reported,
and a run of them is recorded that can be read back.
-/
structure Screened (around : Surroundings) (settings : Settings) (before : Workspace)
    (place : FilePlace) (s : Strategy) (securities : List Security) (id : String)
    (asDocument : Bool) (reply : Reply) (after : Workspace)
    : Prop where
  listed : Yields (loadSecurities settings) before securities
  reported : reply = (Screening.of s securities around.tradeDate).reply s asDocument
  recorded
    : Recorded settings before place s
        ((Screening.of s securities around.tradeDate).run around id) after
  readable
    : securities.length < UInt64.size → around.now.Regular →
        runOf (runRowOf ((Screening.of s securities around.tradeDate).run around id))
          = .ok ((Screening.of s securities around.tradeDate).run around id)

/-- A timeline has been simulated with a stored strategy: its events are reported, and a run of
them is recorded that can be read back.
-/
structure Simulated (around : Surroundings) (settings : Settings) (before : Workspace)
    (place : FilePlace) (s : Strategy) (simulation : Simulation) (request : SimulationRequest)
    (id : String) (asDocument : Bool) (reply : Reply) (after : Workspace)
    : Prop where
  made
    : ∃ securities resolved, Yields (loadSecurities settings) before securities
        ∧ Yields (resolveMarket settings request.seed) before resolved
        ∧ Simulation.of securities s resolved request settings = .ok simulation
  reported : reply = simulation.reply s asDocument
  recorded : Recorded settings before place s (simulation.run around id) after
  readable
    : around.now.Regular →
        runOf (runRowOf (simulation.run around id)) = .ok (simulation.run around id)

/-- What a command has done when it has succeeded. -/
def Command.Effect (around : Surroundings) (settings : Settings) (before : Workspace)
    (command : Command) (reply : Reply) (after : Workspace)
    : Prop :=
  match command with
  | .market .. | .parse .. | .stocks .. | .stock .. => Same before after
  | .screen .draft _ | .screen (.text _) _ => Same before after
  | .simulate _ .draft .. | .simulate _ (.text _) .. => Same before after
  | .store .list | .store (.card _) | .store (.runs ..) => Same before after
  | .store (.save text name) =>
    ∃ added, reply = .report added.card
      ∧ Saved around settings before (Phrase.draftOf around.now text name) added after
  | .store (.create form) =>
    ∃ added, reply = .report added.card
      ∧ Saved around settings before (form.strategy around.now) added after
  | .screen (.stored id) asDocument =>
    ∃ place s securities,
      Screened around settings before place s securities id asDocument reply after
  | .simulate code (.stored id) days seed asDocument =>
    ∃ place s simulation,
      Simulated around settings before place s simulation ⟨code, days, seed⟩ id asDocument reply
        after

-----------------------------------------------------------------------------------------
-- Commands
-----------------------------------------------------------------------------------------

namespace Work

variable {around : Surroundings} {settings : Settings} {before : Workspace} {s : Session}

theorem leads_save {database : Database} (opened : Opened settings before database)
    (same : Same before s.workspace) (around : Surroundings) (draft : Strategy)
    : Leads before
        (addStrategy database (database.store.create around.strategyId around.now draft)
          >>= fun added => pure (Reply.report added.card)) s
        fun reply t => ∃ added, reply = .report added.card
          ∧ Saved around settings before draft added t.workspace := by
  refine leads_bind (leads_addStrategy same fun added t stored left => ?_)
  refine leads_pure ⟨added, rfl, stored, ?_, fun finite regular => ?_⟩
  · rw [left]
    cases opened with
    | @file place settled _ =>
        exact .inl ⟨place, settled, same.becomes (Workspace.becomes_write _ _ _)⟩
    | memory unkept _ => exact .inr ⟨unkept, same⟩
  · exact DocumentStore.strategyOf_stored stored finite regular

theorem leads_chosenStored {id : String} {done : Strategy × Origin → Session → Prop}
    (unchanged : s.workspace = before)
    (h : ∀ found place isReadOnly t, settings.databasePlace? before = some place →
      (before.stored place).get? id = .ok (some found) → t.workspace = before →
      done (found, some (id, ⟨some place, before.stored place, isReadOnly⟩)) t)
    : Leads before (chosen around settings (.stored id)) s done := by
  refine leads_bind (leads_openDatabase unchanged fun database t opened same still => ?_)
  refine leads_bind (leads_findStored same fun found got => leads_pure ?_)
  have filled : database.store ≠ .empty := by
    intro nothing
    rw [nothing] at got
    exact absurd (Except.ok.inj got).symm (Option.some_ne_none found)
  cases opened with
  | file settled isReadOnly => exact h found _ isReadOnly t settled got (still filled)
  | memory unkept isReadOnly => exact absurd rfl filled

end Work

namespace Command

variable {around : Surroundings} {settings : Settings} {before : Workspace} {s : Session}

theorem leads_screenStored (unchanged : s.workspace = before) (id : String) (asDocument : Bool)
    : Leads before (screenAll around settings (.stored id) asDocument) s fun reply t =>
        ∃ place s securities,
          Screened around settings before place s securities id asDocument reply t.workspace := by
  refine leads_bind (leads_chosenStored unchanged fun found place _ t settled got still => ?_)
  refine leads_bind ((looks_loadSecurities settings).leads still
    fun securities t listed still => ?_)
  refine leads_bind (leads_record (still ▸ .refl _) fun t _ left => ?_)
  have recorded : Recorded settings before place found
      ((Screening.of found securities around.tradeDate).run around id) t.workspace := by
    refine ⟨settled, got, ?_⟩
    rw [left, still, ← Screening.stored_eq_run]
    exact Workspace.becomes_write _ _ _
  refine leads_answer fun u last => ⟨place, found, securities, listed, rfl, last ▸ recorded, ?_⟩
  exact fun small regular => Screening.runOf_run small regular id

theorem leads_simulateStored (unchanged : s.workspace = before) (request : SimulationRequest)
    (id : String) (asDocument : Bool)
    : Leads before (simulateOne around settings request (.stored id) asDocument) s
        fun reply t => ∃ place s simulation,
          Simulated around settings before place s simulation request id asDocument reply
            t.workspace := by
  refine leads_bind ((looks_loadSecurities settings).leads unchanged
    fun securities t listed unchanged => ?_)
  refine leads_bind (leads_chosenStored unchanged fun found place _ t settled got still => ?_)
  refine leads_bind ((looks_resolveMarket settings request.seed).leads still
    fun resolved t market still => ?_)
  refine leads_bind (leads_lift (still ▸ .refl _) fun simulation made => ?_)
  refine leads_bind (leads_record (still ▸ .refl _) fun t _ left => ?_)
  have recorded : Recorded settings before place found (simulation.run around id) t.workspace := by
    refine ⟨settled, got, ?_⟩
    rw [left, still, ← Simulation.stored_eq_run]
    exact Workspace.becomes_write _ _ _
  refine leads_answer fun u last => ⟨place, found, simulation,
    ⟨securities, resolved, listed, market, made⟩, rfl, last ▸ recorded, ?_⟩
  exact fun regular => Simulation.runOf_run made regular id

theorem leads_work (unchanged : s.workspace = before) (command : Command)
    : Leads before (command.work around settings) s fun reply t =>
        command.Effect around settings before reply t.workspace := by
  have looked {work : Work Reply} (looks : Looks work)
      : Leads before work s fun _ t => Same before t.workspace :=
    looks.leads unchanged fun _ _ _ still => still ▸ .refl _
  cases command with
  | market seed asDocument => exact looked (looks_showMarket settings seed asDocument)
  | parse text base asDocument => exact looked (looks_readText around text base asDocument)
  | screen choice asDocument =>
      cases choice with
      | draft => exact looked (looks_screenAll around settings rfl asDocument)
      | text text => exact looked (looks_screenAll around settings rfl asDocument)
      | stored id => exact leads_screenStored unchanged id asDocument
  | simulate code choice days seed asDocument =>
      cases choice with
      | draft => exact looked (looks_simulateOne around settings ⟨code, days, seed⟩ rfl asDocument)
      | text text =>
          exact looked (looks_simulateOne around settings ⟨code, days, seed⟩ rfl asDocument)
      | stored id => exact leads_simulateStored unchanged ⟨code, days, seed⟩ id asDocument
  | stocks query watchlist => exact looked (looks_searchAll settings query watchlist)
  | stock code seed => exact looked (looks_showSecurity settings code seed)
  | store command =>
      refine leads_bind (leads_openDatabase unchanged fun database t opened same _ => ?_)
      cases command with
      -- What is saved is stated apart: matching it with the goal would run the command.
      | save text name =>
          have saved := leads_save opened same around (Phrase.draftOf around.now text name)
          exact saved
      | create form =>
          have saved := leads_save opened same around (form.strategy around.now)
          exact saved
      | list =>
          refine leads_bind (leads_lift same fun strategies _ => ?_)
          dsimp only
          split
          · exact leads_bind (leads_say (leads_pure same))
          · exact leads_pure same
      | card id => exact leads_bind (leads_findStored same fun _ _ => leads_pure same)
      | runs id limit =>
          refine leads_bind (leads_findStored same fun _ _ => ?_)
          exact leads_bind (leads_lift same fun _ _ => leads_pure same)

end Command

-----------------------------------------------------------------------------------------
-- Command lines
-----------------------------------------------------------------------------------------

/-- The exit status of a failure is neither that of success nor that of an answer that could not
be written.
-/
theorem Failure.exitStatus_bounds (failure : Failure)
    : 0 < failure.exitStatus ∧ failure.exitStatus < Outcome.unwritten := by
  unfold exitStatus
  cases failure.family <;> decide

/-- What the exit status and the answer of a command line tell of the answer of its work: the
output has taken it, or it has not.
-/
def Outcome.Answers (outcome : Outcome) (output : Output) (reply : Reply) : Prop :=
  (output.takes reply.text = true ∧ outcome.status = 0 ∧ outcome.reply = some reply)
    ∨ (output.takes reply.text = false ∧ outcome.status = unwritten ∧ outcome.reply = none)

/-- A command line fails, with an exit status of its own, and leaves the same strategies and
runs stored; or it has the effect of its command, also where the output does not take the
answer.
-/
theorem Invocation.run_effect (around : Surroundings) (output : Output) (invocation : Invocation)
    (before : Workspace)
    : ((invocation.run around output before).status ≠ 0
        ∧ (invocation.run around output before).status ≠ Outcome.unwritten
        ∧ Same before (invocation.run around output before).workspace)
      ∨ ∃ settings reply, Yields (loadSettings invocation.settings) before settings
        ∧ (invocation.run around output before).Answers output reply
        ∧ invocation.command.Effect around settings before reply
            (invocation.run around output before).workspace := by
  have leads : Leads before
      (loadSettings invocation.settings >>= fun settings =>
        invocation.command.work around settings) ⟨before, []⟩
      fun reply t => ∃ settings, Yields (loadSettings invocation.settings) before settings
        ∧ invocation.command.Effect around settings before reply t.workspace := by
    refine leads_bind ((looks_loadSettings invocation.settings).leads rfl
      fun settings t loaded unchanged => ?_)
    exact leads_mono (Command.leads_work unchanged invocation.command)
      fun _ _ effect => ⟨settings, loaded, effect⟩
  rcases ended : (loadSettings invocation.settings >>= fun settings =>
    invocation.command.work around settings).run.run ⟨before, []⟩ with ⟨failure | reply, t⟩
  · have outcome : invocation.run around output before
        = ⟨failure.exitStatus, none, t.said ++ ["error: " ++ failure.message], t.workspace⟩ := by
      simp only [run, ended]
    obtain ⟨positive, small⟩ := failure.exitStatus_bounds
    rw [outcome]
    exact .inl ⟨Nat.ne_of_gt positive, Nat.ne_of_lt small, leads.fails failure t ended⟩
  · obtain ⟨settings, loaded, effect⟩ := leads.succeeds reply t ended
    refine .inr ⟨settings, reply, loaded, ?_⟩
    -- The files are as the work has left them, whatever becomes of the answer.
    cases taken : output.takes reply.text with
    | true =>
        have outcome : invocation.run around output before
            = ⟨0, some reply, t.said, t.workspace⟩ := by
          simp only [run, ended, taken, if_true]
        rw [outcome]
        exact ⟨.inl ⟨taken, rfl, rfl⟩, effect⟩
    | false =>
        have outcome : invocation.run around output before
            = ⟨Outcome.unwritten, none, t.said, t.workspace⟩ := by
          simp only [run, ended, taken, Bool.false_eq_true, if_false]
        rw [outcome]
        exact ⟨.inr ⟨taken, rfl, rfl⟩, effect⟩

-- The exit status alone does not tell what is stored: a save to a database in memory succeeds
-- without a trace, and a save whose answer is not written is kept all the same.
namespace CheapSaves

def around : Surroundings where
  now := ⟨⟨2024, 5, 6, by decide⟩, 34321, 7000, by decide, by decide⟩
  tradeDate := "20240506"
  strategyId := "stg_1"
  runId := "run_1"

def memoryText : String := "[sqlite]\npath = :memory:\npool_size = 1\n"

def fileText : String := "[sqlite]\npath = s.db\npool_size = 1\n"

def files : Workspace := .ofTexts [("a.ini", memoryText), ("b.ini", fileText)]

def savesBy (path : String) : Invocation := ⟨some path, .store (.save "PE<10" none)⟩

def settings (databasePath : String) : Settings :=
  { Settings.standard with
    databasePath := some databasePath
    poolSize := 1 }

/-- Settings are loaded from a file whose text sets them. -/
theorem run_loadSettings {path text : String} {ini : Ini} {settings : Settings}
    (read : files.read path = .ok text) (parsed : Ini.parse text = .ok ini)
    (set : Settings.ofIni ini = .ok settings)
    : (loadSettings (some path)).run.run ⟨files, []⟩
      = (.ok settings, ⟨files, ["Loading config from " ++ path]⟩) := by
  have steps : (loadSettings (some path)).run.run ⟨files, []⟩
      = (Work.lift _ (files.read path) >>= fun text =>
          Work.lift _ (Ini.parse text) >>= fun ini =>
          Work.lift .setting (Settings.ofIni ini) : Work Settings).run.run
          ⟨files, ["Loading config from " ++ path]⟩ := rfl
  have taken {ε α β : Type} (failure : ε → Failure) (a : α) (next : α → Work β)
      : Work.lift failure (.ok a) >>= next = next a :=
    pure_bind a next
  rw [steps, read, taken, parsed, taken, set]
  rfl

theorem loaded_memory
    : (loadSettings (some "a.ini")).run.run ⟨files, []⟩
      = (.ok (settings ":memory:"), ⟨files, ["Loading config from a.ini"]⟩) := by
  have plain : "a.ini".contains '\x00' = false := by simp
  have read : files.read "a.ini" = .ok memoryText := by
    rw [Workspace.read, Workspace.find, plain]
    decide +kernel
  have parsed : Ini.parse memoryText
      = .ok ⟨[⟨"sqlite", "path", some ":memory:"⟩, ⟨"sqlite", "pool_size", some "1"⟩]⟩ := by
    decide +kernel
  exact run_loadSettings read parsed (by decide +kernel)

theorem loaded_file
    : (loadSettings (some "b.ini")).run.run ⟨files, []⟩
      = (.ok (settings "s.db"), ⟨files, ["Loading config from b.ini"]⟩) := by
  have plain : "b.ini".contains '\x00' = false := by simp
  have read : files.read "b.ini" = .ok fileText := by
    rw [Workspace.read, Workspace.find, plain]
    decide +kernel
  have parsed : Ini.parse fileText
      = .ok ⟨[⟨"sqlite", "path", some "s.db"⟩, ⟨"sqlite", "pool_size", some "1"⟩]⟩ := by
    decide +kernel
  exact run_loadSettings read parsed (by decide +kernel)

/-- A save whose settings are loaded comes to its own work. -/
theorem run_loaded {path : String} {settings : Settings} {said : List String}
    (loaded : (loadSettings (some path)).run.run ⟨files, []⟩ = (.ok settings, ⟨files, said⟩))
    : (loadSettings (savesBy path).settings >>= fun settings =>
        (savesBy path).command.work around settings).run.run ⟨files, []⟩
      = ((savesBy path).command.work around settings).run.run ⟨files, said⟩ := by
  rw [Work.run_bind, show (savesBy path).settings = some path from rfl, loaded]

/-- A save that succeeds and leaves no database with one strategy more than before, and one
that ends with a failing status and leaves other strategies than before.
-/
theorem status_misleads
    : ((savesBy "a.ini").run around .unbounded files).status = 0
      ∧ (¬ ∃ place,
        (((savesBy "a.ini").run around .unbounded files).workspace.stored place).strategies.length
          = (files.stored place).strategies.length + 1)
      ∧ ((savesBy "b.ini").run around (.bounded 0) files).status ≠ 0
      ∧ ¬ Same files ((savesBy "b.ini").run around (.bounded 0) files).workspace := by
  refine ⟨?_, ?_, ?_, ?_⟩
  · simp only [Invocation.run, run_loaded loaded_memory]
    decide +kernel
  · have kept : ((savesBy "a.ini").run around .unbounded files).workspace = files := by
      simp only [Invocation.run, run_loaded loaded_memory]
      decide +kernel
    rintro ⟨place, more⟩
    rw [kept] at more
    omega
  · simp only [Invocation.run, run_loaded loaded_file]
    decide +kernel
  · have added : (((savesBy "b.ini").run around (.bounded 0) files).workspace.stored
        ["s.db"]).strategies.length = 1 := by
      simp only [Invocation.run, run_loaded loaded_file]
      decide +kernel
    intro same
    rw [same ["s.db"]] at added
    exact absurd added (by decide +kernel)

end CheapSaves

end Screener
