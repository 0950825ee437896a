import Screener.Command.Work
import Screener.Proofs.Outcome

/-!
What work leaves in the files. Work either comes to a result, after which something holds, or it
fails with the same strategies and runs stored as at its start.
-/

namespace Screener

-----------------------------------------------------------------------------------------
-- What is stored
-----------------------------------------------------------------------------------------

namespace Workspace

/-- The strategies and runs at a place; where there is no database, none. -/
def stored (w : Workspace) (place : FilePlace) : DocumentStore :=
  match w.content? place with
  | some (.database store) => store
  | _ => .empty

/-- The same strategies and runs are stored at every place. -/
def Same (v w : Workspace) : Prop := ∀ place, w.stored place = v.stored place

theorem Same.refl (w : Workspace) : Same w w := fun _ => rfl

theorem Same.trans {u v w : Workspace} (first : Same u v) (second : Same v w) : Same u w :=
  fun place => (second place).trans (first place)

theorem content?_write (w : Workspace) (place other : FilePlace) (content : Content)
    : (w.write place content).content? other
      = if other = place then some content else w.content? other := by
  unfold write content?
  rw [List.find?_cons]
  split
  next same =>
    rw [if_pos (beq_iff_eq.1 same).symm]
    rfl
  next apart =>
    have different : other ≠ place := by
      rintro rfl
      simp at apart
    rw [if_neg different, List.find?_filter]
    congr 2
    funext file
    by_cases here : file.1 = other
    · simp [here, different]
    · simp [here]

/-- Something else is stored at one place alone. -/
structure Becomes (v : Workspace) (place : FilePlace) (store : DocumentStore) (w : Workspace)
    : Prop where
  here : w.stored place = store
  elsewhere : ∀ other, other ≠ place → w.stored other = v.stored other

theorem Same.becomes {u v w : Workspace} {place : FilePlace} {store : DocumentStore}
    (same : Same u v) (becomes : Becomes v place store w)
    : Becomes u place store w where
  here := becomes.here
  elsewhere other apart := (becomes.elsewhere other apart).trans (same other)

/-- A file that is written holds what it is written with. -/
theorem becomes_write (w : Workspace) (place : FilePlace) (store : DocumentStore)
    : Becomes w place store (w.write place (.database store)) where
  here := by simp [stored, content?_write]
  elsewhere other apart := by simp [stored, content?_write, apart]

/-- An empty text and an empty database are as nothing at all. -/
theorem same_write_empty {w : Workspace} {place : FilePlace} (none : w.stored place = .empty)
    {content : Content} (empty : content = .text "" ∨ content = .database .empty)
    : Same w (w.write place content) := by
  intro other
  by_cases here : other = place
  · subst here
    rw [none]
    rcases empty with rfl | rfl <;> simp [stored, content?_write]
  · simp [stored, content?_write, here]

end Workspace

open Workspace (Same)

namespace Settings

/-- The address of the database that settings name. -/
def address? (settings : Settings) : Option DatabaseAddress :=
  settings.databasePath.bind fun path => (DatabaseAddress.parse path).toOption

/-- The place of the file that keeps the database. -/
def databasePlace? (settings : Settings) (w : Workspace) : Option FilePlace :=
  (settings.address?.filter DatabaseAddress.isKept).bind fun address => w.settle address.name

/-- The settings name a database that no file keeps. -/
def isInMemory (settings : Settings) : Bool :=
  settings.address?.any fun address => !address.isKept

end Settings

-----------------------------------------------------------------------------------------
-- Work
-----------------------------------------------------------------------------------------

namespace Work

/-- The work comes from a session to a result, after which `done` holds, or it fails while the
same is stored as in the workspace `start`.
-/
structure Leads {α : Type} (start : Workspace) (work : Work α) (s : Session)
    (done : α → Session → Prop)
    : Prop where
  succeeds : ∀ a t, work.run.run s = (.ok a, t) → done a t
  fails : ∀ failure t, work.run.run s = (.error failure, t) → Same start t.workspace

variable {α β : Type} {start : Workspace} {s : Session} {done : α → Session → Prop}

theorem leads_of_ok {work : Work α} {a : α} {t : Session} (run : work.run.run s = (.ok a, t))
    (h : done a t)
    : Leads start work s done where
  succeeds b u other := by
    rw [run] at other
    cases other
    exact h
  fails _ _ other := by
    rw [run] at other
    cases other

theorem leads_of_error {work : Work α} {failure : Failure} {t : Session}
    (run : work.run.run s = (.error failure, t)) (same : Same start t.workspace)
    : Leads start work s done where
  succeeds _ _ other := by
    rw [run] at other
    cases other
  fails _ _ other := by
    rw [run] at other
    cases other
    exact same

theorem leads_pure {a : α} (h : done a s) : Leads start (pure a) s done := leads_of_ok rfl h

theorem leads_throw (same : Same start s.workspace) (failure : Failure)
    : Leads start (throw failure) s done :=
  leads_of_error rfl same

theorem run_bind (work : Work α) (next : α → Work β) (s : Session)
    : (work >>= next).run.run s
      = match work.run.run s with
        | (.ok a, t) => (next a).run.run t
        | (.error failure, t) => (.error failure, t) := by
  rw [ExceptT.run_bind, StateT.run_bind]
  rcases work.run.run s with ⟨failure | a, t⟩ <;> rfl

theorem leads_bind {work : Work α} {next : α → Work β} {done : β → Session → Prop}
    (first : Leads start work s fun a t => Leads start (next a) t done)
    : Leads start (work >>= next) s done := by
  rcases run : work.run.run s with ⟨failure | a, t⟩
  · exact leads_of_error (by rw [run_bind, run]) (first.fails failure t run)
  · have others := first.succeeds a t run
    have same : (work >>= next).run.run s = (next a).run.run t := by rw [run_bind, run]
    exact ⟨same ▸ others.succeeds, same ▸ others.fails⟩

theorem leads_mono {weak : α → Session → Prop} {work : Work α} (h : Leads start work s weak)
    (implies : ∀ a t, weak a t → done a t)
    : Leads start work s done :=
  ⟨fun a t run => implies a t (h.succeeds a t run), h.fails⟩

theorem leads_get {done : Session → Session → Prop} (h : done s s)
    : Leads start (get : Work Session) s done :=
  leads_of_ok rfl h

theorem leads_modify {f : Session → Session} {done : PUnit → Session → Prop} (h : done ⟨⟩ (f s))
    : Leads start (modify f : Work PUnit) s done :=
  leads_of_ok rfl h

theorem leads_say {line : String} {done : Unit → Session → Prop}
    (h : done () { s with said := s.said ++ [line] })
    : Leads start (say line) s done :=
  leads_of_ok rfl h

theorem leads_lift {ε : Type} {failure : ε → Failure} {result : Except ε α}
    (same : Same start s.workspace) (h : ∀ a, result = .ok a → done a s)
    : Leads start (Work.lift failure result) s done := by
  cases result with
  | ok a => exact leads_pure (h a rfl)
  | error e => exact leads_throw same _

/-- Work ends with a document, or with a line that is said and a report. -/
theorem leads_answer {asDocument : Bool} {line : String} {document report : α}
    (h : ∀ t, t.workspace = s.workspace → done (if asDocument then document else report) t)
    : Leads start (if asDocument then pure document else say line >>= fun _ => pure report) s
        done := by
  cases asDocument with
  | true => exact leads_pure (h s rfl)
  | false => exact leads_bind (leads_say (leads_pure (h _ rfl)))

/-- The work leaves all files as they are. -/
def Looks (work : Work α) : Prop := ∀ s, (work.run.run s).2.workspace = s.workspace

theorem looks_pure (a : α) : Looks (pure a) := fun _ => rfl

theorem looks_throw (failure : Failure) : Looks (throw failure : Work α) := fun _ => rfl

theorem looks_say (line : String) : Looks (say line) := fun _ => rfl

theorem looks_lift {ε : Type} (failure : ε → Failure) (result : Except ε α)
    : Looks (Work.lift failure result) := by
  cases result with
  | ok a => exact looks_pure a
  | error e => exact looks_throw (failure e)

theorem looks_readText (path : String) : Looks (readText path) := fun _ => rfl

theorem looks_bind {work : Work α} {next : α → Work β} (first : Looks work)
    (others : ∀ a, Looks (next a))
    : Looks (work >>= next) := by
  intro s
  have here := first s
  rw [run_bind]
  rcases run : work.run.run s with ⟨failure | a, t⟩
  · rw [run] at here
    exact here
  · rw [run] at here
    exact (others a t).trans here

theorem looks_answer (asDocument : Bool) (line : String) (document report : α)
    : Looks (if asDocument then pure document else say line >>= fun _ => pure report) := by
  cases asDocument with
  | true => exact looks_pure document
  | false => exact looks_bind (looks_say line) fun _ => looks_pure report

/-- On some files the work comes to a result, and leaves them as they are. -/
def Yields (work : Work α) (w : Workspace) (a : α) : Prop :=
  ∃ said t, work.run.run ⟨w, said⟩ = (.ok a, t) ∧ t.workspace = w

/-- Work that only looks fails, or comes to what it yields on the files. -/
theorem Looks.leads {work : Work α} (looks : Looks work) (unchanged : s.workspace = start)
    (h : ∀ a t, Yields work start a → t.workspace = start → done a t)
    : Leads start work s done := by
  subst unchanged
  have here := looks s
  rcases run : work.run.run s with ⟨failure | a, t⟩
  · rw [run] at here
    exact leads_of_error run (here ▸ .refl _)
  · rw [run] at here
    exact leads_of_ok run (h a t ⟨s.said, t, run, here⟩ here)

-----------------------------------------------------------------------------------------
-- Settings, universes and markets
-----------------------------------------------------------------------------------------

theorem looks_loadSettings (path : Option String) : Looks (loadSettings path) := by
  cases path with
  | none => exact looks_lift _ _
  | some path =>
      refine looks_bind (looks_say _) fun _ => ?_
      refine looks_bind (looks_readText path) fun _ => ?_
      refine looks_bind (looks_lift _ _) fun _ => ?_
      exact looks_bind (looks_lift _ _) fun _ => looks_lift _ _

theorem looks_loadSecurities (settings : Settings) : Looks (loadSecurities settings) := by
  unfold loadSecurities
  split
  · exact looks_pure _
  · refine looks_bind (looks_readText _) fun _ => ?_
    refine looks_bind (looks_lift _ _) fun _ => ?_
    refine looks_bind (looks_lift _ _) fun _ => ?_
    exact looks_bind (looks_say _) fun _ => looks_pure _

theorem looks_resolveMarket (settings : Settings) (seed : Option UInt32)
    : Looks (resolveMarket settings seed) := by
  have told (notice : String) (resolved : Market.Resolved)
      : Looks (say notice >>= fun _ => pure resolved) :=
    looks_bind (looks_say notice) fun _ => looks_pure resolved
  unfold resolveMarket
  split
  · refine looks_bind (looks_pure _) fun feed => ?_
    dsimp only
    split
    · exact told _ _
    · exact looks_pure _
  · refine looks_bind (looks_readText _) fun _ => looks_bind (looks_pure _) fun feed => ?_
    dsimp only
    split
    · exact told _ _
    · exact looks_pure _

theorem looks_findSecurity (securities : List Security) (code : String)
    : Looks (findSecurity securities code) := by
  unfold findSecurity
  split
  · exact looks_pure _
  · exact looks_throw _

-----------------------------------------------------------------------------------------
-- Databases
-----------------------------------------------------------------------------------------

/-- The files once a database has been kept. -/
def Database.left (database : Database) (w : Workspace) : Workspace :=
  match database.place with
  | none => w
  | some place => w.write place (.database database.store)

theorem leads_keep {database : Database} {done : Unit → Session → Prop}
    (same : Same start s.workspace)
    (h : database.isReadOnly = false → done () { s with workspace := database.left s.workspace })
    : Leads start (keep database) s done := by
  obtain ⟨place, store, isReadOnly⟩ := database
  cases isReadOnly with
  | true => exact leads_throw same _
  | false =>
      cases place with
      | none => exact leads_pure (h rfl)
      | some place => exact leads_modify (h rfl)

/-- A database as it is when it has been opened: in the file that settings name, with what is
stored there, or in memory, with nothing.
-/
inductive Opened (settings : Settings) (w : Workspace) : Database → Prop
  | file {place : FilePlace} (settled : settings.databasePlace? w = some place)
    (isReadOnly : Bool)
    : Opened settings w ⟨some place, w.stored place, isReadOnly⟩
  | memory (unkept : settings.isInMemory = true) (isReadOnly : Bool)
    : Opened settings w ⟨none, .empty, isReadOnly⟩

theorem leads_newDatabase {address : DatabaseAddress} {place : FilePlace}
    {done : Database → Session → Prop} (same : Same start s.workspace)
    (none : s.workspace.stored place = .empty)
    (h : ∀ isReadOnly t, Same s.workspace t.workspace →
      done ⟨some place, .empty, isReadOnly⟩ t)
    : Leads start (newDatabase address place) s done := by
  have emptied := Workspace.same_write_empty none (.inl rfl)
  have still : (s.workspace.write place (.text "")).stored place = .empty :=
    (emptied place).trans none
  have filled := Workspace.same_write_empty still (.inr rfl)
  unfold newDatabase
  refine leads_bind (leads_modify ?_)
  dsimp only
  split
  next => exact leads_bind (leads_throw (same.trans emptied) _)
  next =>
    refine leads_bind (leads_keep (same.trans emptied) fun _ => ?_)
    exact leads_pure (h _ _ (emptied.trans filled))

theorem leads_openFile {path : String} {address : DatabaseAddress}
    {done : Database → Session → Prop} (same : Same start s.workspace)
    (h : ∀ place isReadOnly t, s.workspace.settle address.name = some place →
      Same s.workspace t.workspace →
      (s.workspace.stored place ≠ .empty → t.workspace = s.workspace) →
      done ⟨some place, s.workspace.stored place, isReadOnly⟩ t)
    : Leads start (openFile path address) s done := by
  unfold openFile
  refine leads_bind (leads_get ?_)
  dsimp only
  split
  next => exact leads_throw same _
  next place settled =>
    -- What is not a database counts as nothing stored.
    have created (none : s.workspace.stored place = .empty)
        : Leads start (newDatabase address place) s done := by
      refine leads_newDatabase same none fun isReadOnly t kept => none ▸ ?_
      exact h place isReadOnly t settled kept fun some => absurd none some
    split
    next => exact leads_bind (leads_throw same _)
    next =>
      refine leads_bind (leads_pure ?_)
      split
      next store content =>
        have holds : s.workspace.stored place = store := by simp [Workspace.stored, content]
        exact leads_pure (holds ▸ h place _ s settled (.refl _) fun _ => rfl)
      next content => exact created (by simp [Workspace.stored, content])
      next => exact leads_throw same _
      next content =>
        split
        next => exact created (by simp [Workspace.stored, content])
        next => exact leads_throw same _

/-- Opening a database leaves what is stored, and all files if anything is stored in it. -/
theorem leads_openDatabase {settings : Settings} {done : Database → Session → Prop}
    (unchanged : s.workspace = start)
    (h : ∀ database t, Opened settings start database → Same start t.workspace →
      (database.store ≠ .empty → t.workspace = start) → done database t)
    : Leads start (openDatabase settings) s done := by
  subst unchanged
  unfold openDatabase
  cases configured : settings.databasePath with
  | none => exact leads_throw (.refl _) _
  | some path =>
      refine leads_bind (leads_lift (.refl _) fun address parsed => ?_)
      have named : settings.address? = some address := by
        simp [Settings.address?, configured, parsed, Except.toOption]
      split
      next kept =>
        refine leads_openFile (.refl _) fun place isReadOnly t settled same still => ?_
        have found : settings.databasePlace? s.workspace = some place := by
          rw [Settings.databasePlace?, named, Option.filter_some, if_pos kept]
          exact settled
        exact h _ t (.file found isReadOnly) same still
      next unkept =>
        refine leads_bind (leads_keep (.refl _) fun _ => ?_)
        refine leads_pure (h _ _ (.memory ?_ _) (.refl _) fun some => absurd rfl some)
        simp [Settings.isInMemory, named, unkept]

-----------------------------------------------------------------------------------------
-- Strategies and runs
-----------------------------------------------------------------------------------------

theorem leads_addStrategy {database : Database} {id : String} {now : Timestamp} {draft : Strategy}
    {done : Strategy → Session → Prop} (same : Same start s.workspace)
    (h : ∀ added t, draft.stored id now = .ok added →
      t.workspace = { database with
          store.strategies := database.store.strategies ++ [DocumentStore.rowOf id added] }.left
        s.workspace →
      done added t)
    : Leads start (addStrategy database (database.store.create id now draft)) s done := by
  unfold addStrategy
  refine leads_bind (leads_lift same fun entry ok => ?_)
  obtain ⟨added, stored, kept⟩ := Outcome.bind_eq_ok.1 ok
  obtain rfl := Except.ok.inj kept
  refine leads_bind (leads_keep same fun _ => ?_)
  exact leads_bind (leads_say (leads_pure (h added _ stored rfl)))

theorem leads_findStored {database : Database} {id : String} {done : Strategy → Session → Prop}
    (same : Same start s.workspace)
    (h : ∀ found, database.store.get? id = .ok (some found) → done found s)
    : Leads start (findStored database id) s done := by
  refine leads_lift same fun found ok => ?_
  obtain ⟨looked, got, same⟩ := Outcome.bind_eq_ok.1 ok
  cases looked with
  | none => contradiction
  | some other =>
      obtain rfl := Except.ok.inj same
      exact h other got

theorem leads_record {around : Surroundings} {id : String} {database : Database}
    {params result : Json.Value} {done : Unit → Session → Prop} (same : Same start s.workspace)
    (h : ∀ t, database.isReadOnly = false →
      t.workspace = { database with
          store.allRuns := database.store.allRuns
            ++ [DocumentStore.runRowOf (Run.stored around.runId around.now id params result)] }.left
        s.workspace →
      done () t)
    : Leads start (record around (some (id, database)) params result) s done := by
  unfold record
  refine leads_bind (leads_lift same fun entry ok => ?_)
  obtain ⟨looked, got, kept⟩ := Outcome.bind_eq_ok.1 ok
  cases looked with
  | none => contradiction
  | some found =>
      obtain rfl := Except.ok.inj kept
      exact leads_bind (leads_keep same fun writable => leads_say (h _ writable rfl))

end Work

end Screener
