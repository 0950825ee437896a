import Screener.Command.Basic
import Screener.Command.Workspace
import Screener.Market.Feed
import Screener.Store.Saving
import Screener.Timeline.Request
import Screener.Universe.Sample

/-!
Work on files: what commands read and keep, and what they say while they do. What has been
said stands also when the work fails.
-/

namespace Screener

/-- What work is given from outside: the time, the day of trade, and identifiers that
are not in use.
-/
structure Surroundings where
  now : Timestamp
  tradeDate : String
  strategyId : String
  runId : String

/-- The files, and what has been said so far. -/
structure Session where
  workspace : Workspace
  said : List String

/-- Work on files, which may fail. -/
abbrev Work := ExceptT Failure (StateM Session)

namespace Work

/-- Says a line. -/
def say (line : String) : Work Unit :=
  modify fun session => { session with said := session.said ++ [line] }

/-- The result of a computation that may fail for a reason of its own. -/
def lift {ε α : Type} (failure : ε → Failure) (result : Except ε α) : Work α :=
  match result with
  | .ok a => pure a
  | .error e => throw (failure e)

/-- The text of a file. -/
def readText (path : String) : Work (Except FileProblem String) := do
  return (← get).workspace.read path

-----------------------------------------------------------------------------------------
-- Settings, universes and markets
-----------------------------------------------------------------------------------------

/-- The settings in a file, or the standard ones. -/
def loadSettings : Option String → Work Settings
  | none => Work.lift .setting (Settings.ofIni .empty)
  | some path => do
    say ("Loading config from " ++ path)
    let text ← Work.lift (fun cause => .settingsFile path (.unreadable cause)) (← readText path)
    let ini ← Work.lift (fun cause => .settingsFile path (.malformed cause)) (Ini.parse text)
    Work.lift .setting (Settings.ofIni ini)

/-- The universe in the table of the settings, or the sample. -/
def loadSecurities (settings : Settings) : Work (List Security) :=
  match settings.csvPath with
  | none => pure Universe.sample
  | some path => do
    let text ← Work.lift (fun cause => .table (.unreadable path cause)) (← readText path)
    let securities ← Work.lift .table (Universe.ofTable text.toList)
    say ("Loaded " ++ Nat.repr securities.length ++ " securities from " ++ path)
    return securities

/-- The market of the feed of the settings, or the one invented from a seed. -/
def resolveMarket (settings : Settings) (seed : Option UInt32) : Work Market.Resolved := do
  let feed ←
    match settings.feedPath with
    | none => pure none
    | some path => do pure (some (Market.readFeed path (← readText path)))
  let resolved := Market.resolve feed (seed.getD settings.seed)
  match resolved.source.notice? with
  | some notice => say notice
  | none => pure ()
  return resolved

/-- The security with a code. -/
def findSecurity (securities : List Security) (code : String) : Work Security :=
  match Universe.find? securities code with
  | some s => pure s
  | none => throw (.unknownSecurity code)

-----------------------------------------------------------------------------------------
-- Databases
-----------------------------------------------------------------------------------------

/-- An open database with the place of its file; one in memory has none. -/
structure Database where
  place : Option FilePlace
  store : DocumentStore
  isReadOnly : Bool

/-- Keeps what a database holds, which may not be possible. -/
def keep (database : Database) : Work Unit :=
  if database.isReadOnly then throw (.database .readOnly)
  else
    match database.place with
    | none => pure ()
    | some place => modify fun session =>
      { session with workspace := session.workspace.write place (.database database.store) }

/-- What the name of a file is followed by in the name of its journal. -/
def journalMark : String := "-journal"

/-- There can be a journal beside the file at a place. -/
def hasJournal (place : FilePlace) : Bool :=
  match place.getLast? with
  | some name => decide ((name ++ journalMark).utf8ByteSize ≤ FilePlace.longestName)
  | none => false

/-- Makes a file an empty database. The file is there also when that fails. -/
def newDatabase (address : DatabaseAddress) (place : FilePlace) : Work Database := do
  modify fun session =>
    { session with workspace := session.workspace.write place (.text "") }
  let database := ⟨some place, .empty, address.isReadOnly⟩
  if !address.isReadOnly && !hasJournal place then throw (.database .noJournal)
  keep database
  return database

/-- Opens the file of a database. A file that is not there, or empty, becomes one. -/
def openFile (path : String) (address : DatabaseAddress) : Work Database := do
  let workspace := (← get).workspace
  match workspace.settle address.name with
  | none => throw (.database (.notOpened path))
  | some place =>
    if workspace.isDirectory place then
      throw (.database (if address.access = .read then .notRead else .notOpened path))
    match workspace.content? place with
    | some (.database store) => return ⟨some place, store, address.isReadOnly⟩
    | some (.text "") => newDatabase address place
    | some _ => throw (.database .notDatabase)
    | none =>
      if address.access = .create ∧ workspace.isDirectory place.parent then
        newDatabase address place
      else throw (.database (.notOpened path))

/-- Opens the database of the settings. -/
def openDatabase (settings : Settings) : Work Database := do
  match settings.databasePath with
  | none => throw .noDatabase
  | some path =>
    let address ←
      Work.lift (fun cause => .database (.badAddress cause)) (DatabaseAddress.parse path)
    if address.isKept then openFile path address
    else
      let database := ⟨none, .empty, address.isReadOnly⟩
      keep database
      return database

/-- The stored strategy with an identifier, which must be there. -/
def findStored (database : Database) (id : String) : Work Strategy :=
  Work.lift .store (StrategyStore.find database.store id)

/-- Keeps a database with a strategy added. -/
def addStrategy (database : Database)
    (result : Except StoreProblem (Strategy × DocumentStore))
    : Work Strategy := do
  let (s, store) ← Work.lift .store result
  keep { database with store := store }
  say ("Saved strategy " ++ s.id.getD "")
  return s

/-- Where a strategy was taken from, if it is a stored one. -/
abbrev Origin := Option (String × Database)

/-- The strategy that is chosen. -/
def chosen (around : Surroundings) (settings : Settings)
    : StrategyChoice → Work (Strategy × Origin)
  | .draft => return (Strategy.draft around.now, none)
  | .text text => return (Phrase.merge text (Strategy.draft around.now), none)
  | .stored id => do
    let database ← openDatabase settings
    let s ← findStored database id
    return (s, some (id, database))

/-- Records a run of a stored strategy. -/
def record (around : Surroundings) (origin : Origin) (params result : Json.Value)
    : Work Unit := do
  match origin with
  | none => pure ()
  | some (id, database) =>
    let (run, store) ← Work.lift .store
      (StrategyStore.record database.store around.runId around.now id params result)
    keep { database with store := store }
    say ("Recorded run " ++ run.id)

end Work

end Screener
