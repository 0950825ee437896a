import Screener.Command.Work
import Screener.Market.Report
import Screener.Store.Report
import Screener.Universe.Report

/-!
What commands do, and how they end: with an exit status, an answer, and the files as they are
then.
-/

namespace Screener

open Work

/-- What a command answers. -/
inductive Reply where
  | report (text : String)
  | document (v : Json.Value)

/-- The text of an answer. -/
def Reply.text : Reply → String
  | .report text => text
  | .document v => v.renderLines ++ "\n"

namespace StoreCommand

def work (around : Surroundings) (settings : Settings) (command : StoreCommand)
    : Work Reply := do
  let database ← openDatabase settings
  let store := database.store
  match command with
  | .save text name =>
    let result := StrategyStore.save store around.strategyId around.now text name
    return .report (← addStrategy database result).card
  | .create form =>
    let result := store.create around.strategyId around.now (form.strategy around.now)
    return .report (← addStrategy database result).card
  | .list =>
    let strategies ← Work.lift .store store.list
    if strategies.isEmpty then say "No strategies stored"
    return .report (String.join (strategies.map Strategy.line))
  | .card id => return .report (← findStored database id).card
  | .runs id limit =>
    let _ ← findStored database id
    return .report (Run.report (← Work.lift .store (store.runs id limit)))

end StoreCommand

namespace Command

/-- The work of the command that shows the market. -/
def showMarket (settings : Settings) (seed : Option UInt32) (asDocument : Bool)
    : Work Reply := do
  let resolved ← resolveMarket settings seed
  return if asDocument then .document resolved.document else .report resolved.report

/-- The work of the command that reads a strategy from text. -/
def readText (around : Surroundings) (text : String) (base : Option String)
    (asDocument : Bool)
    : Work Reply := do
  let base ←
    match base with
    | none => pure (Strategy.draft around.now)
    | some path => do
      let document ← Work.lift .file (← Work.readText path)
      Work.lift .document (Strategy.parse (some around.now) document)
  let s := Phrase.merge text base
  if asDocument then return .document s.document
  let names := Phrase.matchedRules text
  if names.isEmpty then say "No rule fragments recognised; draft unchanged"
  else say ("Recognised: " ++ String.intercalate ", " names)
  return .report s.card

/-- The work of the command that screens the universe. -/
def screenAll (around : Surroundings) (settings : Settings) (choice : StrategyChoice)
    (asDocument : Bool)
    : Work Reply := do
  let (s, origin) ← chosen around settings choice
  let screening := Screening.of s (← loadSecurities settings) around.tradeDate
  record around origin screening.params screening.result
  if asDocument then
    return .document (.object
      [("strategy", s.document), ("total", .ofNat screening.total),
        ("matches", .list (screening.selected.map Security.document))])
  say ("Strategy: " ++ s.summary)
  return .report
    ("命中 " ++ Nat.repr screening.selected.length ++ " / " ++ Nat.repr screening.total ++
      "\n" ++ Universe.report screening.selected)

/-- The work of the command that simulates a timeline. -/
def simulateOne (around : Surroundings) (settings : Settings) (request : SimulationRequest)
    (choice : StrategyChoice) (asDocument : Bool)
    : Work Reply := do
  let securities ← loadSecurities settings
  let (s, origin) ← chosen around settings choice
  let resolved ← resolveMarket settings request.seed
  let simulation ← Work.lift id (Simulation.of securities s resolved request settings)
  record around origin simulation.params simulation.result
  if asDocument then
    return .document (.object
      [("strategy", s.document), ("params", simulation.params),
        ("events", simulation.eventDocument)])
  say ("Simulating " ++ simulation.security.code ++ " " ++ simulation.security.name ++
    " over " ++ Nat.repr simulation.days.toNat ++ " days with " ++ s.seedName)
  return .report (Timeline.report simulation.events)

/-- The work of the command that searches the universe. -/
def searchAll (settings : Settings) (query : String) (watchlist : List String)
    : Work Reply := do
  let found := Universe.search (← loadSecurities settings) query
  if found.isEmpty then say ("No securities match " ++ Text.quoted query)
  return .report (Universe.report (Universe.watchedFirst watchlist found))

/-- The work of the command that shows a security. -/
def showSecurity (settings : Settings) (code : String) (seed : Option UInt32)
    : Work Reply := do
  let s ← findSecurity (← loadSecurities settings) code
  let resolved ← resolveMarket settings seed
  return .report (s.report resolved.snapshot)

def work (around : Surroundings) (settings : Settings) : Command → Work Reply
  | .market seed asDocument => showMarket settings seed asDocument
  | .parse text base asDocument => readText around text base asDocument
  | .screen choice asDocument => screenAll around settings choice asDocument
  | .simulate code choice days seed asDocument =>
    simulateOne around settings ⟨code, days, seed⟩ choice asDocument
  | .stocks query watchlist => searchAll settings query watchlist
  | .stock code seed => showSecurity settings code seed
  | .store command => command.work around settings

end Command

/-- What answers are written to: it takes all of them, or no more than some bytes. -/
inductive Output where
  | unbounded
  | bounded (bytes : Nat)

/-- An output takes the whole of a text. -/
def Output.takes : Output → String → Bool
  | .unbounded, _ => true
  | .bounded bytes, text => decide (text.utf8ByteSize ≤ bytes)

/-- How a command has ended: its exit status, its answer if that was written, what has been
said, and the files as they are then.
-/
structure Outcome where
  status : Nat
  reply : Option Reply
  said : List String
  workspace : Workspace

/-- The exit status of a command whose answer could not be written. -/
def Outcome.unwritten : Nat := 101

/-- Runs a command on files. A failure is said last. An answer is written when all else is
done: where the output does not take it, what the command has kept stays kept.
-/
def Invocation.run (around : Surroundings) (output : Output) (invocation : Invocation)
    (workspace : Workspace)
    : Outcome :=
  let work : Work Reply := do
    let settings ← Work.loadSettings invocation.settings
    invocation.command.work around settings
  match (work.run).run ⟨workspace, []⟩ with
  | (.ok reply, session) =>
    if output.takes reply.text then ⟨0, some reply, session.said, session.workspace⟩
    else ⟨Outcome.unwritten, none, session.said, session.workspace⟩
  | (.error failure, session) =>
    ⟨failure.exitStatus, none, session.said ++ ["error: " ++ failure.message],
      session.workspace⟩

end Screener
