import Screener.Command.Execution
import Screener.Store.Text
import Std.Time.Format

/-!
The program: it reads the files that a command needs, runs the command on them, keeps the
database that it has changed, and prints what was said and answered.
-/

namespace Screener.Main

/-- What is at a path, if anything is. -/
def load (path : String) : IO (Option Content) := do
  try
    let text ← IO.FS.readFile path
    match DocumentStore.ofText? text with
    | some store => return some (.database store)
    | none => return some (.text text)
  catch
    | .noFileOrDirectory .. => return none
    | .inappropriateType .. => return some .directory
    | _ => return some .data

/-- The path of a place. -/
def pathOf : FilePlace → String
  | [] => "."
  | "/" :: names => "/" ++ String.intercalate "/" names
  | names => String.intercalate "/" names

/-- The workspace with what is at a place. -/
def look (workspace : Workspace) (place : FilePlace) : IO Workspace := do
  if (workspace.content? place).isSome then return workspace
  match ← load (pathOf place) with
  | some content => return workspace.write place content
  | none => return workspace

/-- The workspace with what is at each place on the way along a path. -/
def lookAlong (workspace : Workspace) (path : String) : IO Workspace := do
  let mut workspace := workspace
  let mut place := FilePlace.start path
  for name in FilePlace.names path do
    match workspace.settleName place name with
    | some next =>
      place := next
      workspace ← look workspace next
    | none => return workspace
  return workspace

/-- The workspace with what some paths lead to. -/
def survey (workspace : Workspace) (paths : List String) : IO Workspace :=
  paths.foldlM lookAlong workspace

/-- The files that a command reads before its settings are known. -/
def firstPaths (invocation : Invocation) : List String :=
  invocation.settings.toList ++
    match invocation.command with
    | .parse _ (some base) _ => [base]
    | _ => []

/-- The files that settings name. -/
def settingPaths (settings : Settings) : List String :=
  settings.csvPath.toList ++ settings.feedPath.toList ++
    match settings.databasePath.map DatabaseAddress.parse with
    | some (.ok address) => if address.isKept then [address.name] else []
    | _ => []

/-- The files of a command as they are. -/
def gather (invocation : Invocation) : IO Workspace := do
  let workspace ← survey ⟨[]⟩ (firstPaths invocation)
  match ((Work.loadSettings invocation.settings).run.run ⟨workspace, []⟩).1 with
  | .ok settings => survey workspace (settingPaths settings)
  | .error _ => return workspace

/-- Keeps the databases that differ from what they were. -/
def keepChanges (before after : Workspace) : IO Unit := do
  for (place, content) in after.files do
    if let .database store := content then
      if before.content? place != some content then
        IO.FS.writeFile (pathOf place) store.toText

/-- An identifier of sixteen digits that is not in use, under a kind of record. -/
def freshId (kind : String) : IO String := do
  let n ← IO.rand 0 (UInt64.size - 1)
  let digits := Nat.toDigits 16 n
  return kind ++ "_" ++ String.ofList (List.replicate (16 - digits.length) '0' ++ digits)

/-- The current time. -/
def currentTime : IO Timestamp := do
  let now := (← Std.Time.Timestamp.now).val
  match Timestamp.ofSeconds? now.second.val.toNat now.nano.val.toNat with
  | some t => return t
  | none => throw (IO.userError "the clock shows no time")

/-- The current day of trade, where the program runs. -/
def tradeDate : IO String := do
  let day ← Std.Time.PlainDate.now
  return String.ofList
    (Timestamp.digits 4 day.year.toInt.toNat ++ Timestamp.digits 2 day.month.val.toNat ++
      Timestamp.digits 2 day.day.val.toNat)

/-- Writes an answer, and tells whether the output has taken it. -/
def isWritten (text : String) : IO Bool := do
  try
    IO.print text
    (← IO.getStdout).flush
    return true
  catch _ => return false

/-- Runs a command on the files as they are. -/
def perform (invocation : Invocation) : IO UInt32 := do
  let around : Surroundings :=
    { now := ← currentTime, tradeDate := ← tradeDate
      strategyId := ← freshId "stg", runId := ← freshId "run" }
  let before ← gather invocation
  let outcome := invocation.run around .unbounded before
  keepChanges before outcome.workspace
  for line in outcome.said do IO.eprintln line
  if let some reply := outcome.reply then
    if !(← isWritten reply.text) then return UInt32.ofNat Outcome.unwritten
  return UInt32.ofNat outcome.status

end Screener.Main

open Screener in
def main (words : List String) : IO UInt32 := do
  match Invocation.parse words with
  | .error problem =>
    IO.eprintln problem.message
    return UInt32.ofNat problem.exitStatus
  | .ok invocation => Main.perform invocation
