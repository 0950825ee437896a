import Screener.Command.Arguments
import Screener.Strategy.Form

/-!
The commands of the program and their arguments.
-/

namespace Screener

/-- The strategy that a command works with: an empty draft, one from free text, or a stored
one.
-/
inductive StrategyChoice where
  | draft
  | text (text : String)
  | stored (id : String)
deriving DecidableEq, Repr

/-- Commands on stored strategies. -/
inductive StoreCommand where
  | save (text : String) (name : Option String)
  | create (form : Form)
  | list
  | card (id : String)
  | runs (id : String) (limit : Nat)
deriving DecidableEq, Repr

inductive Command where
  | market (seed : Option UInt32) (asDocument : Bool)
  | parse (text : String) (base : Option String) (asDocument : Bool)
  | screen (choice : StrategyChoice) (asDocument : Bool)
  | simulate (code : String) (choice : StrategyChoice) (days seed : Option UInt32)
      (asDocument : Bool)
  | stocks (query : String) (watchlist : List String)
  | stock (code : String) (seed : Option UInt32)
  | store (command : StoreCommand)
deriving DecidableEq, Repr

/-- A command line that has been read: the settings file, if one is named, and the command. -/
structure Invocation where
  settings : Option String
  command : Command
deriving DecidableEq, Repr

namespace Command

open Arguments

-----------------------------------------------------------------------------------------
-- Arguments
-----------------------------------------------------------------------------------------

private def textOption (name : String) : Argument := { name, takes := .one .text }

private def wordOption (name : String) : Argument := { name, takes := .one .word }

/-- An option that asks for a document. -/
private def documentOption : Argument := { name := "json", takes := .nothing }

/-- An option whose value may be a number with a sign. -/
private def numberOption (name : String) : Argument :=
  { name, takes := .one .text, hyphens := true }

private def positional (name : String) : Argument :=
  { name, takes := .one .text, required := true }

/-- A command with options and at most one argument in a place of its own. -/
private def leaf {α : Type} (options positionals : List Argument) (make : Values → α)
    : Level α :=
  .command { options, positionals } make

/-- The strategy that the options of a command choose; they exclude each other. -/
def choiceOf (values : Values) : StrategyChoice :=
  match values.text? "strategy", values.text? "text" with
  | some id, _ => .stored id
  | none, some text => .text text
  | none, none => .draft

/-- The two options that choose a strategy. -/
private def choiceOptions : List Argument := [textOption "text", textOption "strategy"]

/-- The form that the options of a command fill in. -/
def formOf (values : Values) : Form where
  name := values.text "name"
  peMax := values.text "pe-max"
  mcapMaxYi := values.text "mcap-max"
  turnMinPct := values.text "turn-min"
  tech := values.text "tech"
  note := values.text "note"
  takeProfitPct := values.text "take-profit"
  stopLossPct := values.text "stop-loss"
  exitPattern := values.text "exit"

/-- The number of runs that are listed where none is given. -/
def defaultLimit : Nat := 20

/-- The commands on stored strategies. -/
def storeLevel : Level Command :=
  .group
    [("save", leaf [textOption "name"] [positional "text"] fun values =>
        .store (.save (values.text "text") (values.text? "name"))),
      ("create", leaf
        [{ textOption "name" with required := true }, numberOption "pe-max",
          numberOption "mcap-max", numberOption "turn-min", textOption "tech",
          numberOption "take-profit", numberOption "stop-loss", textOption "exit",
          textOption "note"] [] fun values => .store (.create (formOf values))),
      ("list", leaf [] [] fun _ => .store .list),
      ("show", leaf [] [positional "id"] fun values => .store (.card (values.text "id"))),
      ("runs", leaf [{ name := "limit", takes := .one .natural }] [positional "id"] fun values =>
        .store (.runs (values.text "id") ((values.natural? "limit").getD defaultLimit)))]

/-- All commands. -/
def rootLevel : Level Command :=
  .group
    [("market", leaf [wordOption "seed", documentOption] [] fun values =>
        .market (values.word? "seed") (values.isSet "json")),
      ("parse", leaf [{ name := "base", takes := .one .path }, documentOption]
        [positional "text"] fun values =>
          .parse (values.text "text") (values.text? "base") (values.isSet "json")),
      ("screen", .command
        { options := documentOption :: choiceOptions, exclusive := [("text", "strategy")] }
        fun values => .screen (choiceOf values) (values.isSet "json")),
      ("simulate", .command
        { options :=
            [{ textOption "code" with required := true }, wordOption "days", wordOption "seed",
              documentOption] ++ choiceOptions
          exclusive := [("text", "strategy")] }
        fun values =>
          .simulate (values.text "code") (choiceOf values) (values.word? "days")
            (values.word? "seed") (values.isSet "json")),
      ("stocks", leaf [{ name := "watch", takes := .list }]
        [{ name := "query", takes := .one .text }] fun values =>
          .stocks (values.text "query") (values.texts "watch")),
      ("stock", leaf [wordOption "seed"] [positional "code"] fun values =>
        .stock (values.text "code") (values.word? "seed")),
      ("strategy", storeLevel)]

end Command

/-- The invocation that the words of a command line stand for. -/
def Invocation.parse (words : List String) : Except UsageProblem Invocation :=
  (Command.rootLevel.read .start words).map fun (settings, command) => ⟨settings, command⟩

end Screener
