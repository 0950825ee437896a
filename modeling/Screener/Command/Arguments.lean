import Screener.Command.Usage
import Screener.Decimal.Integer

/-!
Reading a command line by a description of what each command takes. Arguments are taken from
the left; an option is settled when the next one comes or its level ends, and the commands
below a level are settled before it.
-/

namespace Screener.Arguments

-----------------------------------------------------------------------------------------
-- Descriptions
-----------------------------------------------------------------------------------------

/-- The kinds of single values. -/
inductive Kind where
  | text
  | path
  | word
  | natural
deriving DecidableEq, Repr

/-- What an argument takes: nothing, one value, or a list that may be continued. -/
inductive Takes where
  | nothing
  | one (kind : Kind)
  | list
deriving DecidableEq, Repr

/-- An option or a positional argument. The value of some options may start with a hyphen.
-/
structure Argument where
  name : String
  takes : Takes
  short : Option Char := none
  hyphens : Bool := false
  required : Bool := false
deriving DecidableEq, Repr

/-- A value that has been given for an argument. -/
inductive Given where
  | set
  | text (s : String)
  | word (n : UInt32)
  | natural (n : Nat)
  | texts (ss : List String)
deriving DecidableEq, Repr

/-- The values given at a level, by the names of their arguments. -/
abbrev Values := List (String × Given)

/-- The arguments of a level. Of two options that exclude each other only one may be given.
-/
structure Shape where
  options : List Argument
  positionals : List Argument := []
  exclusive : List (String × String) := []
deriving DecidableEq, Repr

/-- A level of a command line: a choice of commands, or a command with its arguments. -/
inductive Level (α : Type) where
  | group (commands : List (String × Level α))
  | command (shape : Shape) (make : Values → α)

-----------------------------------------------------------------------------------------
-- Values
-----------------------------------------------------------------------------------------

namespace Values

/-- The value given for an argument. -/
def get? (values : Values) (name : String) : Option Given :=
  (values.find? fun entry => entry.1 == name).map (·.2)

def isSet (values : Values) (name : String) : Bool := (values.get? name).isSome

def text? (values : Values) (name : String) : Option String :=
  match values.get? name with
  | some (.text s) => some s
  | _ => none

/-- The text given for an argument that is required or has the empty text as its default. -/
def text (values : Values) (name : String) : String := (values.text? name).getD ""

def word? (values : Values) (name : String) : Option UInt32 :=
  match values.get? name with
  | some (.word n) => some n
  | _ => none

def natural? (values : Values) (name : String) : Option Nat :=
  match values.get? name with
  | some (.natural n) => some n
  | _ => none

def texts (values : Values) (name : String) : List String :=
  match values.get? name with
  | some (.texts ss) => ss
  | _ => []

end Values

/-- The value of a kind that a text stands for. -/
def Kind.read (kind : Kind) (name text : String) : Except UsageProblem Given :=
  match kind with
  | .text => .ok (.text text)
  | .path => if text = "" then .error (.missingValue name) else .ok (.text text)
  | .word =>
    match Decimal.integer64? text.toList with
    | some n =>
      if 0 ≤ n ∧ n.toNat < UInt32.size then .ok (.word (UInt32.ofNat n.toNat))
      else .error (.badValue name text)
    | none => .error (.badValue name text)
  | .natural =>
    match Decimal.natural64? text.toList with
    | some n => .ok (.natural n)
    | none => .error (.badValue name text)

/-- The values with one added for an argument. Only a list may be given again. -/
def Argument.give (argument : Argument) (text : String) (values : Values)
    : Except UsageProblem Values :=
  match argument.takes with
  | .list =>
    let parts := (text.toList.splitOn ',').map String.ofList
    .ok ((argument.name, .texts (values.texts argument.name ++ parts)) :: values)
  | .one kind =>
    if values.isSet argument.name then .error (.conflict argument.name argument.name)
    else (kind.read argument.name text).map fun given => (argument.name, given) :: values
  | .nothing =>
    if values.isSet argument.name then .error (.conflict argument.name argument.name)
    else .ok ((argument.name, .set) :: values)

-----------------------------------------------------------------------------------------
-- Reading
-----------------------------------------------------------------------------------------

/-- Where reading stands at a level: the values so far, the argument that is not settled yet
with its value if that has come, the number of positional arguments so far, and whether
options have been ended by two hyphens.
-/
structure Progress where
  values : Values
  open? : Option (Argument × Option String)
  placed : Nat
  ended : Bool

namespace Progress

def start : Progress := ⟨[], none, 0, false⟩

/-- The option that waits for its value. -/
def waiting? (p : Progress) : Option Argument :=
  match p.open? with
  | some (argument, none) => some argument
  | _ => none

/-- The values with the open argument settled. -/
def settle (p : Progress) : Except UsageProblem Progress :=
  match p.open? with
  | none => .ok p
  | some (argument, none) => .error (.missingValue argument.name)
  | some (argument, some text) =>
    (argument.give text p.values).map fun values => { p with values := values, open? := none }

/-- An option met with a value attached to it, if there is one. -/
def meet (p : Progress) (argument : Argument) (attached : Option String)
    : Except UsageProblem Progress := do
  let p ← p.settle
  match argument.takes, attached with
  | .nothing, _ => return { p with values := ← argument.give "" p.values }
  | _, some text => return { p with values := ← argument.give text p.values }
  | _, none => return { p with open? := some (argument, none) }

/-- The value that an open option waits for. -/
def value (p : Progress) (argument : Argument) (text : String) : Progress :=
  { p with open? := some (argument, some text) }

/-- A positional argument. -/
def place (p : Progress) (argument : Argument) (text : String) : Except UsageProblem Progress :=
  p.settle.map fun p =>
    { p with open? := some (argument, some text), placed := p.placed + 1 }

/-- Help, which is given when all before it has been settled. -/
def help (p : Progress) : Except UsageProblem Progress :=
  p.settle >>= fun _ => .error .helpAsked

end Progress

/-- An option by its name, with what is attached to it after an equals sign. -/
def readLong (options : List Argument) (p : Progress) (text : List Char)
    : Except UsageProblem Progress :=
  let name := String.ofList (text.takeWhile (· != '='))
  let attached :=
    match text.dropWhile (· != '=') with
    | [] => none
    | _ :: value => some (String.ofList value)
  if name = "help" then
    if attached.isSome then .error (.needlessValue name) else p.help
  else
    match options.find? fun option => option.name == name with
    | none => .error (.unknownArgument name)
    | some option =>
      if option.takes = .nothing ∧ attached.isSome then .error (.needlessValue name)
      else p.meet option attached

/-- Options by their letters, of which the last may have a value attached to it. -/
def readShort (options : List Argument) (p : Progress)
    : List Char → Except UsageProblem Progress
  | [] => .ok p
  | letter :: rest =>
    if letter = 'h' then p.help
    else
      match options.find? fun option => option.short == some letter with
      | none => .error (.unknownArgument (String.ofList [letter]))
      | some option =>
        if option.takes = .nothing then
          p.meet option none >>= fun p => readShort options p rest
        else
          p.meet option <|
            match rest with
            | [] => none
            | '=' :: value => some (String.ofList value)
            | value => some (String.ofList value)

/-- The option that every level takes. -/
def configuration : Argument := { name := "config", takes := .one .path, short := some 'c' }

namespace Level

variable {α : Type}

/-- The arguments of a level. -/
def shape : Level α → Shape
  | .group _ => { options := [configuration] }
  | .command shape _ => { shape with options := configuration :: shape.options }

/-- The level of a command. -/
def child? (level : Level α) (name : String) : Option (Level α) :=
  match level with
  | .group commands => (commands.find? fun entry => entry.1 == name).map (·.2)
  | .command _ _ => none

/-- The level offers the command that gives help. -/
def offersHelp : Level α → Bool
  | .group _ => true
  | .command _ _ => false

/-- Help on the command that names lead to. No command lies below that for help itself. -/
def helpOn (level : Level α) : List String → UsageProblem
  | [] => .helpAsked
  | name :: names =>
    match level.child? name with
    | some child => child.helpOn names
    | none =>
      match names with
      | [] => if level.offersHelp && name == "help" then .helpAsked else .unknownCommand name
      | other :: _ =>
        .unknownCommand (if level.offersHelp && name == "help" then other else name)

/-- An argument in a place of its own, or the refusal of one too many. -/
def readPlaced (level : Level α) (p : Progress) (text : String)
    : Except UsageProblem Progress :=
  match level.shape.positionals[p.placed]? with
  | some argument => p.place argument text
  | none =>
    if !level.offersHelp then .error (.unknownArgument text)
    else if p.ended && ((level.child? text).isSome || text == "help") then
      .error (.unknownArgument text)
    else .error (.unknownCommand text)

/-- Reads one argument that names no command. -/
def readArgument (level : Level α) (p : Progress) (text : String)
    : Except UsageProblem Progress :=
  if p.ended then level.readPlaced p text
  else
    match p.waiting?, text.toList with
    | some option, chars =>
      if option.hyphens then .ok (p.value option text)
      else
        match chars with
        | ['-', '-'] => .ok { p with ended := true }
        | '-' :: '-' :: long => readLong level.shape.options p long
        | '-' :: letter :: letters => readShort level.shape.options p (letter :: letters)
        | _ => .ok (p.value option text)
    | none, ['-', '-'] => .ok { p with ended := true }
    | none, '-' :: '-' :: long => readLong level.shape.options p long
    | none, '-' :: letter :: letters => readShort level.shape.options p (letter :: letters)
    | none, _ => level.readPlaced p text

/-- The values of a command, when its line has ended. -/
def checked (shape : Shape) (values : Values) : Except UsageProblem Values :=
  match shape.exclusive.find? fun pair => values.isSet pair.1 && values.isSet pair.2 with
  | some pair => .error (.conflict pair.1 pair.2)
  | none =>
    match (shape.options ++ shape.positionals).find? fun argument =>
        argument.required && !values.isSet argument.name with
    | some argument => .error (.missingArgument argument.name)
    | none => .ok values

/-- The end of a line at a level. -/
def finish (level : Level α) (p : Progress) : Except UsageProblem (Option String × α) := do
  let p ← p.settle
  match level with
  | .group _ => .error (if p.values.isEmpty then .nothingGiven else .missingCommand)
  | .command shape make =>
    let values ← checked shape p.values
    return (values.text? configuration.name, make values)

/-- The command of a line with the configuration that it names; the deepest one counts. -/
def read (level : Level α) (p : Progress)
    : List String → Except UsageProblem (Option String × α)
  | [] => level.finish p
  | text :: rest =>
    if p.ended || p.waiting?.isSome then
      level.readArgument p text >>= fun p => level.read p rest
    else
      match level.child? text with
      | some child => do
        let (path, chosen) ← child.read .start rest
        let p ← p.settle
        return (path <|> p.values.text? configuration.name, chosen)
      | none =>
        if level.offersHelp && text == "help" then .error (level.helpOn rest)
        else level.readArgument p text >>= fun p => level.read p rest

end Level

end Screener.Arguments
