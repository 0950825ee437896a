/-!
What can be wrong with a command line, and how it asks for help.
-/

namespace Screener

inductive UsageProblem where
  | unknownArgument (argument : String)
  | unknownCommand (name : String)
  | missingValue (option : String)
  | badValue (option value : String)
  | needlessValue (option : String)
  | conflict (first second : String)
  | missingArgument (name : String)
  | missingCommand
  | nothingGiven
  | helpAsked
deriving DecidableEq, Repr

namespace UsageProblem

/-- Asking for help is no error. -/
def exitStatus : UsageProblem → Nat
  | .helpAsked => 0
  | _ => 2

def message : UsageProblem → String
  | .unknownArgument argument => "unexpected argument " ++ argument
  | .unknownCommand name => "unknown command " ++ name
  | .missingValue option => "a value is required for " ++ option
  | .badValue option value => "invalid value " ++ value ++ " for " ++ option
  | .needlessValue option => "no value is expected for " ++ option
  | .conflict first second => first ++ " cannot be used with " ++ second
  | .missingArgument name => "missing argument " ++ name
  | .missingCommand => "missing command"
  | .nothingGiven => "nothing given"
  | .helpAsked => "help"

end UsageProblem

end Screener
