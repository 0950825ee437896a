import Screener.Ini
import Screener.Settings
import Screener.Store.Address
import Screener.Store.Basic
import Screener.Universe.Table

/-!
What can make a command fail, with its message and the exit status of its family.
-/

namespace Screener

/-- Why a settings file cannot be read. -/
inductive SettingsFileProblem where
  | unreadable (cause : FileProblem)
  | malformed (cause : IniProblem)
deriving DecidableEq, Repr

def SettingsFileProblem.message : SettingsFileProblem → String
  | .unreadable cause => cause.message
  | .malformed cause => cause.message

/-- Why a database cannot be used. -/
inductive DatabaseProblem where
  | badAddress (cause : AddressProblem)
  | notOpened (path : String)
  | notRead
  | notDatabase
  | noJournal
  | readOnly
deriving DecidableEq, Repr

/-- The connection to the database fails, before anything is asked of it. -/
def DatabaseProblem.isUnconnected : DatabaseProblem → Bool
  | .badAddress _ | .notOpened _ | .notRead => true
  | .notDatabase | .noJournal | .readOnly => false

def DatabaseProblem.message : DatabaseProblem → String
  | .badAddress cause => cause.message
  | .notOpened path => "unable to open database file: " ++ path
  | .notRead => "disk I/O error"
  | .notDatabase => "file is not a database"
  | .noJournal => "unable to open database file"
  | .readOnly => "attempt to write a readonly database"

inductive Failure where
  | file (cause : FileProblem)
  | settingsText (cause : IniProblem)
  | settingsFile (path : String) (cause : SettingsFileProblem)
  | setting (problem : SettingProblem)
  | noDatabase
  | database (problem : DatabaseProblem)
  | store (problem : StoreProblem)
  | unknownSecurity (code : String)
  | table (problem : Universe.TableProblem)
  | document (problem : Json.Problem)
deriving DecidableEq

namespace Failure

/-- The families of failures. -/
inductive Family where
  | file
  | configuration
  | database
  | notFound
  | data
deriving DecidableEq, Repr

def Family.exitStatus : Family → Nat
  | .file => 1
  | .configuration => 2
  | .database => 3
  | .notFound => 4
  | .data => 6

def family : Failure → Family
  | .file _ => .file
  | .settingsText _ | .settingsFile _ _ | .setting _ | .noDatabase => .configuration
  | .database _ => .database
  | .store .unnamed => .configuration
  | .store (.unknownStrategy _) => .notFound
  | .store (.badDocument _) => .data
  | .store (.badTime _ _) => .database
  | .unknownSecurity _ => .notFound
  | .table _ | .document _ => .data

def exitStatus (failure : Failure) : Nat := failure.family.exitStatus

def message : Failure → String
  | .file cause => cause.message
  | .settingsText cause => "config parse error in <string>: " ++ cause.message
  | .settingsFile path cause =>
    "config parse error in " ++ path ++ ": couldn't read " ++ path ++ ": " ++ cause.message
  | .setting problem =>
    "invalid config value [" ++ problem.key.heading ++ "] " ++ problem.key.name ++ ": " ++
      problem.reason
  | .noDatabase => "missing config key [sqlite] path"
  | .database problem =>
    (if problem.isUnconnected then "database error: timed out waiting for connection: "
      else "database query error: ") ++ problem.message
  | .store .unnamed => "invalid input: strategy name is required"
  | .store (.unknownStrategy id) => "strategy not found: " ++ id
  | .store (.badDocument problem) => problem.message
  | .store (.badTime text cause) =>
    "database error: invalid timestamp " ++ Text.quoted text ++ ": " ++ cause.message
  | .unknownSecurity code => "security not found: " ++ code
  | .table problem => "csv error: " ++ problem.message
  | .document problem => problem.message

end Failure

end Screener
