/-!
Why a file cannot be read as text.
-/

namespace Screener

inductive FileProblem where
  | missing
  | directory
  | underFile
  | tooLong
  | zeroInPath
  | notText
deriving DecidableEq, Repr

def FileProblem.message : FileProblem → String
  | .missing => "No such file or directory (os error 2)"
  | .directory => "Is a directory (os error 21)"
  | .underFile => "Not a directory (os error 20)"
  | .tooLong => "File name too long (os error 36)"
  | .zeroInPath => "file name contained an unexpected NUL byte"
  | .notText => "stream did not contain valid UTF-8"

end Screener
