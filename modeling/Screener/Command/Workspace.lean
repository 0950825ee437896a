import Screener.FileProblem
import Screener.Store.Documents

/-!
The files that commands work with, by their paths from one directory. At a place there may be
text, a database, data that is neither, or a directory.
-/

namespace Screener

inductive Content where
  | text (s : String)
  | database (store : DocumentStore)
  | data
  | directory
deriving DecidableEq, Repr

/-- The names that lead from the directory to a place, two dots for each step above it; a path
from the root starts with a slash.
-/
abbrev FilePlace := List String

/-- What is known of the places. -/
structure Workspace where
  files : List (FilePlace × Content)
deriving DecidableEq, Repr

namespace FilePlace

/-- The most bytes of a name. -/
def longestName : Nat := 255

/-- The most bytes of a path. -/
def longestPath : Nat := 4095

def root : FilePlace := ["/"]

/-- The place is the directory itself, one above it, or the root. -/
def isAbove (place : FilePlace) : Bool := place == root || place.all (· == "..")

/-- The place that a place lies in; the root lies in itself. -/
def parent (place : FilePlace) : FilePlace :=
  if place = root then root
  else if place.isAbove then place ++ [".."]
  else place.dropLast

/-- The name leads nowhere, or back. -/
def isDots (name : String) : Bool := name == "" || name == "." || name == ".."

/-- Follows one name of a path. -/
def follow (place : FilePlace) (name : String) : FilePlace :=
  if name = "" ∨ name = "." then place
  else if name = ".." then place.parent
  else place ++ [name]

/-- The names of a path. -/
def names (path : String) : List String := (path.toList.splitOn '/').map String.ofList

/-- Where a path starts. -/
def start (path : String) : FilePlace := if path.startsWith "/" then root else []

/-- The place that the names of a path lead to by themselves. -/
def ofPath (path : String) : FilePlace := (names path).foldl follow (start path)

end FilePlace

namespace Workspace

/-- What is at a place. -/
def content? (w : Workspace) (place : FilePlace) : Option Content :=
  (w.files.find? fun file => file.1 == place).map (·.2)

/-- The place is a directory, such as any that leads to a file. -/
def isDirectory (w : Workspace) (place : FilePlace) : Bool :=
  place.isAbove || w.content? place == some .directory ||
    w.files.any fun file => place.isPrefixOf file.1 && place != file.1

/-- Takes one step along a path. It has to start from a directory, wherever it leads. -/
def step (w : Workspace) (place : FilePlace) (name : String) : Except FileProblem FilePlace :=
  if w.isDirectory place then
    if FilePlace.longestName < name.utf8ByteSize then .error .tooLong
    else .ok (place.follow name)
  else if (w.content? place).isSome then .error .underFile
  else .error .missing

/-- The place that a path leads to step by step, where there may be nothing. -/
def find (w : Workspace) (path : String) : Except FileProblem FilePlace :=
  if path.contains '\x00' then .error .zeroInPath
  else if path = "" then .error .missing
  else if FilePlace.longestPath < path.utf8ByteSize then .error .tooLong
  else (FilePlace.names path).foldlM w.step (FilePlace.start path)

/-- The text of the file that a path leads to. -/
def read (w : Workspace) (path : String) : Except FileProblem String := do
  let place ← w.find path
  if w.isDirectory place then .error .directory
  else
    match w.content? place with
    | some (.text s) => .ok s
    | some _ => .error .notText
    | none => .error .missing

/-- Follows one name of a path that is made plain before it is used. Dots lead back over
anything; any other name may be missing where it is looked for, but it must not be too long
nor stand under a file.
-/
def settleName (w : Workspace) (place : FilePlace) (name : String) : Option FilePlace :=
  if FilePlace.isDots name then some (place.follow name)
  else
    match w.step place name with
    | .ok _ | .error .missing => some (place.follow name)
    | .error _ => none

/-- The place of a path that is made plain before it is used. -/
def settle (w : Workspace) (path : String) : Option FilePlace :=
  (FilePlace.names path).foldlM w.settleName (FilePlace.start path)

/-- The files with one written. -/
def write (w : Workspace) (place : FilePlace) (content : Content) : Workspace :=
  ⟨(place, content) :: w.files.filter fun file => file.1 != place⟩

/-- What every system has at its root: directories, and a file that stays empty. -/
def systemFiles : List (FilePlace × Content) :=
  (["/", "dev", "null"], .text "") ::
    ["bin", "etc", "home", "lib", "opt", "proc", "root", "sys", "tmp", "usr", "var"].map
      fun name => (["/", name], .directory)

/-- The files of given texts by their paths, on a system. -/
def ofTexts (texts : List (String × String)) : Workspace :=
  ⟨(texts.map fun (path, s) => (FilePlace.ofPath path, .text s)) ++ systemFiles⟩

end Workspace

end Screener
