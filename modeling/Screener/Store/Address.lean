import Screener.Decimal.Basic
import Screener.Text.Hexadecimal
import Screener.Text.Substring
import Screener.Text.Utf8

/-!
Addresses of databases. An address is the name of a file, unless it starts with `file:`: then
it may hold escaped bytes, and options may follow the name.
-/

namespace Screener

/-- What opening a database may do: add a file, change one, or only read it; or the database
is in memory.
-/
inductive Access where
  | create
  | change
  | read
  | memory
deriving DecidableEq, Repr

namespace Access

/-- The words that options use. -/
def words : List (String × Access) :=
  [("ro", .read), ("rw", .change), ("rwc", .create), ("memory", .memory)]

/-- A later option may not ask for more than an earlier one has left. -/
def allows : Access → Access → Bool
  | .read, .change | .read, .create | .change, .create => false
  | _, _ => true

end Access

structure DatabaseAddress where
  name : String
  access : Access
  /-- Nothing changes the file while it is open. -/
  isFixed : Bool
  /-- What keeps the file, if the address says it. -/
  keeper : Option String
deriving DecidableEq, Repr

/-- What is wrong with an address. -/
inductive AddressProblem where
  | zeroByte (position : Nat)
  | foreignHost (host : String)
  | unknownAccess (word : String)
  | refusedAccess (word : String)
  | unknownCache (word : String)
  | unknownKeeper (name : String)
deriving DecidableEq, Repr

def AddressProblem.message : AddressProblem → String
  | .zeroByte position =>
    "nul byte found in provided data at position: " ++ Nat.repr position
  | .foreignHost host => "invalid uri authority: " ++ host
  | .unknownAccess word => "no such access mode: " ++ word
  | .refusedAccess word => "access mode not allowed: " ++ word
  | .unknownCache word => "no such cache mode: " ++ word
  | .unknownKeeper name => "no such vfs: " ++ name

namespace DatabaseAddress

/-- The name that stands for a database in memory. -/
def memoryName : String := ":memory:"

/-- The keeper that has no files. -/
def memoryKeeper : String := "memdb"

/-- The names of the keepers. -/
def keepers : List String :=
  ["unix", "unix-none", "unix-dotfile", "unix-excl", memoryKeeper]

/-- The database is in a file that outlasts its use. -/
def isKept (address : DatabaseAddress) : Bool :=
  address.access != .memory && address.name != "" && address.name != memoryName &&
    address.keeper != some memoryKeeper

/-- The database cannot be changed. -/
def isReadOnly (address : DatabaseAddress) : Bool :=
  address.access == .read || (address.isKept && address.isFixed)

-----------------------------------------------------------------------------------------
-- Parts
-----------------------------------------------------------------------------------------

/-- The bytes of a part of an address. Two digits after a percent sign are a byte by its
number; what follows a zero byte does not count.
-/
def unescaped : List Char → List UInt8
  | [] => []
  | '%' :: a :: b :: rest =>
    match Text.hexValue? a, Text.hexValue? b with
    | some high, some low =>
      if high = 0 ∧ low = 0 then [] else UInt8.ofNat (16 * high + low) :: unescaped rest
    | _, _ => String.utf8EncodeChar '%' ++ unescaped (a :: b :: rest)
  | c :: rest => String.utf8EncodeChar c ++ unescaped rest

/-- The text of a part of an address; bytes that are no text leave it as it is written. -/
def part (chars : List Char) : String :=
  match Text.decode 0 (unescaped chars) with
  | .ok text => String.ofList text
  | .error _ => String.ofList chars

/-- An address without its host, which is this one or left out. -/
def afterHost : List Char → Except AddressProblem (List Char)
  | '/' :: '/' :: rest =>
    let host := String.ofList (rest.takeWhile (· != '/'))
    if host = "" ∨ host = "localhost" then .ok (rest.dropWhile (· != '/'))
    else .error (.foreignHost host)
  | rest => .ok rest

-----------------------------------------------------------------------------------------
-- Options
-----------------------------------------------------------------------------------------

/-- An option with its value. -/
def option (chars : List Char) : String × String :=
  (part (chars.takeWhile (· != '=')), part ((chars.dropWhile (· != '=')).drop 1))

/-- The options after the question mark of an address; one without a name does not count. -/
def options (chars : List Char) : List (String × String) :=
  match chars.dropWhile (· != '?') with
  | [] => []
  | _ :: rest => ((rest.splitOn '&').map option).filter fun entry => entry.1 != ""

/-- A value says yes by a number whose last byte is not zero, or by a word. -/
def saysYes (value : String) : Bool :=
  match Decimal.spanDigits value.toList with
  | ([], _) => ["on", "yes", "true"].contains (String.ofList (value.toList.map Char.toLower))
  | (digits, _) =>
    let n := Decimal.digitsValue digits
    decide (n ≤ 2147483647) && n % 256 != 0

/-- An address with one more option. -/
def withOption (address : DatabaseAddress)
    : String × String → Except AddressProblem DatabaseAddress
  | ("mode", word) =>
    match Access.words.lookup word with
    | none => .error (.unknownAccess word)
    | some access =>
      if address.access.allows access then .ok { address with access }
      else .error (.refusedAccess word)
  | ("cache", word) =>
    if word = "shared" ∨ word = "private" then .ok address else .error (.unknownCache word)
  | ("vfs", name) => .ok { address with keeper := some name }
  | _ => .ok address

/-- An address that is a name alone. -/
def ofName (name : String) : DatabaseAddress := ⟨name, .create, false, none⟩

/-- The address that stands after `file:`. Of two equal options the later counts, but the
first for a fixed file.
-/
def ofParts (chars : List Char) : Except AddressProblem DatabaseAddress := do
  let chars := (← afterHost chars).takeWhile (· != '#')
  let options := options chars
  let name := part (chars.takeWhile (· != '?'))
  let address ← options.foldlM withOption (ofName name)
  match address.keeper with
  | some keeper =>
    if keepers.contains keeper then pure () else .error (.unknownKeeper keeper)
  | none => pure ()
  return { address with isFixed := ((options.lookup "immutable").map saysYes).getD false }

/-- The address that a text writes, which has no zero byte. -/
def parse (text : String) : Except AddressProblem DatabaseAddress :=
  let beforeZero := text.toList.takeWhile (· != '\x00')
  if beforeZero.length < text.length then
    .error (.zeroByte (String.ofList beforeZero).utf8ByteSize)
  else
    match Text.afterWord? "file:".toList text.toList with
    | some chars => ofParts chars
    | none => .ok (ofName text)

end DatabaseAddress

end Screener
