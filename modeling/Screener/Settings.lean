import Screener.Decimal.Integer
import Screener.Ini
import Screener.Market.Invented
import Screener.Timeline.Basic

/-!
Settings, from a configuration of seven keys that may each be left out. What is configured
has to make sense: the first key that does not is reported.
-/

namespace Screener

/-- The keys of a configuration, in the order in which they are checked. -/
inductive SettingKey where
  | seed
  | feedTimeout
  | days
  | poolSize
  | feedPath
  | csvPath
  | databasePath
deriving DecidableEq, Repr

namespace SettingKey

/-- The heading that a key stands under. -/
def heading : SettingKey → String
  | .seed | .feedTimeout | .feedPath => "market"
  | .days => "simulation"
  | .csvPath => "universe"
  | .poolSize | .databasePath => "sqlite"

def name : SettingKey → String
  | .seed => "seed"
  | .feedTimeout => "feed_timeout_secs"
  | .days => "days"
  | .poolSize => "pool_size"
  | .feedPath => "feed_path"
  | .csvPath => "csv_path"
  | .databasePath => "path"

end SettingKey

/-- What is wrong with a configured value. -/
inductive SettingProblem where
  | notInteger (key : SettingKey)
  | seedOutOfRange
  | timeoutNotPositive
  | poolTooSmall
  | blankPath (key : SettingKey)
deriving DecidableEq, Repr

namespace SettingProblem

/-- The key that is wrong. -/
def key : SettingProblem → SettingKey
  | .notInteger key | .blankPath key => key
  | .seedOutOfRange => .seed
  | .timeoutNotPositive => .feedTimeout
  | .poolTooSmall => .poolSize

def reason : SettingProblem → String
  | .notInteger key => key.name ++ " must be an integer"
  | .seedOutOfRange => "seed must be between 0 and 4294967295"
  | .timeoutNotPositive => "feed_timeout_secs must be positive"
  | .poolTooSmall => "pool_size must be at least 1"
  | .blankPath key => key.name ++ " must not be empty"

end SettingProblem

structure Settings where
  seed : UInt32
  feedPath : Option String
  feedTimeout : Nat
  days : UInt32
  csvPath : Option String
  databasePath : Option String
  poolSize : UInt32
deriving DecidableEq, Repr

namespace Settings

/-- The settings where nothing is configured. -/
def standard : Settings where
  seed := Market.defaultSeed
  feedPath := none
  feedTimeout := 12
  days := Timeline.defaultWindow
  csvPath := none
  databasePath := none
  poolSize := 4

/-- The configured text of a key, if any. -/
abbrev Lookup := SettingKey → Option String

/-- The integer configured for a key; a blank text counts as none. -/
def integer (lookup : Lookup) (key : SettingKey) : Except SettingProblem (Option Int) :=
  match (lookup key).map fun text => Text.trim text.toList with
  | none | some [] => .ok none
  | some text =>
    match Decimal.integer64? text with
    | some value => .ok (some value)
    | none => .error (.notInteger key)

/-- The value configured for a key, which has to satisfy a condition. -/
def checked (lookup : Lookup) (key : SettingKey) (holds : Int → Bool)
    (problem : SettingProblem)
    : Except SettingProblem (Option Int) := do
  match ← integer lookup key with
  | some value => if holds value then .ok (some value) else .error problem
  | none => .ok none

/-- The path configured for a key, which must not be blank. -/
def path (lookup : Lookup) (key : SettingKey) : Except SettingProblem (Option String) :=
  match (lookup key).map Text.trimmed with
  | none => .ok none
  | some "" => .error (.blankPath key)
  | some text => .ok (some text)

/-- The window of days that an integer asks for. -/
def windowOf (days : Int) : UInt32 :=
  Timeline.window (UInt32.ofNat (min days.toNat (UInt32.size - 1)))

/-- The settings of a configuration. A pool that 32 bits do not hold has the standard size.
-/
def of (lookup : Lookup) : Except SettingProblem Settings := do
  let seed ←
    checked lookup .seed (fun n => 0 ≤ n && n.toNat < UInt32.size) .seedOutOfRange
  let feedTimeout ← checked lookup .feedTimeout (fun n => 0 < n) .timeoutNotPositive
  let days ← integer lookup .days
  let poolSize ← checked lookup .poolSize (fun n => 1 ≤ n) .poolTooSmall
  let feedPath ← path lookup .feedPath
  let csvPath ← path lookup .csvPath
  let databasePath ← path lookup .databasePath
  return {
    seed := (seed.map fun n => UInt32.ofNat n.toNat).getD standard.seed
    feedTimeout := (feedTimeout.map Int.toNat).getD standard.feedTimeout
    days := (days.map windowOf).getD standard.days
    poolSize :=
      match poolSize with
      | some n => if n.toNat < UInt32.size then UInt32.ofNat n.toNat else standard.poolSize
      | none => standard.poolSize
    feedPath, csvPath, databasePath }

/-- The settings of an INI text that has been read. -/
def ofIni (ini : Ini) : Except SettingProblem Settings :=
  of fun key => ini.get? key.heading key.name

end Settings

end Screener
