/-!
The key of a simulation run and the seed folded from it. The fold goes over UTF-16 code
units with a wrapping multiplication.
-/

namespace Screener

/-- The UTF-16 code units of a character. -/
def units16 (c : Char) : List UInt32 :=
  let n := c.toNat
  if n < 0x10000 then [UInt32.ofNat n]
  else
    [UInt32.ofNat (0xD800 + (n - 0x10000) / 0x400),
      UInt32.ofNat (0xDC00 + (n - 0x10000) % 0x400)]

/-- One step of the fold: the unit is mixed into the hash, which is then multiplied. -/
def mixUnit (hash unit : UInt32) : UInt32 := (hash ^^^ unit) * 16777619

/-- The hash of a text. -/
def textHash (text : String) : UInt32 :=
  (text.toList.flatMap units16).foldl mixUnit 2166136261

/-- The name that stands in for a missing one. -/
def draftName : String := "draft"

/-- What determines a simulation run. -/
structure SeedKey where
  code : String
  name : String
  days : UInt32
  seed : UInt32
deriving DecidableEq, Repr

namespace SeedKey

/-- The key of a run; an empty name counts as that of a draft. -/
def of (code name : String) (days seed : UInt32) : SeedKey :=
  ⟨code, if name = "" then draftName else name, days, seed⟩

/-- The key as text, its parts joined by underscores. -/
def text (key : SeedKey) : String :=
  key.code ++ "_" ++ key.name ++ "_" ++ Nat.repr key.days.toNat ++ "_" ++
    Nat.repr key.seed.toNat

/-- The seed of the run. -/
def runSeed (key : SeedKey) : UInt32 := textHash key.text

end SeedKey

end Screener
