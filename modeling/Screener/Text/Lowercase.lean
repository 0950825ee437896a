import Screener.Text.LetterTables

/-!
Lowercase text. Letters change one by one; only a capital sigma looks around, and becomes
the final form at the end of a word.
-/

namespace Screener.Text

/-- The character is among the ranges. -/
def inRanges (ranges : List (Nat × Nat)) (c : Char) : Bool :=
  ranges.any fun (first, last) => first ≤ c.toNat && c.toNat ≤ last

/-- The character is seen through when the end of a word is looked for. -/
def isIgnorable (c : Char) : Bool := inRanges ignorableRanges c

/-- The character is a letter with case. -/
def isCased (c : Char) : Bool := inRanges casedRanges c

/-- After characters that are seen through comes a letter with case. -/
def cased (text : List Char) : Bool :=
  match text.dropWhile isIgnorable with
  | [] => false
  | c :: _ => isCased c

/-- The lowercase form of one character, a sigma taken inside a word. -/
def lowerChar (c : Char) : List Char :=
  if c.toNat < 128 then [c.toLower]
  else if c = 'İ' then ['i', '\u0307']
  else
    match letterRuns.find? fun run =>
        run.first ≤ c.toNat && c.toNat ≤ run.last && (c.toNat - run.first) % run.step == 0 with
    | some run => [Char.ofNat ((c.toNat : Int) + run.shift).toNat]
    | none => [c]

/-- The lowercase form of `rest`, which follows the characters `seen`, nearest first. -/
def lowerAfter (seen : List Char) : List Char → List Char
  | [] => []
  | c :: rest =>
    let form :=
      if c = 'Σ' then if cased seen && !cased rest then ['ς'] else ['σ']
      else lowerChar c
    form ++ lowerAfter (c :: seen) rest

/-- The lowercase form of a text. -/
def lower (text : List Char) : List Char := lowerAfter [] text

/-- The lowercase form of a string. -/
def lowercase (text : String) : String := String.ofList (lower text.toList)

end Screener.Text
