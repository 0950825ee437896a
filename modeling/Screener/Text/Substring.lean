/-!
Words inside a text, as lists of characters.
-/

namespace Screener.Text

/-- What follows a word that the text starts with. -/
def afterWord? : (word text : List Char) → Option (List Char)
  | [], text => some text
  | _ :: _, [] => none
  | w :: word, c :: text => if w = c then afterWord? word text else none

/-- The word stands somewhere in the text. -/
def contains (word : List Char) : List Char → Bool
  | [] => word.isEmpty
  | c :: text => (afterWord? word (c :: text)).isSome || contains word text

/-- What follows the first place where the word stands. -/
def afterFirst? (word : List Char) : List Char → Option (List Char)
  | [] => if word.isEmpty then some [] else none
  | c :: text =>
    match afterWord? word (c :: text) with
    | some rest => some rest
    | none => afterFirst? word text

end Screener.Text
