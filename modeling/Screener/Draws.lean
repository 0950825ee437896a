import Screener.Binary64.Arithmetic

/-!
Streams of draws. A 32-bit word is shifted and mixed three times from draw to draw; each
draw is the new word as a fraction of `2^32`.
-/

namespace Screener.Draws

/-- The word after the next draw. -/
def step (word : UInt32) : UInt32 :=
  let word := word ^^^ (word <<< 13)
  let word := word ^^^ (word >>> 17)
  word ^^^ (word <<< 5)

/-- The number of units in `2^-32`. -/
def fraction : Nat := Nat.pow 2 1042

/-- The draw that a word stands for, at least zero and below one. -/
def value (word : UInt32) : Binary64 := Binary64.round false (word.toNat * fraction) 1

/-- The next draw, with the word carried along. -/
def next : StateM UInt32 Binary64 := fun word => (value (step word), step word)

/-- What an action on the stream yields from a seed. -/
def outcome {α : Type} (action : StateM UInt32 α) (seed : UInt32) : α := (action.run seed).1

/-- The words before the first and after each of `count` draws. -/
def words (seed : UInt32) : (count : Nat) → List UInt32
  | 0 => [seed]
  | count + 1 => seed :: words (step seed) count

/-- The first `count` draws from a seed. -/
def take (seed : UInt32) (count : Nat) : List Binary64 :=
  ((words seed count).drop 1).map value

end Screener.Draws
