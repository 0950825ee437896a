/-!
Text in bytes, in the form of one to four bytes to a character. Overlong forms, surrogates
and codes beyond the last plane are no characters.
-/

namespace Screener.Text

/-- The value that a continuing byte adds to a character, if it is one. -/
def continued? (b : UInt8) : Option Nat :=
  if 0x80 ≤ b ∧ b ≤ 0xBF then some (b.toNat - 0x80) else none

/-- The code that a run of bytes starts with, by the number of bytes that its first asks
for.
-/
def firstCode? : List UInt8 → Option Nat
  | [] => none
  | a :: rest =>
    if a < 0x80 then some a.toNat
    else if a < 0xC2 then none
    else if a < 0xE0 then do
      let b ← rest[0]? >>= continued?
      some ((a.toNat - 0xC0) * 64 + b)
    else if a < 0xF0 then do
      let b ← rest[0]? >>= continued?
      let c ← rest[1]? >>= continued?
      let code := (a.toNat - 0xE0) * 4096 + b * 64 + c
      if 0x800 ≤ code ∧ (code < 0xD800 ∨ 0xE000 ≤ code) then some code else none
    else if a < 0xF5 then do
      let b ← rest[0]? >>= continued?
      let c ← rest[1]? >>= continued?
      let d ← rest[2]? >>= continued?
      let code := (a.toNat - 0xF0) * 262144 + b * 4096 + c * 64 + d
      if 0x10000 ≤ code ∧ code < 0x110000 then some code else none
    else none

/-- The characters of a run of bytes, or the number of bytes before the first that belongs
to none; `before` bytes have been decoded already.
-/
def decode (before : Nat) (bytes : List UInt8) : Except Nat (List Char) :=
  match bytes with
  | [] => .ok []
  | b :: rest =>
    match firstCode? (b :: rest) with
    | none => .error before
    | some code =>
      let c := Char.ofNat code
      (decode (before + c.utf8Size) (rest.drop (c.utf8Size - 1))).map (c :: ·)
termination_by bytes.length
decreasing_by simp only [List.length_cons, List.length_drop]; omega

end Screener.Text
