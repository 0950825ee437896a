import Screener.Binary64.Basic

/-!
The four operations, the smaller and the larger of two values, and rounding to a whole
number. Each finite result is the exact one, rounded once.
-/

namespace Screener.Binary64

/-- The sum; exact cancellation gives the positive zero. -/
def add : Binary64 → Binary64 → Binary64
  | .nan, _ | _, .nan => .nan
  | .infinite s, .infinite t => if s = t then .infinite s else .nan
  | .infinite s, .finite .. => .infinite s
  | .finite .., .infinite t => .infinite t
  | .finite s m _, .finite t n _ =>
    if s = t then round s (m + n) 1
    else if n < m then round s (m - n) 1
    else if m < n then round t (n - m) 1
    else round false 0 1

/-- The difference, as the sum with the other sign. -/
def sub (a b : Binary64) : Binary64 := add a (neg b)

/-- The product; zero times infinity is not a number. -/
def mul : Binary64 → Binary64 → Binary64
  | .nan, _ | _, .nan => .nan
  | .infinite s, .infinite t => .infinite (s != t)
  | .infinite s, .finite t n _ => if n = 0 then .nan else .infinite (s != t)
  | .finite s m _, .infinite t => if m = 0 then .nan else .infinite (s != t)
  | .finite s m _, .finite t n _ => round (s != t) (m * n) one

/-- The quotient; a non-zero value over zero is infinite. -/
def div : Binary64 → Binary64 → Binary64
  | .nan, _ | _, .nan => .nan
  | .infinite _, .infinite _ => .nan
  | .infinite s, .finite t _ _ => .infinite (s != t)
  | .finite s _ _, .infinite t => round (s != t) 0 1
  | .finite s m _, .finite t n _ =>
    if n = 0 then if m = 0 then .nan else .infinite (s != t)
    else round (s != t) (m * one) n

instance : Add Binary64 := ⟨add⟩
instance : Sub Binary64 := ⟨sub⟩
instance : Mul Binary64 := ⟨mul⟩
instance : Div Binary64 := ⟨div⟩

/-- The value held between two others; not-a-number stays what it is. -/
def clamp (v low high : Binary64) : Binary64 :=
  if v < low then low else if high < v then high else v

/-- The whole number nearest to a magnitude, a half going up. -/
def wholeUnits (units : Nat) : Nat := (2 * units + one) / (2 * one)

/-- The nearest whole number, halves away from zero, held between two bounds.
Not-a-number counts as zero.
-/
def toWhole (low high : Nat) : Binary64 → Nat
  | .nan => 0
  | .infinite negative => if negative then low else high
  | .finite negative units _ =>
    if negative then low else max low (min (wholeUnits units) high)

end Screener.Binary64
