/-!
# Binary floating-point numbers

A binary number has a significand of at most 53 bits and a power of two. A ratio of
natural numbers is rounded to the nearest one, a tie to the even significand. Everything
is exact arithmetic on `Nat` and `Int`, so that rounding can be reasoned about.
-/

namespace CodeWeave

/-- A binary floating-point number; a finite one is `± significand * 2 ^ exponent`. -/
inductive Binary64 where
  | nan
  | infinite (negative : Bool)
  | finite (negative : Bool) (significand : Nat) (exponent : Int)
  deriving DecidableEq, Repr, Inhabited

namespace Binary64

/-- The quotient of two natural numbers, rounded to the nearest; a tie goes
to the even one. -/
def divNearest (num den : Nat) : Nat :=
  let q := num / den
  let r := num % den
  if 2 * r < den then q
  else if den < 2 * r then q + 1
  else if q % 2 = 0 then q else q + 1

/-- Multiplies a ratio by a power of two. -/
def scale (num den : Nat) (exponent : Int) : Nat × Nat :=
  match exponent with
  | .ofNat k => (num * Nat.pow 2 k, den)
  | .negSucc k => (num, den * Nat.pow 2 (k + 1))

/-- The exponent of the highest bit of a positive ratio. -/
def highBit (num den : Nat) : Int :=
  let guess : Int := (num.log2 : Int) - (den.log2 : Int)
  let (n, d) := scale num den (-guess)
  if d ≤ n then guess else guess - 1

/-- The number nearest to a ratio; beyond the greatest finite one it is infinite. -/
def ofRatio (negative : Bool) (num den : Nat) : Binary64 :=
  if num = 0 then finite negative 0 0
  else
    let e := max (highBit num den - 52) (-1074)
    let (n, d) := scale num den (-e)
    let m := divNearest n d
    let (m, e) := if m = Nat.pow 2 53 then (Nat.pow 2 52, e + 1) else (m, e)
    if 971 < e then infinite negative else finite negative m e

/-- The number nearest to `digits * 10 ^ exponent`. Exponents that are out of reach for
the count of the digits are answered without computing the power. -/
def ofDecimal (negative : Bool) (digits : Nat) (exponent : Int) : Binary64 :=
  let size : Int := (digits.log2 / 3 : Nat) + 1
  if digits = 0 then finite negative 0 0
  else if 400 < exponent then infinite negative
  else if exponent + size < -400 then finite negative 0 0
  else match exponent with
    | .ofNat k => ofRatio negative (digits * Nat.pow 10 k) 1
    | .negSucc k => ofRatio negative digits (Nat.pow 10 (k + 1))

/-- The number nearest to an integer. -/
def ofInt (i : Int) : Binary64 := ofRatio (i < 0) i.natAbs 1

/-- A finite number times a natural number, rounded. -/
def mulNat (x : Binary64) (k : Nat) : Binary64 :=
  match x with
  | finite negative m e =>
    let (n, d) := scale (m * k) 1 e
    ofRatio negative n d
  | x => x

/-- A finite number without its fraction. -/
def truncate? : Binary64 → Option Int
  | finite negative m e =>
    let (n, d) := scale m 1 e
    some (if negative then -((n / d : Nat) : Int) else ((n / d : Nat) : Int))
  | _ => none

/-- The number is zero, of either sign. -/
def isZero : Binary64 → Bool
  | finite _ m _ => m == 0
  | _ => false

end Binary64

end CodeWeave
