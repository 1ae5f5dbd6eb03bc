import CodeWeave.Number.Binary64

/-!
# The shortest decimal text of a number

Of the decimal numbers that read back as a given binary one, those with the fewest digits
are considered, and of these the nearest is written. For each count of digits, the two
neighbours of the number on that decimal grid are tested in exact arithmetic.

`Layout` holds the decisions of a format: where positional notation ends and how an
exponent is written.
-/

namespace CodeWeave.Shortest

/-- The reals that round to a number, in units of a quarter of its last place: both ends
around the middle, and whether they belong to it. -/
structure Interval where
  low : Nat
  middle : Nat
  high : Nat
  closed : Bool

/-- The interval of a finite number. Below a power of two the neighbours are
half as far apart. -/
def intervalOf (significand : Nat) (exponent : Int) : Interval where
  low :=
    4 * significand - (if significand = Nat.pow 2 52 ∧ -1074 < exponent then 1 else 2)
  middle := 4 * significand
  high := 4 * significand + 2
  closed := significand % 2 = 0

/-- Whether `num / den` lies in the interval, all in the interval's units. -/
def Interval.holds (i : Interval) (num den : Nat) : Bool :=
  if i.closed then i.low * den ≤ num && num ≤ i.high * den
  else i.low * den < num && num < i.high * den

/-- How many steps of ten, at most `fuel`, lead from the ratio up to one. -/
def stepsToOne : Nat → Nat → Nat → Nat
  | 0, _, _ => 0
  | fuel + 1, num, den => if den ≤ num then 0 else stepsToOne fuel (num * 10) den + 1

/-- The exponent of the first decimal digit of a positive ratio. -/
def firstDigit (num den : Nat) : Int :=
  if den ≤ num then ((Nat.toDigits 10 (num / den)).length : Int) - 1
  else -(stepsToOne 400 num den : Int)

/-- A ratio divided by a power of ten. -/
def unscale (num den : Nat) (exponent : Int) : Nat × Nat :=
  match exponent with
  | .ofNat k => (num, den * Nat.pow 10 k)
  | .negSucc k => (num * Nat.pow 10 (k + 1), den)

/-- The decimal of at most `count` digits that reads back as the number, and is nearest to
it: its digits and its power of ten. -/
def onGrid? (significand : Nat) (exponent : Int) (count : Nat) : Option (Nat × Int) :=
  let i := intervalOf significand exponent
  let (unitNum, unitDen) := Binary64.scale 1 1 (exponent - 2)
  let place := firstDigit (i.middle * unitNum) unitDen - (count : Int) + 1
  let (num, den) := unscale (i.middle * unitNum) unitDen place
  let below := num / den
  -- `q * 10 ^ place`, measured in the interval's units
  let fits (q : Nat) : Bool :=
    let (n, d) := unscale (q * unitDen) unitNum (-place)
    i.holds n d
  match fits below, fits (below + 1) with
  | true, false => some (below, place)
  | false, true => some (below + 1, place)
  | false, false => none
  | true, true => some (Binary64.divNearest num den, place)

/-- The fewest digits that read back as the number; seventeen always do. -/
def digits (significand : Nat) (exponent : Int) : Nat × Int :=
  ((List.range 17).findSome? fun n => onGrid? significand exponent (n + 1)).getD
    (significand, 0)

/-- The decisions of a format: the exponents of the first digit that are written
positionally, and the least count of digits in a written exponent. -/
structure Layout where
  lowest : Int
  highest : Int
  exponentDigits : Nat
  nan : String
  infinity : String

/-- Writes the digits `ds`, the first of which has the decimal exponent `first`. -/
def Layout.place (l : Layout) (ds : List Char) (first : Int) : List Char :=
  if l.lowest ≤ first ∧ first ≤ l.highest then
    match first with
    | .ofNat k =>
      let whole := ds.take (k + 1)
      let fraction := ds.drop (k + 1)
      whole ++ List.replicate (k + 1 - whole.length) '0' ++ '.' ::
        (if fraction.isEmpty then ['0'] else fraction)
    | .negSucc k => '0' :: '.' :: List.replicate k '0' ++ ds
  else
    let mantissa := match ds with
      | d :: e :: rest => d :: '.' :: e :: rest
      | ds => ds
    let size := Nat.toDigits 10 first.natAbs
    mantissa ++ ['e', if first < 0 then '-' else '+'] ++
      List.replicate (l.exponentDigits - size.length) '0' ++ size

def Layout.write (l : Layout) : Binary64 → List Char
  | .nan => l.nan.toList
  | .infinite negative => (if negative then ['-'] else []) ++ l.infinity.toList
  | .finite negative m e =>
    let sign := if negative then ['-'] else []
    if m = 0 then sign ++ l.place ['0'] 0
    else
      let (q, place) := digits m e
      let ds := Nat.toDigits 10 q
      let first := place + (ds.length : Int) - 1
      let ds := (ds.reverse.dropWhile (· == '0')).reverse
      sign ++ l.place ds first

end CodeWeave.Shortest
