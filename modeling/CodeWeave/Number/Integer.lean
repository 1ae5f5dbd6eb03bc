import CodeWeave.Text.Digit

/-!
# Whole numbers in text

A whole number is written with an optional sign and decimal digits of any script, single
underscores between digits, and white space around it. The digits are limited in number.
The four separator controls, white space elsewhere, are none around a number.
-/

namespace CodeWeave.Number

open Text

/-- The most digits that a written number may have. -/
def maxDigits : Nat := 4300

/-- White space around a number. -/
def isMargin (c : Char) : Bool := isBlank c && !(28 ≤ c.toNat && c.toNat ≤ 31)

/-- The digits of a run of digits with single underscores between them. -/
def digitRun? : Text → Option (List Nat)
  | [] => none
  | [c] => (digitValue? c).map ([·])
  | c :: '_' :: cs => do
    let d ← digitValue? c
    let ds ← digitRun? cs
    some (d :: ds)
  | c :: cs => do
    let d ← digitValue? c
    let ds ← digitRun? cs
    some (d :: ds)

/-- The number that a list of decimal digits writes. -/
def ofDigits (ds : List Nat) : Nat := ds.foldl (fun n d => 10 * n + d) 0

/-- The number that the digits of a text write, if there are not too many. -/
def natural? (t : Text) : Option Nat := do
  let ds ← digitRun? t
  if ds.length ≤ maxDigits then some (ofDigits ds) else none

/-- The whole number that a text writes. -/
def integer? (t : Text) : Option Int :=
  match ((t.dropWhile isMargin).reverse.dropWhile isMargin).reverse with
  | '-' :: cs => (natural? cs).map fun n => -(n : Int)
  | '+' :: cs => (natural? cs).map Int.ofNat
  | cs => (natural? cs).map Int.ofNat

end CodeWeave.Number
