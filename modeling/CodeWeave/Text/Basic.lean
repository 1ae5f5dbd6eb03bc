/-!
# Text

A source text is the list of its characters, and every length and position counts
characters. White space is the Unicode class together with the four ASCII
separator controls.

`contains` is the test for an occurrence anywhere in a text; the patterns of the redactor
and the segmenter have a vocabulary of their own in `CodeWeave.Text.Scan`.
-/

namespace CodeWeave

/-- A source text, character by character. -/
abbrev Text := List Char

namespace Text

/-- Whether `n` lies in one of the closed ranges. -/
def inRanges (ranges : List (Nat × Nat)) (n : Nat) : Bool :=
  ranges.any fun r => r.1 ≤ n && n ≤ r.2

/-! ## White space -/

/-- The white space beyond ASCII. -/
def blankRanges : List (Nat × Nat) :=
  [(0x85, 0x85), (0xA0, 0xA0), (0x1680, 0x1680), (0x2000, 0x200A), (0x2028, 0x2029),
   (0x202F, 0x202F), (0x205F, 0x205F), (0x3000, 0x3000)]

/-- White space: tab to carriage return, the separator controls, the space, and the
Unicode spaces and separators. -/
def isBlank (c : Char) : Bool :=
  (9 ≤ c.toNat && c.toNat ≤ 13) || (28 ≤ c.toNat && c.toNat ≤ 32) ||
    inRanges blankRanges c.toNat

/-- The text without the white space at its start. -/
def trimStart (t : Text) : Text := t.dropWhile isBlank

/-- The text without the white space at its end. -/
def trimEnd (t : Text) : Text := (t.reverse.dropWhile isBlank).reverse

/-- The text without the white space at either end. -/
def strip (t : Text) : Text := trimEnd (trimStart t)

/-! ## Occurrence -/

/-- Whether `part` occurs in `t` as a run of consecutive characters. -/
def contains (part : Text) : Text → Bool
  | [] => part.isEmpty
  | c :: cs => part.isPrefixOf (c :: cs) || contains part cs

/-- What stands before `ending`, when the text ends with it. -/
def dropEnding? (ending t : Text) : Option Text :=
  if ending.isSuffixOf t then some (t.take (t.length - ending.length)) else none

/-- The first text comes before the second in the order of their characters. -/
def precedes (s t : Text) : Bool := s.lex t fun c d => decide (c.toNat < d.toNat)

/-- ASCII letters in lower case; every other character stays. -/
def lowerAscii (t : Text) : Text := t.map Char.toLower

end Text

end CodeWeave
