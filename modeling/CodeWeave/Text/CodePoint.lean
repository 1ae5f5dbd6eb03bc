import CodeWeave.Text.Basic

/-!
# Code points

Where characters are spelled in units of sixteen bits, one beyond the first plane takes
two units, a high and a low one. A spelling may have one of them without the other. Such a
half is no character, but it has a place of its own in what is spelled, so that two
different halves stay different.

A wide text is a list of code points. A text is a wide text without halves.
-/

namespace CodeWeave

/-- A character, or half of one whose other half is missing. The halves are numbered from
the first high unit on. -/
inductive CodePoint where
  | char (c : Char)
  | half (n : Fin 0x800)
  deriving DecidableEq, Repr

/-- A text in which halves of characters may stand. -/
abbrev WideText := List CodePoint

namespace CodePoint

/-- The code point of a single unit. -/
def ofUnit (n : Nat) : CodePoint :=
  if h : 0xD800 ≤ n ∧ n < 0xE000 then half ⟨n - 0xD800, by omega⟩ else char (Char.ofNat n)

/-- The first of two halves that make one character. -/
def isHigh : CodePoint → Bool
  | char _ => false
  | half n => n.val < 0x400

/-- The second of two halves that make one character. -/
def isLow : CodePoint → Bool
  | char _ => false
  | half n => 0x400 ≤ n.val

def isBlank : CodePoint → Bool
  | char c => Text.isBlank c
  | half _ => false

/-- What is shown of it: a half is shown by its number, in hexadecimal digits behind a
backslash. -/
def shown : CodePoint → Text
  | char c => [c]
  | half n => "\\u".toList ++ Nat.toDigits 16 (0xD800 + n.val)

end CodePoint

namespace WideText

def ofText (t : Text) : WideText := t.map .char

def ofString (s : String) : WideText := ofText s.toList

/-- The text without the white space at either end. -/
def strip (w : WideText) : WideText :=
  ((w.dropWhile CodePoint.isBlank).reverse.dropWhile CodePoint.isBlank).reverse

/-- The text as it is shown where only characters can stand. -/
def shown (w : WideText) : String := String.ofList (w.flatMap CodePoint.shown)

end WideText

end CodeWeave
