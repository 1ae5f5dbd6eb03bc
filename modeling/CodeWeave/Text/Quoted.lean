import CodeWeave.Text.Printable

/-!
# Quoted text

A text in quotes on one line, as messages show it. Single quotes are used, unless the text
holds one and holds no double quote. The quote and the backslash are escaped, and every
character that is not printable is written by its number.
-/

namespace CodeWeave.Text

/-- The lowest `count` hexadecimal digits of a number. -/
def hexDigits : Nat → Nat → Text
  | 0, _ => []
  | count + 1, n =>
    hexDigits count (n / 16) ++
      [Char.ofNat (if n % 16 < 10 then 48 + n % 16 else 87 + n % 16)]

/-- A character that is shown by its number: two, four or eight hexadecimal digits. -/
def numbered (c : Char) : Text :=
  if c.toNat ≤ 0xFF then '\\' :: 'x' :: hexDigits 2 c.toNat
  else if c.toNat ≤ 0xFFFF then '\\' :: 'u' :: hexDigits 4 c.toNat
  else '\\' :: 'U' :: hexDigits 8 c.toNat

/-- A character between the given quotes. -/
def quotedChar (quote c : Char) : Text :=
  if c = quote ∨ c = '\\' then ['\\', c]
  else if c = '\t' then ['\\', 't']
  else if c = '\n' then ['\\', 'n']
  else if c = '\r' then ['\\', 'r']
  else if isPrintable c then [c]
  else numbered c

/-- The quote that a text is shown in. -/
def quoteFor (t : Text) : Char := if '\'' ∈ t ∧ '"' ∉ t then '"' else '\''

def quoted (t : Text) : Text :=
  quoteFor t :: t.flatMap (quotedChar (quoteFor t)) ++ [quoteFor t]

end CodeWeave.Text
