import CodeWeave.Json.Value
import CodeWeave.Number.Shortest
import CodeWeave.Text.CodePoint

/-!
# JSON text

A value is written in ASCII: every other character as `\u` and four hexadecimal digits,
in two such units if it lies beyond the first plane, and half of a character in one.
There are two layouts, one without any white space between values and one with a line for
each item and field.
-/

namespace CodeWeave.Json

open Text

/-! ## Characters -/

/-- A hexadecimal digit, in lower case. -/
def hexDigit (n : Nat) : Char :=
  if n < 10 then Char.ofNat (48 + n) else Char.ofNat (87 + n)

/-- A unit of sixteen bits as an escape. -/
def escapeUnit (n : Nat) : Text :=
  ['\\', 'u', hexDigit (n / 4096 % 16), hexDigit (n / 256 % 16), hexDigit (n / 16 % 16),
    hexDigit (n % 16)]

/-- A character inside a string. -/
def escapeChar (c : Char) : Text :=
  if c = '"' then ['\\', '"']
  else if c = '\\' then ['\\', '\\']
  else if c = '\n' then ['\\', 'n']
  else if c = '\r' then ['\\', 'r']
  else if c = '\t' then ['\\', 't']
  else if c.toNat = 8 then ['\\', 'b']
  else if c.toNat = 12 then ['\\', 'f']
  else if 32 ≤ c.toNat ∧ c.toNat ≤ 126 then [c]
  else if c.toNat < 0x10000 then escapeUnit c.toNat
  else
    let n := c.toNat - 0x10000
    escapeUnit (0xD800 + n / 1024) ++ escapeUnit (0xDC00 + n % 1024)

/-- A code point inside a string. -/
def escape : CodePoint → Text
  | .char c => escapeChar c
  | .half n => escapeUnit (0xD800 + n.val)

/-- A string with its quotes. -/
def quote (w : WideText) : Text := '"' :: w.flatMap escape ++ ['"']

/-! ## Numbers -/

/-- Numbers with a fraction are positional from the fourth place after the point to the
sixteenth before it. -/
def realLayout : Shortest.Layout := ⟨-4, 15, 2, "NaN", "Infinity"⟩

def writeInt (i : Int) : Text := (toString i).toList

/-! ## Values -/

mutual

def writeCompact : Json → Text
  | null => "null".toList
  | bool true => "true".toList
  | bool false => "false".toList
  | int i => writeInt i
  | real x => realLayout.write x
  | str s => quote (.ofString s)
  | arr items => '[' :: [','].intercalate (writeItems items) ++ [']']
  | obj fields => '\x7b' :: [','].intercalate (writeFields fields) ++ ['\x7d']

/-- The items of a list without white space. -/
def writeItems : List Json → List Text
  | [] => []
  | v :: vs => writeCompact v :: writeItems vs

/-- The fields of an object without white space. -/
def writeFields : List (String × Json) → List Text
  | [] => []
  | (k, v) :: fs => (quote (.ofString k) ++ ':' :: writeCompact v) :: writeFields fs

end

/-- A line break and the indentation of a level. -/
def newLine (level : Nat) : Text := '\n' :: List.replicate (2 * level) ' '

/-- The items of a list or object, each on a line of its own. -/
def block (opening closing : Char) (level : Nat) (items : List Text) : Text :=
  if items.isEmpty then [opening, closing]
  else opening :: newLine (level + 1) ++ (',' :: newLine (level + 1)).intercalate items ++
    newLine level ++ [closing]

mutual

/-- The value with a line for each item and field, at a level of indentation. -/
def writeIndentedAt (level : Nat) : Json → Text
  | null => "null".toList
  | bool true => "true".toList
  | bool false => "false".toList
  | int i => writeInt i
  | real x => realLayout.write x
  | str s => quote (.ofString s)
  | arr items => block '[' ']' level (indentedItems (level + 1) items)
  | obj fields => block '\x7b' '\x7d' level (indentedFields (level + 1) fields)

/-- The items of a list, each at the given level. -/
def indentedItems (level : Nat) : List Json → List Text
  | [] => []
  | v :: vs => writeIndentedAt level v :: indentedItems level vs

/-- The fields of an object, each at the given level. -/
def indentedFields (level : Nat) : List (String × Json) → List Text
  | [] => []
  | (k, v) :: fs =>
    (quote (.ofString k) ++ ": ".toList ++ writeIndentedAt level v) ::
      indentedFields level fs

end

/-- The value with a line for each item and field. -/
def writeIndented (v : Json) : Text := writeIndentedAt 0 v

end CodeWeave.Json
