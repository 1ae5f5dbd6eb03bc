import CodeWeave.Json.Document
import CodeWeave.Number.Integer

/-!
# Reading JSON

A JSON text is one value with white space around it. White space is the space, the tab,
the line feed and the carriage return. Besides the standard's values, the three words for
numbers that are no numbers are read. A string holds no control characters; a field that
is given twice keeps its last value. An escape may spell half of a character. A whole
number has a limited count of digits, and one digit more is an error of its own.

Every reader takes the head off a text and gives the rest. The fuel of the readers of
values bounds their nesting; twice the length of the text is enough.
-/

namespace CodeWeave.Json

open Text

/-- Why a text is not read as JSON. -/
inductive ReadError where
  | malformed
  | longInteger (digits : Nat)
  deriving DecidableEq, Repr

/-- The text of an overlong number. -/
def longIntegerMessage (digits : Nat) : String :=
  s!"Exceeds the limit ({Number.maxDigits} digits) for integer string conversion: " ++
    s!"value has {digits} digits; use sys.set_int_max_str_digits() to increase the limit"

/-! ## Characters and strings -/

def isSpace (c : Char) : Bool := c == ' ' || c == '\t' || c == '\n' || c == '\r'

/-- What follows the white space. -/
def skipSpace (t : Text) : Text := t.dropWhile isSpace

/-- The value of a hexadecimal digit. -/
def hexValue? (c : Char) : Option Nat :=
  if c.isDigit then some (c.toNat - 48)
  else if 'a' ≤ c ∧ c ≤ 'f' then some (c.toNat - 87)
  else if 'A' ≤ c ∧ c ≤ 'F' then some (c.toNat - 55)
  else none

/-- A unit of four hexadecimal digits. -/
def readUnit : Text → Option (Nat × Text)
  | a :: b :: c :: d :: rest => do
    let a ← hexValue? a
    let b ← hexValue? b
    let c ← hexValue? c
    let d ← hexValue? d
    some (4096 * a + 256 * b + 16 * c + d, rest)
  | _ => none

/-- The character that a letter after a backslash stands for. -/
def unescape? (c : Char) : Option Char :=
  match c with
  | '"' => some '"'
  | '\\' => some '\\'
  | '/' => some '/'
  | 'b' => some (Char.ofNat 8)
  | 'f' => some (Char.ofNat 12)
  | 'n' => some '\n'
  | 'r' => some '\r'
  | 't' => some '\t'
  | _ => none

/-- The first of two units that make one character. -/
def isHighUnit (n : Nat) : Bool := 0xD800 ≤ n && n < 0xDC00

/-- The second of two units that make one character. -/
def isLowUnit (n : Nat) : Bool := 0xDC00 ≤ n && n < 0xE000

/-- The code point that an escape stands for, given what follows its backslash. -/
def readEscape (t : Text) : Option (CodePoint × Text) :=
  match t with
  | 'u' :: rest => do
    let (n, rest) ← readUnit rest
    match rest with
    | '\\' :: 'u' :: more =>
      match readUnit more with
      | some (m, more) =>
        if isHighUnit n && isLowUnit m then
          some (.char (Char.ofNat (0x10000 + (n - 0xD800) * 1024 + (m - 0xDC00))), more)
        else some (.ofUnit n, rest)
      | none => some (.ofUnit n, rest)
    | _ => some (.ofUnit n, rest)
  | c :: rest => (unescape? c).map (.char ·, rest)
  | [] => none

/-- The code points of a string up to its closing quote. -/
def readChars : Nat → Text → Except ReadError (WideText × Text)
  | 0, _ => .error .malformed
  | fuel + 1, t =>
    match t with
    | [] => .error .malformed
    | '"' :: rest => .ok ([], rest)
    | '\\' :: rest =>
      match readEscape rest with
      | some (c, rest) => do
        let (cs, rest) ← readChars fuel rest
        .ok (c :: cs, rest)
      | none => .error .malformed
    | c :: rest =>
      if c.toNat < 32 then .error .malformed
      else do
        let (cs, rest) ← readChars fuel rest
        .ok (.char c :: cs, rest)

/-- The rest of a string after its opening quote. -/
def readString (t : Text) : Except ReadError (WideText × Text) :=
  readChars (t.length + 1) t

/-! ## Numbers -/

/-- A written number: its sign, its whole part, its fraction and its exponent. -/
structure Numeral where
  negative : Bool
  whole : Text
  fraction : Option Text
  exponent : Option Int
  deriving Repr

def digitsValue (ds : Text) : Nat := Number.ofDigits (ds.map fun c => c.toNat - 48)

/-- The fraction of a number: a point and at least one digit. -/
def readFraction (t : Text) : Option Text × Text :=
  match t with
  | '.' :: rest =>
    if (rest.takeWhile Char.isDigit).isEmpty then (none, t)
    else (some (rest.takeWhile Char.isDigit), rest.dropWhile Char.isDigit)
  | _ => (none, t)

/-- The digits of an exponent with the given sign, at least one. -/
def readExponentDigits (negative : Bool) (whole t : Text) : Option Int × Text :=
  if (t.takeWhile Char.isDigit).isEmpty then (none, whole)
  else
    let n : Int := digitsValue (t.takeWhile Char.isDigit)
    (some (if negative then -n else n), t.dropWhile Char.isDigit)

def readExponent (t : Text) : Option Int × Text :=
  match t with
  | e :: rest =>
    if e == 'e' || e == 'E' then
      match rest with
      | '-' :: ds => readExponentDigits true t ds
      | '+' :: ds => readExponentDigits false t ds
      | ds => readExponentDigits false t ds
    else (none, t)
  | [] => (none, t)

/-- The whole part of a number: a zero, or digits that start with another one. -/
def readWhole (t : Text) : Option (Text × Text) :=
  match t with
  | '0' :: rest => some (['0'], rest)
  | c :: _ =>
    if c.isDigit then some (t.takeWhile Char.isDigit, t.dropWhile Char.isDigit) else none
  | [] => none

/-- A number. -/
def readNumeral (t : Text) : Option (Numeral × Text) := do
  let (negative, t) := match t with
    | '-' :: rest => (true, rest)
    | _ => (false, t)
  let (whole, t) ← readWhole t
  let (fraction, t) := readFraction t
  let (exponent, t) := readExponent t
  some (⟨negative, whole, fraction, exponent⟩, t)

/-- The value of a written number. -/
def Numeral.value (n : Numeral) : Except ReadError Document :=
  match n.fraction, n.exponent with
  | none, none =>
    if Number.maxDigits < n.whole.length then .error (.longInteger n.whole.length)
    else
      let v : Int := digitsValue n.whole
      .ok (.int (if n.negative then -v else v))
  | fraction, exponent =>
    let places := fraction.getD []
    .ok (.real (.ofDecimal n.negative (digitsValue (n.whole ++ places))
      (exponent.getD 0 - (places.length : Int))))

/-! ## Values -/

def words : List (Text × Document) :=
  [("null".toList, .null), ("true".toList, .bool true), ("false".toList, .bool false),
   ("NaN".toList, .real .nan), ("Infinity".toList, .real (.infinite false)),
   ("-Infinity".toList, .real (.infinite true))]

/-- The word at the head of a text. -/
def readWord (t : Text) : Option (Document × Text) :=
  words.findSome? fun (word, v) => (word.isPrefixOf? t).map (v, ·)

/-- A word or a number. -/
def readScalar (t : Text) : Except ReadError (Document × Text) :=
  match readWord t with
  | some r => .ok r
  | none =>
    match readNumeral t with
    | some (n, rest) => do
      let v ← n.value
      .ok (v, rest)
    | none => .error .malformed

mutual

/-- A value. -/
def readValue : Nat → Text → Except ReadError (Document × Text)
  | 0, _ => .error .malformed
  | fuel + 1, t =>
    match t with
    | '"' :: rest => do
      let (s, rest) ← readString rest
      .ok (.str s, rest)
    | '[' :: rest =>
      match skipSpace rest with
      | ']' :: rest => .ok (.arr [], rest)
      | rest => do
        let (items, rest) ← readItems fuel rest
        .ok (.arr items, rest)
    | '\x7b' :: rest =>
      match skipSpace rest with
      | '\x7d' :: rest => .ok (.obj [], rest)
      | rest => do
        let (fields, rest) ← readFields fuel [] rest
        .ok (.obj fields, rest)
    | t => readScalar t

/-- The items of a list up to its closing bracket. -/
def readItems : Nat → Text → Except ReadError (List Document × Text)
  | 0, _ => .error .malformed
  | fuel + 1, t => do
    let (item, rest) ← readValue fuel t
    match skipSpace rest with
    | ']' :: rest => .ok ([item], rest)
    | ',' :: rest => do
      let (items, rest) ← readItems fuel (skipSpace rest)
      .ok (item :: items, rest)
    | _ => .error .malformed

/-- The fields of an object up to its closing brace, after those that are already read. -/
def readFields : Nat → List (WideText × Document) → Text →
    Except ReadError (List (WideText × Document) × Text)
  | 0, _, _ => .error .malformed
  | fuel + 1, fields, t =>
    match t with
    | '"' :: rest => do
      let (key, rest) ← readString rest
      match skipSpace rest with
      | ':' :: rest => do
        let (value, rest) ← readValue fuel (skipSpace rest)
        let fields := setField fields key value
        match skipSpace rest with
        | '\x7d' :: rest => .ok (fields, rest)
        | ',' :: rest => readFields fuel fields (skipSpace rest)
        | _ => .error .malformed
      | _ => .error .malformed
    | _ => .error .malformed

end

/-- Reads a whole text as one document. -/
def readDocument (t : Text) : Except ReadError Document := do
  let (v, rest) ← readValue (2 * t.length + 2) (skipSpace t)
  if (skipSpace rest).isEmpty then .ok v else .error .malformed

/-- Reads a whole text as the value that shows it. -/
def read (t : Text) : Except ReadError Json := (readDocument t).map Document.json

end CodeWeave.Json
