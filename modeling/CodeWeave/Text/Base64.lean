import CodeWeave.Text.Basic

/-!
# Bytes and base 64

A text as its UTF-8 bytes, and bytes as base 64: three bytes make four characters, and the
last group is filled up with equals signs. `decode64?` reads it back.
-/

namespace CodeWeave.Text

/-- The UTF-8 bytes of a character. -/
def charBytes (c : Char) : List UInt8 :=
  let n := c.toNat
  if n < 0x80 then [.ofNat n]
  else if n < 0x800 then [.ofNat (0xC0 + n / 64), .ofNat (0x80 + n % 64)]
  else if n < 0x10000 then
    [.ofNat (0xE0 + n / 4096), .ofNat (0x80 + n / 64 % 64), .ofNat (0x80 + n % 64)]
  else
    [.ofNat (0xF0 + n / 262144), .ofNat (0x80 + n / 4096 % 64),
      .ofNat (0x80 + n / 64 % 64),
     .ofNat (0x80 + n % 64)]

/-- The UTF-8 bytes of a text. -/
def utf8 (t : Text) : List UInt8 := t.flatMap charBytes

/-- The character of a group of six bits. -/
def char64 (n : Nat) : Char :=
  if n < 26 then Char.ofNat (65 + n)
  else if n < 52 then Char.ofNat (71 + n)
  else if n < 62 then Char.ofNat (n - 4)
  else if n = 62 then '+' else '/'

/-- The group of six bits of a character. -/
def value64? (c : Char) : Option Nat :=
  if c.isUpper then some (c.toNat - 65)
  else if c.isLower then some (c.toNat - 71)
  else if c.isDigit then some (c.toNat + 4)
  else if c = '+' then some 62
  else if c = '/' then some 63
  else none

def encode64 : List UInt8 → Text
  | [] => []
  | [a] =>
    let n := a.toNat * 16
    [char64 (n / 64), char64 (n % 64), '=', '=']
  | [a, b] =>
    let n := (a.toNat * 256 + b.toNat) * 4
    [char64 (n / 4096), char64 (n / 64 % 64), char64 (n % 64), '=']
  | a :: b :: c :: rest =>
    let n := (a.toNat * 256 + b.toNat) * 256 + c.toNat
    char64 (n / 262144) :: char64 (n / 4096 % 64) :: char64 (n / 64 % 64) ::
      char64 (n % 64) ::
      encode64 rest

/-- The bytes that a text in base 64 stands for. -/
def decode64? : Text → Option (List UInt8)
  | [] => some []
  | [a, b, '=', '='] => do
    let n := (← value64? a) * 64 + (← value64? b)
    some [.ofNat (n / 16)]
  | [a, b, c, '='] => do
    let n := ((← value64? a) * 64 + (← value64? b)) * 64 + (← value64? c)
    some [.ofNat (n / 1024), .ofNat (n / 4 % 256)]
  | a :: b :: c :: d :: rest => do
    let n :=
      (((← value64? a) * 64 + (← value64? b)) * 64 + (← value64? c)) * 64 + (← value64? d)
    let bytes ← decode64? rest
    some (.ofNat (n / 65536) :: .ofNat (n / 256 % 256) :: .ofNat (n % 256) :: bytes)
  | _ => none

end CodeWeave.Text
