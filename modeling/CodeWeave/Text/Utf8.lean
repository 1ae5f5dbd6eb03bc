import CodeWeave.Text.Base64

/-!
# Decoding UTF-8

Bytes are read one character at a time. What cannot be read is reported by its place, its
bytes and the reason: a byte that starts no character, a byte that does not continue one,
or the end of the data in the middle of one. A first byte decides how many bytes follow,
and which range the first of them has.
-/

namespace CodeWeave.Text

/-- Why bytes are not text: the first of the bytes concerned, where it is, how many they
are, and what is wrong with them. -/
structure DecodeFault where
  byte : UInt8
  start : Nat
  count : Nat
  reason : String
  deriving DecidableEq, Repr

def DecodeFault.message (f : DecodeFault) : String :=
  let digit (n : Nat) : Char :=
    if n < 10 then Char.ofNat (48 + n) else Char.ofNat (87 + n)
  if f.count = 1 then
    s!"'utf-8' codec can't decode byte 0x{digit (f.byte.toNat / 16)}{digit (f.byte.toNat % 16)} " ++
      s!"in position {f.start}: {f.reason}"
  else s!"'utf-8' codec can't decode bytes in position {f.start}-{f.start + f.count - 1}: {f.reason}"

/-- What a first byte announces: its own part of the number, how many bytes follow, and
the range of the first of them. -/
structure LeadByte where
  high : Nat
  following : Nat
  lowest : Nat := 0x80
  highest : Nat := 0xBF
  deriving DecidableEq, Repr

/-- What a byte announces as the first of a character. -/
def leadByte? (b : UInt8) : Option LeadByte :=
  let n := b.toNat
  if n < 0x80 then some { high := n, following := 0 }
  else if n < 0xC2 then none
  else if n < 0xE0 then some { high := n - 0xC0, following := 1 }
  else if n = 0xE0 then some { high := 0, following := 2, lowest := 0xA0 }
  else if n = 0xED then some { high := 13, following := 2, highest := 0x9F }
  else if n < 0xF0 then some { high := n - 0xE0, following := 2 }
  else if n = 0xF0 then some { high := 0, following := 3, lowest := 0x90 }
  else if n < 0xF4 then some { high := n - 0xF0, following := 3 }
  else if n = 0xF4 then some { high := 4, following := 3, highest := 0x8F }
  else none

/-- How the rest of a character ends. -/
inductive Continuation where
  | complete (number : Nat)
  | wrongByte (accepted : Nat)
  | endOfData (accepted : Nat)

/-- Reads the bytes that follow a first byte; `accepted` of the character's
bytes are read. -/
def continuation (number accepted : Nat) : Nat → Nat → Nat → List UInt8 → Continuation
  | 0, _, _, _ => .complete number
  | _ + 1, _, _, [] => .endOfData accepted
  | count + 1, lowest, highest, b :: bs =>
    if lowest ≤ b.toNat ∧ b.toNat ≤ highest then
      continuation (number * 64 + (b.toNat - 0x80)) (accepted + 1) count 0x80 0xBF bs
    else .wrongByte accepted

/-- Decodes bytes that start at a place of the data. -/
def decodeFrom (start : Nat) (bytes : List UInt8) : Except DecodeFault Text :=
  match bytes with
  | [] => .ok []
  | b :: bs =>
    match leadByte? b with
    | none => .error ⟨b, start, 1, "invalid start byte"⟩
    | some lead =>
      match continuation lead.high 1 lead.following lead.lowest lead.highest bs with
      | .complete number => do
        let rest ← decodeFrom (start + 1 + lead.following) (bs.drop lead.following)
        .ok (Char.ofNat number :: rest)
      | .wrongByte accepted => .error ⟨b, start, accepted, "invalid continuation byte"⟩
      | .endOfData accepted => .error ⟨b, start, accepted, "unexpected end of data"⟩
termination_by bytes.length
decreasing_by simp only [List.length_drop, List.length_cons]; omega

def decodeUtf8 (bytes : List UInt8) : Except DecodeFault Text := decodeFrom 0 bytes

end CodeWeave.Text
