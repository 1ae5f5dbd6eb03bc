import CodeWeave.Text.Lines
import CodeWeave.Text.Utf8

/-!
# Reading text back

The bytes of a character are its number, cut into groups of six bits. The first byte tells
how many groups follow and, where a shorter encoding or a surrogate would be possible,
which values the second byte has:

> `decodeFrom_charBytes`: a character is read from its bytes, whatever follows.

> `decodeUtf8_utf8`: the bytes of a text are read as the text.

A file is read with every line break as a line feed, so a text comes back as it was
exactly if it has no carriage return: `unifyNewlines_eq_self_iff`.
-/

namespace CodeWeave.Text

/-! ## The bytes of a character -/

theorem toNat_ofNat_of_lt {n : Nat} (h : n < 256) : (UInt8.ofNat n).toNat = n :=
  Nat.mod_eq_of_lt h

/-- A byte that continues a character adds six bits to its number. -/
theorem continuation_cons {number accepted count lowest highest m : Nat} (hm : m < 64)
    (hlow : lowest ≤ 0x80 + m) (hhigh : 0x80 + m ≤ highest) (bs : List UInt8) :
    continuation number accepted (count + 1) lowest highest (.ofNat (0x80 + m) :: bs) =
      continuation (number * 64 + m) (accepted + 1) count 0x80 0xBF bs := by
  rw [continuation, toNat_ofNat_of_lt (by omega), if_pos ⟨hlow, hhigh⟩,
    Nat.add_sub_cancel_left]

theorem decodeFrom_cons {b : UInt8} {lead : LeadByte} {number : Nat} {bs : List UInt8}
    (hlead : leadByte? b = some lead)
    (h : continuation lead.high 1 lead.following lead.lowest lead.highest bs =
      .complete number) (start : Nat) :
    decodeFrom start (b :: bs) =
      (decodeFrom (start + 1 + lead.following) (bs.drop lead.following)).map
        (Char.ofNat number :: ·) := by
  rw [decodeFrom, hlead]
  dsimp only
  rw [h]
  dsimp only
  cases decodeFrom (start + 1 + lead.following) (bs.drop lead.following) <;> rfl

theorem leadByte?_two {n : Nat} (h₁ : 0x80 ≤ n) (h₂ : n < 0x800) :
    leadByte? (.ofNat (0xC0 + n / 64)) = some ⟨n / 64, 1, 0x80, 0xBF⟩ := by
  unfold leadByte?
  rw [toNat_ofNat_of_lt (by omega), if_neg (by omega), if_neg (by omega),
    if_pos (by omega),
    Nat.add_sub_cancel_left]

/-- The first of three bytes keeps the second one from starting a shorter encoding
or a surrogate. -/
theorem leadByte?_three {n : Nat} (h₂ : 0x800 ≤ n) (h₃ : n < 0x10000)
    (hsurrogate : n < 0xD800 ∨ 0xDFFF < n) :
    ∃ lowest highest, leadByte? (.ofNat (0xE0 + n / 4096)) =
      some ⟨n / 4096, 2, lowest, highest⟩ ∧
      lowest ≤ 0x80 + n / 64 % 64 ∧ 0x80 + n / 64 % 64 ≤ highest := by
  unfold leadByte?
  rw [toNat_ofNat_of_lt (by omega)]
  dsimp only
  rw [if_neg (by omega), if_neg (by omega), if_neg (by omega)]
  by_cases hfirst : n / 4096 = 0
  · rw [if_pos (by omega), hfirst]
    exact ⟨0xA0, 0xBF, rfl, by omega, by omega⟩
  · rw [if_neg (by omega)]
    by_cases hlast : n / 4096 = 13
    · rw [if_pos (by omega), hlast]
      exact ⟨0x80, 0x9F, rfl, by omega, by omega⟩
    · rw [if_neg (by omega), if_pos (by omega), Nat.add_sub_cancel_left]
      exact ⟨0x80, 0xBF, rfl, by omega, by omega⟩

/-- The first of four bytes keeps the second one from starting a shorter encoding or too
large a number. -/
theorem leadByte?_four {n : Nat} (h₃ : 0x10000 ≤ n) (h₄ : n < 0x110000) :
    ∃ lowest highest, leadByte? (.ofNat (0xF0 + n / 262144)) =
      some ⟨n / 262144, 3, lowest, highest⟩ ∧
      lowest ≤ 0x80 + n / 4096 % 64 ∧ 0x80 + n / 4096 % 64 ≤ highest := by
  unfold leadByte?
  rw [toNat_ofNat_of_lt (by omega)]
  dsimp only
  rw [if_neg (by omega), if_neg (by omega), if_neg (by omega), if_neg (by omega),
    if_neg (by omega),
    if_neg (by omega)]
  by_cases hfirst : n / 262144 = 0
  · rw [if_pos (by omega), hfirst]
    exact ⟨0x90, 0xBF, rfl, by omega, by omega⟩
  · rw [if_neg (by omega)]
    by_cases hlast : n / 262144 = 4
    · rw [if_neg (by omega), if_pos (by omega), hlast]
      exact ⟨0x80, 0x8F, rfl, by omega, by omega⟩
    · rw [if_pos (by omega), Nat.add_sub_cancel_left]
      exact ⟨0x80, 0xBF, rfl, by omega, by omega⟩

/-- A character is read from its bytes, whatever follows. -/
theorem decodeFrom_charBytes (c : Char) (start : Nat) (rest : List UInt8) :
    decodeFrom start (charBytes c ++ rest) =
      (decodeFrom (start + (charBytes c).length) rest).map (c :: ·) := by
  have hvalid : c.toNat < 0xD800 ∨ 0xDFFF < c.toNat ∧ c.toNat < 0x110000 := c.valid
  have hc : Char.ofNat c.toNat = c := Char.ofNat_toNat c
  unfold charBytes
  generalize c.toNat = n at hvalid hc
  dsimp only
  by_cases h₁ : n < 0x80
  · have hlead : leadByte? (.ofNat n) = some ⟨n, 0, 0x80, 0xBF⟩ := by
      unfold leadByte?
      rw [toNat_ofNat_of_lt (by omega), if_pos h₁]
    rw [if_pos h₁, List.singleton_append, decodeFrom_cons hlead rfl, hc]
    rfl
  by_cases h₂ : n < 0x800
  · rw [if_neg h₁, if_pos h₂]
    have hnumber : n / 64 * 64 + n % 64 = n := by omega
    have hcontinued : continuation (n / 64) 1 1 0x80 0xBF
        (.ofNat (0x80 + n % 64) :: rest) =
        .complete n := by
      rw [continuation_cons (by omega) (by omega) (by omega), continuation, hnumber]
    rw [List.cons_append, List.singleton_append,
      decodeFrom_cons (leadByte?_two (by omega) h₂) hcontinued, hc]
    rfl
  by_cases h₃ : n < 0x10000
  · rw [if_neg h₁, if_neg h₂, if_pos h₃]
    obtain ⟨lowest, highest, hlead, hlow, hhigh⟩ :=
      leadByte?_three (Nat.le_of_not_lt h₂) h₃ (hvalid.imp_right And.left)
    have hnumber : (n / 4096 * 64 + n / 64 % 64) * 64 + n % 64 = n := by omega
    have hcontinued : continuation (n / 4096) 1 2 lowest highest
        (.ofNat (0x80 + n / 64 % 64) :: .ofNat (0x80 + n % 64) :: rest) =
          .complete n := by
      rw [continuation_cons (by omega) hlow hhigh,
        continuation_cons (by omega) (by omega) (by omega),
        continuation, hnumber]
    rw [List.cons_append, List.cons_append, List.singleton_append,
      decodeFrom_cons hlead hcontinued, hc]
    rfl
  · rw [if_neg h₁, if_neg h₂, if_neg h₃]
    obtain ⟨lowest, highest, hlead, hlow, hhigh⟩ :=
      leadByte?_four (Nat.le_of_not_lt h₃) (by omega)
    have hnumber : ((n / 262144 * 64 + n / 4096 % 64) * 64 + n / 64 % 64) * 64 +
        n % 64 = n := by omega
    have hcontinued : continuation (n / 262144) 1 3 lowest highest
        (.ofNat (0x80 + n / 4096 % 64) :: .ofNat (0x80 + n / 64 % 64) ::
          .ofNat (0x80 + n % 64) :: rest) =
          .complete n := by
      rw [continuation_cons (by omega) hlow hhigh,
        continuation_cons (by omega) (by omega) (by omega),
        continuation_cons (by omega) (by omega) (by omega), continuation, hnumber]
    rw [List.cons_append, List.cons_append, List.cons_append, List.singleton_append,
      decodeFrom_cons hlead hcontinued, hc]
    rfl

/-- The bytes of a text are read as the text. -/
theorem decodeUtf8_utf8 (t : Text) : decodeUtf8 (utf8 t) = .ok t := by
  unfold decodeUtf8
  generalize 0 = start
  induction t generalizing start with
  | nil => rw [utf8, List.flatMap_nil, decodeFrom]
  | cons c cs ih =>
    rw [utf8, List.flatMap_cons, decodeFrom_charBytes, ← utf8, ih]
    rfl

/-! ## Line breaks -/

theorem not_mem_unifyNewlines (t : Text) : '\r' ∉ unifyNewlines t := by
  fun_induction unifyNewlines t with
  | case1 => exact List.not_mem_nil
  | case2 cs ih =>
    rw [List.mem_cons, not_or]
    exact ⟨by decide, ih⟩
  | case3 c cs _ ih =>
    rw [List.mem_cons, not_or]
    refine ⟨?_, ih⟩
    split
    next => decide
    next hc => exact fun h => hc h.symm

/-- A text is read back as it was exactly if it has no carriage return. -/
theorem unifyNewlines_eq_self_iff (t : Text) : unifyNewlines t = t ↔ '\r' ∉ t := by
  constructor
  · intro h
    rw [← h]
    exact not_mem_unifyNewlines t
  · intro h
    fun_induction unifyNewlines t with
    | case1 => rfl
    | case2 cs _ => exact absurd List.mem_cons_self h
    | case3 c cs _ ih =>
      rw [List.mem_cons, not_or] at h
      rw [if_neg (Ne.symm h.1), ih h.2]

end CodeWeave.Text
