import CodeWeave.Text.Base64

/-!
# Reading bytes back

Three bytes are four groups of six bits, and each group has a character of its own that is
not the sign that fills up the last group:

> `decode64?_encode64`: bytes in base 64 are read back as they were.

> `utf8_eq_flatMap`: the bytes of a text are its UTF-8 encoding.
-/

namespace CodeWeave.Text

/-! ## Groups of six bits -/

theorem value64?_char64 : ∀ n < 64, value64? (char64 n) = some n := by decide

theorem char64_ne_pad : ∀ n < 64, char64 n ≠ '=' := by decide

/-- Four characters without a filling sign are three bytes. -/
theorem decode64?_cons {d : Char} (hd : d ≠ '=') (a b c : Char) (rest : Text) :
    decode64? (a :: b :: c :: d :: rest) = (do
      let n := (((← value64? a) * 64 + (← value64? b)) * 64 + (← value64? c)) * 64 +
        (← value64? d)
      let bytes ← decode64? rest
      some (.ofNat (n / 65536) :: .ofNat (n / 256 % 256) ::
        .ofNat (n % 256) :: bytes)) := by
  rw [decode64?]
  · exact fun _ h _ => hd h
  · exact fun h _ => hd h

/-- Three bytes, cut into groups of six bits, are put together again. -/
theorem decode64?_groups {n : Nat} (hn : n < 16777216) (rest : Text) :
    decode64? (char64 (n / 262144) :: char64 (n / 4096 % 64) :: char64 (n / 64 % 64) ::
      char64 (n % 64) :: rest) =
    (decode64? rest).map fun bytes =>
      .ofNat (n / 65536) :: .ofNat (n / 256 % 256) :: .ofNat (n % 256) :: bytes := by
  have hjoin : ((n / 262144 * 64 + n / 4096 % 64) * 64 + n / 64 % 64) * 64 +
      n % 64 = n := by omega
  rw [decode64?_cons (char64_ne_pad _ (by omega)), value64?_char64 _ (by omega),
    value64?_char64 _ (by omega), value64?_char64 _ (by omega),
      value64?_char64 _ (by omega)]
  simp only [Option.bind_eq_bind, Option.bind_some, hjoin]
  cases decode64? rest <;> rfl

/-! ## Bytes -/

theorem ofNat_toNat_of_eq {b : UInt8} {n : Nat} (h : n = b.toNat) :
    UInt8.ofNat n = b := by
  rw [h, UInt8.ofNat_toNat]

/-- What is written in base 64 is read back. -/
theorem decode64?_encode64 (bytes : List UInt8) :
    decode64? (encode64 bytes) = some bytes := by
  induction bytes using encode64.induct with
  | case1 => rfl
  | case2 a =>
    have ha := a.toNat_lt
    have hjoin : (a.toNat * 16 / 64 * 64 + a.toNat * 16 % 64) / 16 = a.toNat := by omega
    rw [encode64, decode64?, value64?_char64 _ (by omega), value64?_char64 _ (by omega)]
    simp only [Option.bind_eq_bind, Option.bind_some]
    rw [ofNat_toNat_of_eq hjoin]
  | case3 a b =>
    have ha := a.toNat_lt
    have hb := b.toNat_lt
    let n := (a.toNat * 256 + b.toNat) * 4
    have hn : n < 262144 := by omega
    have hjoin : (n / 4096 * 64 + n / 64 % 64) * 64 + n % 64 = n := by omega
    rw [encode64, decode64?]
    · rw [value64?_char64 _ (by omega), value64?_char64 _ (by omega),
        value64?_char64 _ (by omega)]
      simp only [Option.bind_eq_bind, Option.bind_some]
      rw [hjoin, ofNat_toNat_of_eq (b := a) (by omega),
        ofNat_toNat_of_eq (b := b) (by omega)]
    · exact char64_ne_pad _ (by omega)
  | case4 a b c rest ih =>
    have ha := a.toNat_lt
    have hb := b.toNat_lt
    have hc := c.toNat_lt
    rw [encode64, decode64?_groups (by omega), ih, Option.map_some]
    rw [ofNat_toNat_of_eq (b := a) (by omega), ofNat_toNat_of_eq (b := b) (by omega),
      ofNat_toNat_of_eq (b := c) (by omega)]

/-! ## Characters -/

theorem charBytes_eq (c : Char) : charBytes c = String.utf8EncodeChar c := by
  have hc : c.val.toNat < 0x110000 := by
    have hvalid := c.valid
    unfold UInt32.isValidChar Nat.isValidChar at hvalid
    omega
  unfold charBytes String.utf8EncodeChar
  simp only [show c.toNat = c.val.toNat from rfl]
  generalize c.val.toNat = n at hc ⊢
  by_cases h₁ : n < 0x80
  · rw [if_pos h₁, if_pos (by omega)]
  by_cases h₂ : n < 0x800
  · rw [if_neg h₁, if_pos h₂, if_neg (by omega), if_pos (by omega)]
    rw [show 0xC0 + n / 64 = n / 64 % 32 + 192 by omega, Nat.add_comm 0x80]
  by_cases h₃ : n < 0x10000
  · rw [if_neg h₁, if_neg h₂, if_pos h₃, if_neg (by omega), if_neg (by omega),
      if_pos (by omega)]
    rw [show 0xE0 + n / 4096 = n / 4096 % 16 + 224 by omega, Nat.add_comm 0x80,
      Nat.add_comm 0x80]
  · rw [if_neg h₁, if_neg h₂, if_neg h₃, if_neg (by omega), if_neg (by omega),
      if_neg (by omega)]
    rw [show 0xF0 + n / 262144 = n / 262144 % 8 + 240 by omega, Nat.add_comm 0x80,
      Nat.add_comm 0x80, Nat.add_comm 0x80]

/-- The bytes of a text are its UTF-8 encoding. -/
theorem utf8_eq_flatMap (t : Text) : utf8 t = t.flatMap String.utf8EncodeChar := by
  unfold utf8
  rw [funext charBytes_eq]

end CodeWeave.Text
