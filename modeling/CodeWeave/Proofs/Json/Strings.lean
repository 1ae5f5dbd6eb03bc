import CodeWeave.Json.Read
import CodeWeave.Proofs.Except
import Mathlib.Data.List.Chain

/-!
# Strings of JSON

A string is written character by character up to its closing quote. A character stands for
itself, unless it is a quote, a backslash or a control character, or an escape stands for
it. An escape can also stand for half of a character. This file describes the spellings of
a string without the reader, and says that the reader accepts exactly them:

> `readEscape_eq_some_iff`: what stands behind a backslash.

> `readString_eq_ok_iff`: what stands behind an opening quote.

> `Chars.parted`: two halves that make one character are never read as two code points.
-/

namespace CodeWeave.Json

open Text

/-! ## Escapes -/

/-- Four hexadecimal digits at the head of a text, their number, and what follows. -/
inductive HexUnit : Text → Nat → Text → Prop
  | digits {a b c d : Char} {i j k l : Nat} {r : Text} (ha : hexValue? a = some i)
      (hb : hexValue? b = some j)
      (hc : hexValue? c = some k) (hd : hexValue? d = some l) :
      HexUnit (a :: b :: c :: d :: r) (4096 * i + 256 * j + 16 * k + l) r

/-- What can stand behind a backslash, the code point that it stands for, and
what follows. Two units make one character, if they can. Any other unit is a code
point of its own. -/
inductive Escape : Text → CodePoint → Text → Prop
  | letter {c d : Char} {r : Text} (h : unescape? c = some d) :
      Escape (c :: r) (.char d) r
  | pair {t s r : Text} {n m : Nat} (hfirst : HexUnit t n ('\\' :: 'u' :: s))
      (hsecond : HexUnit s m r) (hhigh : isHighUnit n = true)
      (hlow : isLowUnit m = true) :
      Escape ('u' :: t)
        (.char (Char.ofNat (0x10000 + (n - 0xD800) * 1024 + (m - 0xDC00)))) r
  | unit {t r : Text} {n : Nat} (h : HexUnit t n r)
      (hsingle : ∀ s m u, r = '\\' :: 'u' :: s → HexUnit s m u →
        (isHighUnit n && isLowUnit m) = false) :
      Escape ('u' :: t) (.ofUnit n) r

/-- A unit is four hexadecimal digits, of either case. -/
theorem readUnit_eq_some_iff {t r : Text} {n : Nat} :
    readUnit t = some (n, r) ↔ HexUnit t n r := by
  constructor
  · intro h
    unfold readUnit at h
    split at h
    next a b c d rest =>
      simp only [Option.bind_eq_bind, Option.bind_eq_some_iff] at h
      obtain ⟨i, ha, j, hb, k, hc, l, hd, heq⟩ := h
      cases heq
      exact .digits ha hb hc hd
    · exact nomatch h
  · intro h
    cases h with
    | digits ha hb hc hd =>
      simp only [readUnit, ha, hb, hc, hd, Option.bind_eq_bind, Option.bind_some]

theorem HexUnit.length_lt {t r : Text} {n : Nat} (h : HexUnit t n r) :
    r.length < t.length := by
  cases h
  simp only [List.length_cons]
  omega

/-- A unit is read in one way. -/
theorem HexUnit.unique {t r s : Text} {n m : Nat} (h : HexUnit t n r)
    (h' : HexUnit t m s) : n = m ∧ r = s := by
  have heq := (readUnit_eq_some_iff.mpr h).symm.trans (readUnit_eq_some_iff.mpr h')
  simpa using heq

theorem unescape_u : unescape? 'u' = none := by decide

/-- Every escape but the one with a unit is a single character. -/
theorem readEscape_of_ne_u {c : Char} (hc : c ≠ 'u') (r : Text) :
    readEscape (c :: r) = (unescape? c).map (.char ·, r) := by
  unfold readEscape
  split
  next heq => exact absurd (List.cons.inj heq).1 hc
  next heq =>
    obtain ⟨rfl, rfl⟩ := List.cons.inj heq
    rfl
  next heq => exact nomatch heq

/-- What is read is an escape. Two units are joined if they are the halves
of one character. -/
theorem escape_of_readEscape {t r : Text} {c : CodePoint}
    (h : readEscape t = some (c, r)) : Escape t c r := by
  unfold readEscape at h
  split at h
  next t =>
    obtain ⟨⟨n, u⟩, hunit, h⟩ := Option.bind_eq_some_iff.mp h
    have hfirst := readUnit_eq_some_iff.mp hunit
    dsimp only at h
    split at h
    next s =>
      split at h
      next m v hsecond =>
        have hsecond := readUnit_eq_some_iff.mp hsecond
        split at h
        next hpair =>
          obtain ⟨hhigh, hlow⟩ := Bool.and_eq_true_iff.mp hpair
          obtain ⟨rfl, rfl⟩ := Prod.mk.inj (Option.some.inj h)
          exact .pair hfirst hsecond hhigh hlow
        next hpair =>
          cases h
          refine .unit hfirst fun s' m' v' heq hunit' => ?_
          cases heq
          rw [(hunit'.unique hsecond).1]
          exact Bool.eq_false_iff.mpr hpair
      next hnone =>
        cases h
        refine .unit hfirst fun s' m' v' heq hunit' => ?_
        cases heq
        rw [readUnit_eq_some_iff.mpr hunit'] at hnone
        exact nomatch hnone
    next hother =>
      cases h
      exact .unit hfirst fun s' m' v' heq hunit' => absurd heq (hother s')
  next c' t hc' =>
    obtain ⟨d, hd, heq⟩ := Option.map_eq_some_iff.mp h
    cases heq
    exact .letter hd
  next => exact nomatch h

/-- An escape is read as the character, or the half of one, that it stands for. -/
theorem readEscape_of_escape {t r : Text} {c : CodePoint} (h : Escape t c r) :
    readEscape t = some (c, r) := by
  cases h with
  | @letter c' d r hd =>
    have hc' : c' ≠ 'u' := by
      intro heq
      rw [heq, unescape_u] at hd
      exact nomatch hd
    rw [readEscape_of_ne_u hc', hd]
    rfl
  | pair hfirst hsecond hhigh hlow =>
    simp [readEscape, readUnit_eq_some_iff.mpr hfirst, readUnit_eq_some_iff.mpr hsecond,
      hhigh, hlow]
  | @unit t r n hfirst hsingle =>
    simp only [readEscape, readUnit_eq_some_iff.mpr hfirst, Option.bind_eq_bind,
      Option.bind_some]
    split
    next s =>
      split
      next m u hsecond =>
        rw [hsingle s m u rfl (readUnit_eq_some_iff.mp hsecond)]
        rfl
      next => rfl
    next => rfl

theorem readEscape_eq_some_iff {t r : Text} {c : CodePoint} :
    readEscape t = some (c, r) ↔ Escape t c r :=
  ⟨escape_of_readEscape, readEscape_of_escape⟩

/-- An escape takes at least one character. -/
theorem Escape.length_lt {t r : Text} {c : CodePoint} (h : Escape t c r) :
    r.length < t.length := by
  cases h with
  | letter => exact Nat.lt_succ_self _
  | pair hfirst hsecond =>
    have hlt := hfirst.length_lt
    have hlt' := hsecond.length_lt
    simp only [List.length_cons] at hlt ⊢
    omega
  | unit hfirst => exact Nat.lt_succ_of_lt hfirst.length_lt

/-! ## Strings -/

/-- The spelling of a string from behind its opening quote, its code points, and what
follows its closing quote. -/
inductive Chars : Text → WideText → Text → Prop
  | close {r : Text} : Chars ('"' :: r) [] r
  | escape {t u r : Text} {c : CodePoint} {cs : WideText} (h : Escape t c u)
      (hrest : Chars u cs r) : Chars ('\\' :: t) (c :: cs) r
  | plain {t r : Text} {c : Char} {cs : WideText} (hquote : c ≠ '"') (hslash : c ≠ '\\')
      (hcontrol : 32 ≤ c.toNat) (hrest : Chars t cs r) : Chars (c :: t) (.char c :: cs) r

/-- What is read up to a quote is a spelling of it. -/
theorem chars_of_readChars {fuel : Nat} {t r : Text} {cs : WideText}
    (h : readChars fuel t = .ok (cs, r)) : Chars t cs r := by
  induction fuel generalizing t cs r with
  | zero => exact nomatch h
  | succ fuel ih =>
    unfold readChars at h
    split at h
    next => exact nomatch h
    next rest =>
      cases h
      exact .close
    next t =>
      split at h
      next c u hescape =>
        obtain ⟨⟨ds, v⟩, hrest, h⟩ := bind_eq_ok_iff.mp h
        cases h
        exact .escape (readEscape_eq_some_iff.mp hescape) (ih hrest)
      next => exact nomatch h
    next c t hquote hslash =>
      split at h
      next => exact nomatch h
      next hcontrol =>
        obtain ⟨⟨ds, v⟩, hrest, h⟩ := bind_eq_ok_iff.mp h
        cases h
        exact .plain hquote hslash (Nat.le_of_not_lt hcontrol) (ih hrest)

/-- A spelling is read back, with fuel for each of its characters. -/
theorem readChars_of_chars {fuel : Nat} {t r : Text} {cs : WideText} (h : Chars t cs r)
    (hfuel : t.length < fuel) : readChars fuel t = .ok (cs, r) := by
  induction h generalizing fuel with
  | close =>
    cases fuel with
    | zero => exact absurd hfuel (Nat.not_lt_zero _)
    | succ fuel => rfl
  | escape h _ ih =>
    cases fuel with
    | zero => exact absurd hfuel (Nat.not_lt_zero _)
    | succ fuel =>
      have hlt := h.length_lt
      have hrest := @ih fuel (by rw [List.length_cons] at hfuel; omega)
      simp only [readChars, readEscape_eq_some_iff.mpr h, hrest]
      rfl
  | plain hquote hslash hcontrol _ ih =>
    cases fuel with
    | zero => exact absurd hfuel (Nat.not_lt_zero _)
    | succ fuel =>
      have hrest := @ih fuel (by rw [List.length_cons] at hfuel; omega)
      rw [readChars]
      · rw [if_neg (Nat.not_lt.mpr hcontrol), hrest]
        rfl
      · exact hquote
      · exact hslash

/-- A string has no numbers that could be too long. -/
theorem readChars_ne_longInteger (fuel : Nat) (t : Text) (n : Nat) :
    readChars fuel t ≠ .error (.longInteger n) := by
  induction fuel generalizing t with
  | zero => exact fun h => nomatch h
  | succ fuel ih =>
    intro h
    unfold readChars at h
    split at h
    next => exact nomatch h
    next => exact nomatch h
    next =>
      split at h
      next =>
        cases bind_eq_error_iff.mp h with
        | inl h => exact ih _ h
        | inr h =>
          obtain ⟨_, _, h⟩ := h
          exact nomatch h
      next => exact nomatch h
    next =>
      split at h
      next => exact nomatch h
      next =>
        cases bind_eq_error_iff.mp h with
        | inl h => exact ih _ h
        | inr h =>
          obtain ⟨_, _, h⟩ := h
          exact nomatch h

/-- The reader of strings accepts the spellings of strings. -/
theorem readString_eq_ok_iff {t r : Text} {cs : WideText} :
    readString t = .ok (cs, r) ↔ Chars t cs r :=
  ⟨chars_of_readChars, fun h => readChars_of_chars h (Nat.lt_succ_self _)⟩

/-- No number is read in a string. -/
theorem readString_ne_longInteger (t : Text) (n : Nat) :
    readString t ≠ .error (.longInteger n) :=
  readChars_ne_longInteger _ _ _

/-! ## Halves -/

/-- No two neighbours are the halves of one character. -/
def Parted (w : WideText) : Prop := w.IsChain fun c d => (c.isHigh && d.isLow) = false

/-- A unit is a first half just in the range of first halves. -/
theorem isHigh_ofUnit (n : Nat) : (CodePoint.ofUnit n).isHigh = isHighUnit n := by
  unfold CodePoint.ofUnit
  split
  next h =>
    show decide (n - 0xD800 < 0x400) = isHighUnit n
    rw [isHighUnit, decide_eq_true h.1, Bool.true_and]
    exact decide_eq_decide.mpr (by omega)
  next h =>
    refine (Bool.eq_false_iff.mpr fun hhigh => h ?_).symm
    simp only [isHighUnit, Bool.and_eq_true, decide_eq_true_eq] at hhigh
    omega

/-- And a second half just in that of second halves. -/
theorem isLow_ofUnit (n : Nat) : (CodePoint.ofUnit n).isLow = isLowUnit n := by
  unfold CodePoint.ofUnit
  split
  next h =>
    show decide (0x400 ≤ n - 0xD800) = isLowUnit n
    rw [isLowUnit, decide_eq_true h.2, Bool.and_true]
    exact decide_eq_decide.mpr (by omega)
  next h =>
    refine (Bool.eq_false_iff.mpr fun hlow => h ?_).symm
    simp only [isLowUnit, Bool.and_eq_true, decide_eq_true_eq] at hlow
    omega

/-- A low half is read from a unit of its own. -/
theorem Chars.unit_of_isLow {t r : Text} {d : CodePoint} {cs : WideText}
    (h : Chars t (d :: cs) r) (hd : d.isLow = true) :
    ∃ s m u, t = '\\' :: 'u' :: s ∧ HexUnit s m u ∧ isLowUnit m = true := by
  cases h with
  | plain => exact Bool.noConfusion hd
  | escape h =>
    cases h with
    | letter => exact Bool.noConfusion hd
    | pair => exact Bool.noConfusion hd
    | unit h => exact ⟨_, _, _, rfl, h, (isLow_ofUnit _).symm.trans hd⟩

/-- Halves of one character are not read apart. -/
theorem Chars.parted {t r : Text} {cs : WideText} (h : Chars t cs r) : Parted cs := by
  induction h with
  | close => exact List.IsChain.nil
  | plain _ _ _ _ ih => exact ih.cons fun d _ => rfl
  | escape h hrest ih =>
    refine ih.cons fun d hd => ?_
    cases h with
    | letter => rfl
    | pair => rfl
    | unit hunit hsingle =>
      -- a low half behind it would have been read together with it
      cases hlow : d.isLow with
      | false => exact Bool.and_false _
      | true =>
        obtain ⟨ds, rfl⟩ := List.head?_eq_some_iff.mp hd
        obtain ⟨s, m, u, rfl, hsecond, hm⟩ := hrest.unit_of_isLow hlow
        have hpair := hsingle s m u rfl hsecond
        rwa [hm, ← isHigh_ofUnit] at hpair

/-! ## What follows a string -/

theorem hexValue_quote : hexValue? '"' = none := by decide

/-- A unit does not reach over a quote. -/
theorem HexUnit.of_quote {a r r' u : Text} {n : Nat} (h : HexUnit (a ++ '"' :: r') n u) :
    ∃ v, HexUnit (a ++ '"' :: r) n v := by
  match a with
  | [] => cases h with | digits hd => exact nomatch hexValue_quote.symm.trans hd
  | [_] => cases h with | digits _ hd => exact nomatch hexValue_quote.symm.trans hd
  | [_, _] => cases h with | digits _ _ hd => exact nomatch hexValue_quote.symm.trans hd
  | [_, _, _] =>
    cases h with | digits _ _ _ hd => exact nomatch hexValue_quote.symm.trans hd
  | _ :: _ :: _ :: _ :: b =>
    cases h with | digits hd he hf hg => exact ⟨b ++ '"' :: r, .digits hd he hf hg⟩

/-- A string can be read with anything behind its closing quote. -/
theorem Chars.exists_append {t r : Text} {cs : WideText} (h : Chars t cs r) :
    ∃ a, t = a ++ '"' :: r ∧ ∀ r', Chars (a ++ '"' :: r') cs r' := by
  induction h with
  | @close r => exact ⟨[], rfl, fun r' => .close⟩
  | @plain t r c cs hquote hslash hcontrol hrest ih =>
    obtain ⟨a, rfl, ha⟩ := ih
    exact ⟨c :: a, rfl, fun r' => .plain hquote hslash hcontrol (ha r')⟩
  | @escape t u r c cs hescape hrest ih =>
    obtain ⟨a, rfl, ha⟩ := ih
    cases hescape with
    | @letter d _ _ hd =>
      exact ⟨'\\' :: d :: a, rfl, fun r' => .escape (.letter hd) (ha r')⟩
    | pair hfirst hsecond hhigh hlow =>
      cases hsecond with
      | @digits d e f g i j k l _ hd he hf hg =>
        cases hfirst with
        | @digits d' e' f' g' i' j' k' l' _ hd' he' hf' hg' =>
          exact ⟨'\\' :: 'u' :: d' :: e' :: f' :: g' :: '\\' :: 'u' :: d :: e :: f :: g ::
            a, rfl, fun r' =>
            .escape (.pair (.digits hd' he' hf' hg') (.digits hd he hf hg) hhigh hlow)
              (ha r')⟩
    | @unit _ _ n hunit hsingle =>
      cases hunit with
      | @digits d e f g i j k l _ hd he hf hg =>
        refine ⟨'\\' :: 'u' :: d :: e :: f :: g :: a, rfl, fun r' =>
          .escape (.unit (.digits hd he hf hg) fun s m u heq hunit => ?_) (ha r')⟩
        -- Behind the unit stands no second one with `r`, and a second one would stand
        -- before the closing quote.
        match a with
        | [] => exact nomatch heq
        | [_] => exact nomatch heq
        | _ :: _ :: b =>
          cases heq
          obtain ⟨v, hv⟩ := hunit.of_quote (r := r)
          exact hsingle _ m v rfl hv

end CodeWeave.Json
