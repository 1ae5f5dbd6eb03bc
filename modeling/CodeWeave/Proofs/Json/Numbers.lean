import CodeWeave.Json.Read
import Mathlib.Data.List.TakeWhile

/-!
# Numbers of JSON

A number is an optional minus sign, a whole part without leading zeros, and perhaps a
fraction and an exponent. Each part is as long as it can be, so a number is read in one
way from the text that it stands in:

> `readNumeral_eq_some_iff`: the reader accepts the numbers that are described here.
-/

namespace CodeWeave.Json

open Text

/-! ## Digits -/

/-- The digits `ds` stand at the head of `t`: at least one, all up to `r`. -/
structure Digits (t ds r : Text) : Prop where
  split : t = ds ++ r
  ne_nil : ds ≠ []
  digits : ∀ c ∈ ds, c.isDigit = true
  stop : ∀ c ∈ r.head?, c.isDigit = false

/-- Digits are all there are at the head, so they are what the reader takes. -/
theorem digits_iff {t ds r : Text} :
    Digits t ds r ↔
      t.takeWhile Char.isDigit = ds ∧ t.dropWhile Char.isDigit = r ∧ ds ≠ [] := by
  constructor
  · intro h
    obtain ⟨rfl, hne, hdigits, hstop⟩ := h
    rw [List.takeWhile_append_of_pos hdigits, List.dropWhile_append_of_pos hdigits]
    cases r with
    | nil => exact ⟨List.append_nil _, rfl, hne⟩
    | cons c r =>
      have hc : c.isDigit = false := hstop c rfl
      refine ⟨?_, ?_, hne⟩
      · rw [List.takeWhile_cons, hc]
        exact List.append_nil _
      · rw [List.dropWhile_cons, hc]
        rfl
  · intro h
    obtain ⟨rfl, rfl, hne⟩ := h
    refine ⟨List.takeWhile_append_dropWhile.symm, hne, fun c hc => ?_, fun c hc => ?_⟩
    · exact List.mem_takeWhile_imp hc
    · have hhead := List.head?_dropWhile_not Char.isDigit t
      rw [Option.mem_def.mp hc] at hhead
      exact hhead

/-- Where digits stand the reader takes at least one. -/
theorem Digits.isEmpty {t ds r : Text} (h : Digits t ds r) :
    (t.takeWhile Char.isDigit).isEmpty = false := by
  obtain ⟨hds, -, hne⟩ := digits_iff.mp h
  rw [hds, List.isEmpty_eq_false_iff]
  exact hne

/-- What the reader takes are digits, if it takes any. -/
theorem digits_self {t : Text} (h : (t.takeWhile Char.isDigit).isEmpty = false) :
    Digits t (t.takeWhile Char.isDigit) (t.dropWhile Char.isDigit) :=
  digits_iff.mpr ⟨rfl, rfl, List.isEmpty_eq_false_iff.mp h⟩

/-- Digits start with a digit. -/
theorem Digits.exists_cons {t ds r : Text} (h : Digits t ds r) :
    ∃ c u, t = c :: u ∧ c.isDigit = true := by
  obtain ⟨rfl, hne, hdigits, -⟩ := h
  obtain ⟨c, cs, rfl⟩ := List.exists_cons_of_ne_nil hne
  exact ⟨c, cs ++ r, rfl, hdigits c List.mem_cons_self⟩

/-! ## Parts -/

/-- The whole part of a number: a zero, or digits of which the first is another one. -/
inductive Whole : Text → Text → Text → Prop
  | zero {r : Text} : Whole ('0' :: r) ['0'] r
  | digits {t ds r : Text} (h : Digits t ds r) (hzero : t.head? ≠ some '0') : Whole t ds r

/-- The fraction of a number: a point with digits behind it, or nothing if that
does not follow. -/
inductive Fraction : Text → Option Text → Text → Prop
  | point {t ds r : Text} (h : Digits t ds r) : Fraction ('.' :: t) (some ds) r
  | none {t : Text} (h : ∀ u ds r, t = '.' :: u → ¬ Digits u ds r) : Fraction t none t

/-- The sign of an exponent: true if it is a minus sign. -/
inductive Sign : Text → Bool → Text → Prop
  | minus {t : Text} : Sign ('-' :: t) true t
  | plus {t : Text} : Sign ('+' :: t) false t
  | none {t : Text} (hminus : t.head? ≠ some '-') (hplus : t.head? ≠ some '+') :
      Sign t false t

/-- The exponent of a number: its letter with a sign and digits, or nothing if that
does not follow. -/
inductive Exponent : Text → Option Int → Text → Prop
  | letter {t u ds r : Text} {e : Char} {negative : Bool} (he : e = 'e' ∨ e = 'E')
      (hsign : Sign t negative u)
      (h : Digits u ds r) :
      Exponent (e :: t)
        (some (if negative then -(digitsValue ds : Int) else digitsValue ds)) r
  | none {t : Text} (h : ∀ e u negative v ds r, t = e :: u → (e = 'e' ∨ e = 'E') →
      Sign u negative v →
      ¬ Digits v ds r) : Exponent t none t

/-- A number at the head of a text, and what follows it. -/
inductive Number : Text → Numeral → Text → Prop
  | positive {t u v r whole : Text} {fraction : Option Text} {exponent : Option Int}
      (hwhole : Whole t whole u)
      (hfraction : Fraction u fraction v) (hexponent : Exponent v exponent r) :
      Number t ⟨false, whole, fraction, exponent⟩ r
  | negative {t u v r whole : Text} {fraction : Option Text} {exponent : Option Int}
      (hwhole : Whole t whole u)
      (hfraction : Fraction u fraction v) (hexponent : Exponent v exponent r) :
      Number ('-' :: t) ⟨true, whole, fraction, exponent⟩ r

/-- The reader takes a zero by itself, and in front of any other digit all of them. -/
theorem readWhole_eq_some_iff {t ds r : Text} :
    readWhole t = some (ds, r) ↔ Whole t ds r := by
  constructor
  · intro h
    unfold readWhole at h
    split at h
    next =>
      cases h
      exact .zero
    next c u hzero =>
      split at h
      next hc =>
        cases h
        refine .digits (digits_self ?_) ?_
        · rw [List.takeWhile_cons, hc]
          rfl
        · intro hhead
          exact hzero (Option.some.inj hhead)
      next => exact nomatch h
    next => exact nomatch h
  · intro h
    cases h with
    | zero => rfl
    | digits h hzero =>
      obtain ⟨c, u, rfl, hc⟩ := h.exists_cons
      obtain ⟨hds, hr, -⟩ := digits_iff.mp h
      rw [readWhole]
      · rw [if_pos hc, hds, hr]
      · intro heq
        rw [heq] at hzero
        exact hzero rfl

/-- The fraction that is read is one: where the reader finds none, no digits
follow a point. -/
theorem fraction_readFraction (t : Text) :
    Fraction t (readFraction t).1 (readFraction t).2 := by
  unfold readFraction
  split
  next u =>
    cases hempty : (u.takeWhile Char.isDigit).isEmpty with
    | true =>
      refine .none fun v ds r heq hdigits => ?_
      cases heq
      rw [hdigits.isEmpty] at hempty
      exact Bool.noConfusion hempty
    | false => exact .point (digits_self hempty)
  next hpoint => exact .none fun u ds r heq _ => hpoint u heq

/-- A text has no other fraction than the one that is read. -/
theorem readFraction_of_fraction {t r : Text} {f : Option Text} (h : Fraction t f r) :
    readFraction t = (f, r) := by
  cases h with
  | point h =>
    obtain ⟨hds, hr, -⟩ := digits_iff.mp h
    show (if List.isEmpty _ = true then _ else _) = _
    rw [if_neg (Bool.eq_false_iff.mp h.isEmpty), hds, hr]
  | none h =>
    unfold readFraction
    split
    next u =>
      cases hempty : (u.takeWhile Char.isDigit).isEmpty with
      | true => rfl
      | false => exact absurd (digits_self hempty) (h u _ _ rfl)
    next => rfl

/-- The digits behind the sign of an exponent. -/
theorem readExponent_of_sign {e : Char} {t u : Text} {negative : Bool}
    (he : e = 'e' ∨ e = 'E') (hsign : Sign t negative u) :
    readExponent (e :: t) = readExponentDigits negative (e :: t) u := by
  have hletter : (e == 'e' || e == 'E') = true := by
    cases he with
    | inl he => rw [he]; rfl
    | inr he => rw [he]; rfl
  simp only [readExponent, hletter, if_true]
  cases hsign with
  | minus => rfl
  | plus => rfl
  | none hminus hplus =>
    split
    next => exact absurd rfl hminus
    next => exact absurd rfl hplus
    next => rfl

/-- Every text can be read as one behind a sign, which may be missing. -/
theorem exists_sign (t : Text) : ∃ negative u, Sign t negative u := by
  by_cases hminus : t.head? = some '-'
  · obtain ⟨u, rfl⟩ := List.head?_eq_some_iff.mp hminus
    exact ⟨true, u, .minus⟩
  · by_cases hplus : t.head? = some '+'
    · obtain ⟨u, rfl⟩ := List.head?_eq_some_iff.mp hplus
      exact ⟨false, u, .plus⟩
    · exact ⟨false, t, .none hminus hplus⟩

/-- A sign that is there is not passed over. -/
theorem Sign.unique {t u v : Text} {a b : Bool} (h : Sign t a u) (h' : Sign t b v) :
    a = b ∧ u = v := by
  cases h with
  | minus =>
    cases h' with
    | minus => exact ⟨rfl, rfl⟩
    | none hminus hplus => exact absurd rfl hminus
  | plus =>
    cases h' with
    | plus => exact ⟨rfl, rfl⟩
    | none hminus hplus => exact absurd rfl hplus
  | none hminus hplus =>
    cases h' with
    | minus => exact absurd rfl hminus
    | plus => exact absurd rfl hplus
    | none => exact ⟨rfl, rfl⟩

/-- The exponent that is read is one. A letter without digits behind its
sign starts none. -/
theorem exponent_readExponent (t : Text) :
    Exponent t (readExponent t).1 (readExponent t).2 := by
  cases t with
  | nil => exact .none fun e u negative v ds r heq => nomatch heq
  | cons e t =>
    by_cases he : e = 'e' ∨ e = 'E'
    · obtain ⟨negative, u, hsign⟩ := exists_sign t
      rw [readExponent_of_sign he hsign]
      unfold readExponentDigits
      cases hempty : (u.takeWhile Char.isDigit).isEmpty with
      | true =>
        refine .none fun e' t' negative' v ds r heq _ hsign' hdigits => ?_
        cases heq
        rw [← (hsign.unique hsign').2] at hdigits
        rw [hdigits.isEmpty] at hempty
        exact Bool.noConfusion hempty
      | false => exact .letter he hsign (digits_self hempty)
    · have hletter : ¬ (e == 'e' || e == 'E') = true := by simpa using he
      have hnone : readExponent (e :: t) = (none, e :: t) := if_neg hletter
      rw [hnone]
      refine .none fun e' t' negative v ds r heq he' => ?_
      cases heq
      exact absurd he' he

/-- A text has no other exponent than the one that is read. -/
theorem readExponent_of_exponent {t r : Text} {e : Option Int} (h : Exponent t e r) :
    readExponent t = (e, r) := by
  cases h with
  | letter he hsign h =>
    obtain ⟨hds, hr, -⟩ := digits_iff.mp h
    rw [readExponent_of_sign he hsign]
    unfold readExponentDigits
    rw [if_neg (Bool.eq_false_iff.mp h.isEmpty), hds, hr]
  | none h =>
    have hread := exponent_readExponent t
    generalize readExponent t = p at hread ⊢
    obtain ⟨f, u⟩ := p
    cases hread with
    | letter he hsign hdigits => exact absurd hdigits (h _ _ _ _ _ _ rfl he hsign)
    | none => rfl

/-! ## Numbers -/

/-- A whole part has at least one digit. -/
theorem Whole.head {t ds r : Text} (h : Whole t ds r) :
    ∃ c u, t = c :: u ∧ c.isDigit = true := by
  cases h with
  | zero => exact ⟨'0', _, rfl, rfl⟩
  | digits h => exact h.exists_cons

/-- What is read behind the sign. -/
def readUnsigned (negative : Bool) (t : Text) : Option (Numeral × Text) :=
  (readWhole t).map fun (whole, u) =>
    (⟨negative, whole, (readFraction u).1, (readExponent (readFraction u).2).1⟩,
      (readExponent (readFraction u).2).2)

theorem readNumeral_minus (t : Text) : readNumeral ('-' :: t) = readUnsigned true t := by
  simp only [readNumeral, readUnsigned]
  cases readWhole t <;> rfl

/-- Without a minus sign the number starts with its whole part. -/
theorem readNumeral_of_no_minus {t : Text} (h : t.head? ≠ some '-') :
    readNumeral t = readUnsigned false t := by
  have hsign : ∀ u, t ≠ '-' :: u := by
    intro u hu
    rw [hu] at h
    exact h rfl
  unfold readNumeral readUnsigned
  split
  next negative u heq =>
    split at heq
    next u' => exact absurd rfl (hsign u')
    next =>
      cases heq
      cases readWhole t <;> rfl

/-- Each part is read behind the one before, so the parts can be taken one by one. -/
theorem readUnsigned_eq_some_iff {negative : Bool} {t r : Text} {n : Numeral} :
    readUnsigned negative t = some (n, r) ↔ ∃ whole u fraction v exponent,
      n = ⟨negative, whole, fraction, exponent⟩ ∧ Whole t whole u ∧
        Fraction u fraction v ∧
        Exponent v exponent r := by
  unfold readUnsigned
  rw [Option.map_eq_some_iff]
  constructor
  · intro h
    obtain ⟨⟨whole, u⟩, hwhole, heq⟩ := h
    cases heq
    exact ⟨whole, u, _, _, _, rfl, readWhole_eq_some_iff.mp hwhole,
      fraction_readFraction u,
      exponent_readExponent _⟩
  · intro h
    obtain ⟨whole, u, fraction, v, exponent, rfl, hwhole, hfraction, hexponent⟩ := h
    refine ⟨(whole, u), readWhole_eq_some_iff.mpr hwhole, ?_⟩
    simp only [readFraction_of_fraction hfraction, readExponent_of_exponent hexponent]

/-- The reader accepts just the numbers, and gives their parts. -/
theorem readNumeral_eq_some_iff {t r : Text} {n : Numeral} :
    readNumeral t = some (n, r) ↔ Number t n r := by
  constructor
  · intro h
    by_cases hminus : t.head? = some '-'
    · obtain ⟨u, rfl⟩ := List.head?_eq_some_iff.mp hminus
      rw [readNumeral_minus] at h
      obtain ⟨whole, v, fraction, w, exponent, rfl, hwhole, hfraction, hexponent⟩ :=
        readUnsigned_eq_some_iff.mp h
      exact .negative hwhole hfraction hexponent
    · rw [readNumeral_of_no_minus hminus] at h
      obtain ⟨whole, v, fraction, w, exponent, rfl, hwhole, hfraction, hexponent⟩ :=
        readUnsigned_eq_some_iff.mp h
      exact .positive hwhole hfraction hexponent
  · intro h
    cases h with
    | positive hwhole hfraction hexponent =>
      have hminus : t.head? ≠ some '-' := by
        obtain ⟨c, u, rfl, hc⟩ := hwhole.head
        intro heq
        rw [Option.some.inj heq] at hc
        exact absurd hc (by decide)
      rw [readNumeral_of_no_minus hminus]
      exact readUnsigned_eq_some_iff.mpr ⟨_, _, _, _, _, rfl, hwhole,
        hfraction, hexponent⟩
    | negative hwhole hfraction hexponent =>
      rw [readNumeral_minus]
      exact readUnsigned_eq_some_iff.mpr ⟨_, _, _, _, _, rfl, hwhole,
        hfraction, hexponent⟩

/-! ## Where a number starts and ends -/

/-- A whole part is digits, and what follows stands behind them. -/
theorem Whole.spec {t ds r : Text} (h : Whole t ds r) :
    t = ds ++ r ∧ ds ≠ [] ∧ ∀ c ∈ ds, c.isDigit = true := by
  cases h with
  | zero =>
    refine ⟨rfl, List.cons_ne_nil _ _, fun c hc => ?_⟩
    rw [List.mem_singleton.mp hc]
    rfl
  | digits h => exact ⟨h.split, h.ne_nil, h.digits⟩

/-- What follows a fraction stands at the end of the text. -/
theorem Fraction.suffix {t r : Text} {f : Option Text}
    (h : Fraction t f r) : r <:+ t := by
  cases h with
  | point h =>
    exact (h.split ▸ List.suffix_append _ _ : r <:+ _).trans (List.suffix_cons _ _)
  | none => exact List.suffix_rfl

theorem Sign.suffix {t u : Text} {negative : Bool} (h : Sign t negative u) : u <:+ t := by
  cases h with
  | minus => exact List.suffix_cons _ _
  | plus => exact List.suffix_cons _ _
  | none => exact List.suffix_rfl

/-- What follows an exponent stands at the end of the text. -/
theorem Exponent.suffix {t r : Text} {e : Option Int} (h : Exponent t e r) : r <:+ t := by
  cases h with
  | letter he hsign h =>
    have hdigits : r <:+ _ := h.split ▸ List.suffix_append _ _
    exact (hdigits.trans hsign.suffix).trans (List.suffix_cons _ _)
  | none => exact List.suffix_rfl

/-- The whole part of a number stands in its text, and what follows the number
stands behind that. -/
theorem Number.exists_split {t r : Text} {n : Numeral} (h : Number t n r) :
    ∃ front u, t = front ++ (n.whole ++ u) ∧ n.whole ≠ [] ∧
      (∀ c ∈ n.whole, c.isDigit = true) ∧ r <:+ u := by
  cases h with
  | positive hwhole hfraction hexponent =>
    obtain ⟨rfl, hne, hdigits⟩ := hwhole.spec
    exact ⟨[], _, rfl, hne, hdigits, hexponent.suffix.trans hfraction.suffix⟩
  | negative hwhole hfraction hexponent =>
    obtain ⟨rfl, hne, hdigits⟩ := hwhole.spec
    exact ⟨['-'], _, rfl, hne, hdigits, hexponent.suffix.trans hfraction.suffix⟩

/-- A number starts with a digit, or with a minus sign and a digit. -/
theorem Number.head {t r : Text} {n : Numeral} (h : Number t n r) :
    ∃ c u, c.isDigit = true ∧ (t = c :: u ∨ t = '-' :: c :: u) := by
  cases h with
  | positive hwhole =>
    obtain ⟨c, u, rfl, hc⟩ := hwhole.head
    exact ⟨c, u, hc, Or.inl rfl⟩
  | negative hwhole =>
    obtain ⟨c, u, rfl, hc⟩ := hwhole.head
    exact ⟨c, u, hc, Or.inr rfl⟩

end CodeWeave.Json
