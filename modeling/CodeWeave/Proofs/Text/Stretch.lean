import CodeWeave.Proofs.Text.Cut
import Mathlib.Data.List.Infix
import Mathlib.Data.List.TakeWhile

/-!
# Stretches of a text

A stretch that is cut out of a text brings no words with it that the text did not have,
and a word that a character never belongs to does not reach across that character:

> `Occurs.mono`: a word of a stretch is a word of the text.

> `occurs_append_cons_iff`: where two texts are joined by a character that no word holds,
> a word stands in one of them.

So a text that is put together from stretches, with such characters between them, has the
words of the stretches and no others.

> `Trimmed.infix_strip`: a stretch without white space at its ends outlasts the
stripping of the text.

> `Trimmed.strip_append`: of such a text with white space around it
nothing else is stripped.

What every reader does at the head of a text is stated here too: it skips a part that
stands there (`skip_eq_some_iff`), or the white space (`trimStart_append`,
`exists_eq_append_trimStart`).
-/

namespace CodeWeave.Text

/-! ## Characters -/

/-- What a text is made of is checked character by character. -/
theorem forall_mem_of_all {p : Char → Prop} [DecidablePred p] {t : Text}
    (h : (t.all fun c => decide (p c)) = true) : ∀ c ∈ t, p c :=
  fun c hc => of_decide_eq_true (List.all_eq_true.mp h c hc)

/-- What holds of every character of ASCII is checked for their numbers. -/
theorem ascii_cases {p : Char → Prop} (h : ∀ n < 128, p (Char.ofNat n)) {c : Char}
    (hc : c.toNat < 128) : p c := by
  have := h c.toNat hc
  rwa [Char.ofNat_toNat] at this

/-- Letters and digits stand between `0` and `z`. -/
theorem toNat_of_isAlphanum {c : Char} (h : c.isAlphanum = true) :
    48 ≤ c.toNat ∧ c.toNat ≤ 122 := by
  show 48 ≤ c.val.toNat ∧ c.val.toNat ≤ 122
  rcases Bool.or_eq_true_iff.mp h with hletter | hdigit
  · rcases Bool.or_eq_true_iff.mp hletter with hupper | hlower
    · have hrange : 65 ≤ c.val.toNat ∧ c.val.toNat ≤ 90 := of_decide_eq_true hupper
      omega
    · obtain ⟨hfrom, hto⟩ := Bool.and_eq_true_iff.mp hlower
      have hfrom : 97 ≤ c.val.toNat := of_decide_eq_true hfrom
      exact ⟨by omega, of_decide_eq_true hto⟩
  · obtain ⟨hfrom, hto⟩ := Bool.and_eq_true_iff.mp hdigit
    have hto : c.val.toNat ≤ 57 := of_decide_eq_true hto
    exact ⟨of_decide_eq_true hfrom, by omega⟩

theorem lt_of_isAlphanum {c : Char} (h : c.isAlphanum = true) : c.toNat < 128 :=
  Nat.lt_of_le_of_lt (toNat_of_isAlphanum h).2 (by decide)

/-! ## Words -/

section Words

variable {L : Text → Prop}

/-- What occurs in part of a text occurs in the text. -/
theorem Occurs.mono {s t : Text} (hst : s <:+: t) (h : Occurs L s) : Occurs L t := by
  obtain ⟨l, w, r, hs, hw⟩ := h
  obtain ⟨a, b, ht⟩ := hst
  refine ⟨a ++ l, w, r ++ b, ?_, hw⟩
  rw [← ht, hs]
  simp only [List.append_assoc]

/-- No word reaches across a character that no word holds. -/
theorem occurs_append_cons_iff {c : Char} (hne : ∀ w, L w → w ≠ [])
    (hc : ∀ w, L w → c ∉ w) {a b : Text} :
    Occurs L (a ++ c :: b) ↔ Occurs L a ∨ Occurs L b := by
  constructor
  · rintro ⟨l, w, r, htext, hw⟩
    rcases List.append_eq_append_iff.mp htext with ⟨o, _, ho⟩ | ⟨o, ha, ho⟩
    · -- the word starts behind the first text
      cases o with
      | nil =>
        cases w with
        | nil => exact absurd rfl (hne [] hw)
        | cons d w =>
          obtain rfl : c = d := (List.cons.inj ho).1
          exact absurd List.mem_cons_self (hc _ hw)
      | cons d o => exact Or.inr ⟨o, w, r, (List.cons.inj ho).2, hw⟩
    · -- it starts within the first text, and ends before the character
      obtain ⟨z, hz⟩ :=
        prefix_of_append_eq (p := (· ≠ c)) (fun d hd hdc => hc w hw (hdc ▸ hd))
        (fun h => h rfl) ho
      exact Or.inl ⟨l, w, z, by rw [ha, ← hz], hw⟩
  · rintro (h | h)
    · exact h.mono ⟨[], c :: b, rfl⟩
    · exact h.mono ⟨a ++ [c], [], by simp⟩

/-- A character that is in none of the words keeps them from reaching across it. -/
theorem not_occurs_append_cons {c : Char} (hne : ∀ w, L w → w ≠ [])
    (hc : ∀ w, L w → c ∉ w) {a b : Text} (ha : ¬ Occurs L a) (hb : ¬ Occurs L b) :
    ¬ Occurs L (a ++ c :: b) := by
  rw [occurs_append_cons_iff hne hc]
  rintro (h | h)
  · exact ha h
  · exact hb h

theorem not_occurs_nil (hne : ∀ w, L w → w ≠ []) : ¬ Occurs L [] := by
  rintro ⟨l, w, r, htext, hw⟩
  have hnil := (List.append_eq_nil_iff.mp htext.symm).2
  exact hne w hw (List.append_eq_nil_iff.mp hnil).1

/-- Texts joined by a character that no word holds have the words of the texts. -/
theorem not_occurs_intercalate {c : Char} (hne : ∀ w, L w → w ≠ [])
    (hc : ∀ w, L w → c ∉ w) {ts : List Text} (h : ∀ t ∈ ts, ¬ Occurs L t) :
    ¬ Occurs L ([c].intercalate ts) := by
  induction ts with
  | nil => exact not_occurs_nil hne
  | cons t ts ih =>
    have ht := h t List.mem_cons_self
    have hrest := ih fun u hu => h u (List.mem_cons_of_mem t hu)
    cases ts with
    | nil =>
      rw [List.intercalate_singleton]
      exact ht
    | cons u us =>
      rw [List.intercalate_cons_cons, List.append_assoc]
      exact not_occurs_append_cons hne hc ht hrest

end Words

/-! ## Stretches -/

/-- Each of the joined texts stands in the whole as it is. -/
theorem infix_intercalate {c : Char} {ts : List Text} {t : Text} (h : t ∈ ts) :
    t <:+: [c].intercalate ts := by
  induction ts with
  | nil => exact absurd h List.not_mem_nil
  | cons u us ih =>
    cases us with
    | nil =>
      have hone : [c].intercalate [u] = t := by
        rw [List.intercalate_singleton, List.mem_singleton.mp h]
      exact hone ▸ List.infix_rfl
    | cons v vs =>
      rw [List.intercalate_cons_cons]
      rcases List.mem_cons.mp h with rfl | h
      · exact ⟨[], [c] ++ [c].intercalate (v :: vs), (List.append_assoc _ _ _).symm⟩
      · exact (ih h).trans (List.suffix_append (u ++ [c]) _).isInfix

/-! ## Reading at the head -/

/-- Skipping succeeds just behind the part. -/
theorem skip_eq_some_iff {part t r : Text} : skip part t = some r ↔ t = part ++ r := by
  rw [skip, List.isPrefixOf?_eq_some_iff_append_eq]
  exact eq_comm

theorem skip_append (part r : Text) : skip part (part ++ r) = some r :=
  skip_eq_some_iff.mpr rfl

/-- An ending is dropped from in front of nothing else. -/
theorem dropEnding_append (t ending : Text) :
    dropEnding? ending (t ++ ending) = some t := by
  have hsuffix : ending.isSuffixOf (t ++ ending) = true :=
    List.isSuffixOf_iff_suffix.mpr (List.suffix_append t ending)
  rw [dropEnding?, if_pos hsuffix, List.length_append, Nat.add_sub_cancel, List.take_left]

/-- White space in front of a text is trimmed with what the text starts with. -/
theorem trimStart_append {s : Text} (hs : ∀ c ∈ s, isBlank c = true) (r : Text) :
    trimStart (s ++ r) = trimStart r := List.dropWhile_append_of_pos hs

theorem trimStart_cons {c : Char} (hc : isBlank c = false) (r : Text) :
    trimStart (c :: r) = c :: r := by
  rw [trimStart, List.dropWhile_cons, hc]
  rfl

/-- What is trimmed is white space. -/
theorem exists_eq_append_trimStart (t : Text) :
    ∃ s, (∀ c ∈ s, isBlank c = true) ∧ t = s ++ trimStart t :=
  ⟨t.takeWhile isBlank, fun _ hc => List.mem_takeWhile_imp hc,
    List.takeWhile_append_dropWhile.symm⟩

/-- The head of a text splits at the first character that a test refuses. -/
theorem takeWhile_append_of_neg {p : Char → Bool} {w : Text} (hw : ∀ c ∈ w, p c = true)
    {d : Char} (hd : p d = false) (r : Text) :
    (w ++ d :: r).takeWhile p = w ∧ (w ++ d :: r).dropWhile p = d :: r := by
  rw [List.takeWhile_append_of_pos hw, List.dropWhile_append_of_pos hw,
    List.takeWhile_cons, List.dropWhile_cons, hd]
  exact ⟨List.append_nil w, rfl⟩

/-! ## White space at the ends -/

theorem suffix_trimStart (t : Text) : trimStart t <:+ t := List.dropWhile_suffix isBlank

theorem prefix_trimEnd (t : Text) : trimEnd t <+: t := by
  rw [← List.reverse_suffix, trimEnd, List.reverse_reverse]
  exact List.dropWhile_suffix isBlank

/-- A stripped text stands in the text that it came from. -/
theorem infix_strip (t : Text) : strip t <:+: t :=
  (prefix_trimEnd (trimStart t)).isInfix.trans (suffix_trimStart t).isInfix

/-- The text has no white space at its ends. -/
structure Trimmed (t : Text) : Prop where
  head : ∀ c ∈ t.head?, isBlank c = false
  last : ∀ c ∈ t.getLast?, isBlank c = false

/-- A trimmed text starts with no white space. -/
theorem head_trimStart (t : Text) : ∀ c ∈ (trimStart t).head?, isBlank c = false := by
  intro c hc
  have hhead := List.head?_dropWhile_not isBlank t
  rw [← trimStart, Option.mem_def.mp hc] at hhead
  exact hhead

/-- Neither does a stripped text, nor does it end with any. -/
theorem trimmed_strip (t : Text) : Trimmed (strip t) where
  head := by
    intro c hc
    refine head_trimStart t c ?_
    obtain ⟨r, hr⟩ := prefix_trimEnd (trimStart t)
    rw [← hr, List.head?_append, ← strip, Option.mem_def.mp hc]
    rfl
  last := by
    intro c hc
    refine head_trimStart (trimStart t).reverse c ?_
    rwa [strip, trimEnd, List.getLast?_reverse] at hc

/-- Trimming the start of a text takes nothing from a stretch that does not start
with white space. -/
theorem exists_trimStart_append {w : Text} (hne : w ≠ [])
    (hw : ∀ c ∈ w.head?, isBlank c = false) (a r : Text) :
    ∃ a', trimStart (a ++ (w ++ r)) = a' ++ (w ++ r) := by
  refine ⟨trimStart a, ?_⟩
  cases w with
  | nil => exact absurd rfl hne
  | cons c cs =>
    have hc : isBlank c = false := hw c rfl
    unfold trimStart
    rw [List.dropWhile_append, List.cons_append,
      List.dropWhile_cons_of_neg (by rw [hc]; exact Bool.false_ne_true)]
    split
    next hnil => rw [List.isEmpty_iff.mp hnil, List.nil_append]
    next => rfl

/-- A part of the text without white space at its ends survives stripping. -/
theorem Trimmed.infix_strip {w t : Text} (hw : Trimmed w) (h : w <:+: t) :
    w <:+: strip t := by
  by_cases hne : w = []
  · rw [hne]
    exact List.nil_infix
  · obtain ⟨a, r, ht⟩ := h
    obtain ⟨a', ha'⟩ := exists_trimStart_append hne hw.head a r
    have hlast : ∀ c ∈ w.reverse.head?, isBlank c = false := by
      rw [List.head?_reverse]
      exact hw.last
    obtain ⟨r', hr'⟩ :=
      exists_trimStart_append (by simpa using hne) hlast r.reverse a'.reverse
    have hreverse :
        (a' ++ (w ++ r)).reverse = r.reverse ++ (w.reverse ++ a'.reverse) := by
      simp only [List.reverse_append, List.append_assoc]
    refine ⟨a', r'.reverse, ?_⟩
    calc a' ++ w ++ r'.reverse = (r' ++ (w.reverse ++ a'.reverse)).reverse := by simp
      _ = trimEnd (a' ++ (w ++ r)) := by rw [← hr', ← hreverse]; rfl
      _ = strip t := by rw [← ha', ← List.append_assoc, ht]; rfl

theorem trimStart_of_head {t : Text} (h : ∀ c ∈ t.head?, isBlank c = false) :
    trimStart t = t := by
  cases t with
  | nil => rfl
  | cons c t => exact trimStart_cons (h c rfl) t

/-- White space behind a text is trimmed, up to the last other character. -/
theorem trimEnd_append {t back : Text} (hback : ∀ c ∈ back, isBlank c = true)
    (ht : ∀ c ∈ t.getLast?, isBlank c = false) : trimEnd (t ++ back) = t := by
  have hfront : ∀ c ∈ back.reverse, isBlank c = true :=
    fun c hc => hback c (List.mem_reverse.mp hc)
  have hhead : ∀ c ∈ t.reverse.head?, isBlank c = false := by
    rw [List.head?_reverse]
    exact ht
  rw [trimEnd, List.reverse_append, ← trimStart, trimStart_append hfront,
    trimStart_of_head hhead, List.reverse_reverse]

/-- What is stripped of white space around it is the text, if it has none
at its own ends. -/
theorem Trimmed.strip_append {front t back : Text} (ht : Trimmed t) (hne : t ≠ [])
    (hfront : ∀ c ∈ front, isBlank c = true) (hback : ∀ c ∈ back, isBlank c = true) :
    strip (front ++ t ++ back) = t := by
  have hhead : ∀ c ∈ (t ++ back).head?, isBlank c = false := by
    obtain ⟨c, u, rfl⟩ := List.exists_cons_of_ne_nil hne
    exact ht.head
  rw [strip, List.append_assoc, trimStart_append hfront, trimStart_of_head hhead,
    trimEnd_append hback ht.last]

end CodeWeave.Text
