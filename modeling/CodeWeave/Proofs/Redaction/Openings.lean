import CodeWeave.Proofs.Redaction.Names
import CodeWeave.Proofs.Text.Stretch

/-!
# Assigned secrets across a seam

A secret is a name, a separator and a quoted value, and the value may be anything up to
the next quote. So a text that ends within a value, after its opening quote, `LeavesOpen`
an assignment, and any later text `HasQuote` to close it. Between two texts that are kept
apart by a `Barrier` there is no other way:

> `Barrier.occurs_iff`: a secret across a barrier is opened in front of it
and closed behind it.

A text that is put together from parts with barriers between them is `Assembled`, and a
search for secrets in it is a question about its parts:

> `Assembled.not_occurs_iff`: there is no secret in it exactly if the parts are
> `Sealed`: none holds a secret, and no part that leaves an assignment open is followed
> by one with a quote.
-/

namespace CodeWeave.Sensitive

open Text

/-! ## Openings -/

/-- The beginning of an assignment, up to the opening quote of its value. -/
inductive IsOpening : Text → Prop where
  | mk (key s₁ : Text) (x : Char) (s₂ : Text) (q : Char) (name : IsName key)
      (blanks₁ : ∀ c ∈ s₁, isBlank c = true) (separator : x = ':' ∨ x = '=')
      (blanks₂ : ∀ c ∈ s₂, isBlank c = true) (opening : isQuote q = true) :
      IsOpening (key ++ (s₁ ++ x :: (s₂ ++ [q])))

/-- Some quote stands in the text. -/
def HasQuote (t : Text) : Prop := ∃ c ∈ t, isQuote c = true

/-- The text ends within the value of an assignment. -/
def LeavesOpen (t : Text) : Prop :=
  ∃ l o r, t = l ++ (o ++ r) ∧ IsOpening o ∧ ¬ HasQuote r

/-- A secret is an opening, a value without quotes, and a closing quote. -/
theorem isSecret_iff {w : Text} :
    IsSecret w ↔ ∃ o v q, w = o ++ (v ++ [q]) ∧ IsOpening o ∧ v ≠ [] ∧ ¬ HasQuote v ∧
      isQuote q = true := by
  constructor
  · rintro ⟨key, _, name, ⟨s₁, x, s₂, q, v, q', hs₁, hsep, hs₂, hq, hne, hv, hq'⟩⟩
    refine ⟨key ++ (s₁ ++ x :: (s₂ ++ [q])), v, q', by simp,
      .mk key s₁ x s₂ q name hs₁ hsep hs₂ hq,
      hne, ?_, hq'⟩
    rintro ⟨c, hc, hquote⟩
    rw [hv c hc] at hquote
    exact Bool.noConfusion hquote
  · rintro ⟨_, v, q', rfl, ⟨key, s₁, x, s₂, q, name, hs₁, hsep, hs₂, hq⟩, hne, hv, hq'⟩
    have hvalue : ∀ c ∈ v, isQuote c = false := fun c hc =>
      Bool.eq_false_iff.mpr fun hquote => hv ⟨c, hc, hquote⟩
    have hassigned : IsAssigned (s₁ ++ x :: (s₂ ++ q :: (v ++ [q']))) :=
      .mk s₁ x s₂ q v q' hs₁ hsep hs₂ hq hne hvalue hq'
    have hword := IsSecret.mk key _ name hassigned
    simpa using hword

/-- What an opening is made of. -/
def isOpeningChar (c : Char) : Bool :=
  isNameChar c || isBlank c || c == ':' || c == '=' || isQuote c

theorem IsOpening.chars {o : Text} (h : IsOpening o) :
    ∀ c ∈ o, isOpeningChar c = true := by
  obtain ⟨key, s₁, x, s₂, q, name, hs₁, hsep, hs₂, hq⟩ := h
  intro c hc
  unfold isOpeningChar
  simp only [List.mem_append, List.mem_cons, List.not_mem_nil, or_false] at hc
  rcases hc with hc | hc | rfl | hc | rfl
  · simp [name.chars c hc]
  · simp [hs₁ c hc]
  · rcases hsep with rfl | rfl <;> decide
  · simp [hs₂ c hc]
  · simp [hq]

/-- An opening ends in a quote. -/
theorem IsOpening.exists_concat {o : Text} (h : IsOpening o) :
    ∃ u q, o = u ++ [q] ∧ isQuote q = true := by
  obtain ⟨key, s₁, x, s₂, q, _, _, _, _, hq⟩ := h
  exact ⟨key ++ (s₁ ++ x :: s₂), q, by simp, hq⟩

/-- Whatever an opening ends in has a quote. -/
theorem IsOpening.hasQuote_of_append {o e z : Text} (h : IsOpening o) (ho : o = e ++ z)
    (hz : z ≠ []) :
    HasQuote z := by
  obtain ⟨u, q, hu, hq⟩ := h.exists_concat
  refine ⟨q, ?_, hq⟩
  have hlast : z.getLast? = some q := by
    rw [← List.getLast?_append_of_ne_nil e hz, ← ho, hu, List.getLast?_concat]
  exact List.mem_of_getLast? hlast

/-- No opening starts at a text that starts apart from every name. -/
theorem IsOpening.append_ne {o z : Text} (h : IsOpening o)
    (hz : ∀ word ∈ secretWords, Apart word (z.map foldCase)) (r b : Text) :
    o ++ r ≠ z ++ b := by
  obtain ⟨key, s₁, x, s₂, q, name, _⟩ := h
  rw [List.append_assoc]
  exact (hz _ name).append_ne_of_fold _ _

/-! ## Barriers -/

/-- A text that keeps what stands before it apart from what stands behind it: no name
starts in it, it has no quote, and it or the end of `a`, which stands before it, has a
character of no opening. -/
structure Barrier (a f : Text) : Prop where
  nonempty : f ≠ []
  quoteless : ¬ HasQuote f
  outset : ∀ z ∈ f.tails, z ≠ [] → ∀ word ∈ secretWords, Apart word (z.map foldCase)
  stop : ∃ c, isOpeningChar c = false ∧ (c ∈ f ∨ a.getLast? = some c)

section Seam

variable {a f b : Text}

/-- An opening stands before a barrier or behind it. -/
theorem Barrier.place (h : Barrier a f) {l o r : Text} (ho : IsOpening o)
    (htext : a ++ f ++ b = l ++ (o ++ r)) :
    (∃ z, a = l ++ (o ++ z) ∧ r = z ++ (f ++ b)) ∨
      ∃ z, l = a ++ f ++ z ∧ b = z ++ (o ++ r) := by
  have houtset : ∀ {z : Text}, z <:+ f → z ≠ [] → o ++ r ≠ z ++ b := fun hz hne =>
    ho.append_ne (h.outset _ ((List.mem_tails _ _).mpr hz) hne) r b
  rw [List.append_assoc] at htext
  rcases List.append_eq_append_iff.mp htext with ⟨e, hl, hfb⟩ | ⟨e, ha, hor⟩
  · -- it starts behind `a`, and not within the barrier
    rcases List.append_eq_append_iff.mp hfb with ⟨z, he, hb⟩ | ⟨z, hf, hor⟩
    · exact Or.inr ⟨z, by rw [hl, he, List.append_assoc], hb⟩
    · cases z with
      | nil =>
        refine Or.inr ⟨[], ?_, by simpa using hor.symm⟩
        rw [hl, hf, List.append_nil, List.append_nil]
      | cons c z => exact absurd hor (houtset ⟨e, hf.symm⟩ (List.cons_ne_nil c z))
  · -- it starts in `a`, and ends there
    rcases List.append_eq_append_iff.mp hor with ⟨z, he, hr⟩ | ⟨z, ho', hfb⟩
    · exact Or.inl ⟨z, by rw [ha, he], hr⟩
    · cases e with
      | nil =>
        exact absurd (show o ++ r = f ++ b by rw [ho', hfb]; rfl)
          (houtset List.suffix_rfl h.nonempty)
      | cons c e =>
        cases z with
        | nil =>
          refine Or.inl ⟨[], ?_, by simpa using hfb.symm⟩
          rw [ha, ho', List.append_nil, List.append_nil]
        | cons d z =>
          exfalso
          have hquote := ho.hasQuote_of_append ho' (List.cons_ne_nil d z)
          rcases List.append_eq_append_iff.mp hfb with ⟨y, hz, _⟩ | ⟨y, hf, _⟩
          · -- the whole barrier would belong to the opening
            obtain ⟨s, hs, hmem⟩ := h.stop
            have hchar : isOpeningChar s = true := by
              refine ho.chars s ?_
              rcases hmem with hmem | hmem
              · rw [ho', hz]
                exact List.mem_append_right _ (List.mem_append_left y hmem)
              · rw [ha, List.getLast?_append_of_ne_nil l (List.cons_ne_nil c e)] at hmem
                rw [ho']
                exact List.mem_append_left _ (List.mem_of_getLast? hmem)
            rw [hs] at hchar
            exact Bool.noConfusion hchar
          · obtain ⟨q, hq, hisQuote⟩ := hquote
            exact h.quoteless ⟨q, by rw [hf]; exact List.mem_append_left y hq, hisQuote⟩

theorem hasQuote_append {s t : Text} : HasQuote (s ++ t) ↔ HasQuote s ∨ HasQuote t := by
  unfold HasQuote
  simp only [List.mem_append, or_and_right, exists_or]

theorem Barrier.hasQuote_iff (h : Barrier a f) :
    HasQuote (a ++ f ++ b) ↔ HasQuote a ∨ HasQuote b := by
  rw [hasQuote_append, hasQuote_append]
  exact ⟨fun hq => hq.elim (fun hq => hq.elim Or.inl fun hf => absurd hf h.quoteless)
    Or.inr,
    fun hq => hq.elim (fun hq => Or.inl (Or.inl hq)) Or.inr⟩

/-- A text with a quote splits at the first one. -/
theorem exists_of_hasQuote {t : Text} (h : HasQuote t) :
    ∃ u q r, t = u ++ q :: r ∧ ¬ HasQuote u ∧ isQuote q = true := by
  obtain ⟨c, hc, hq⟩ := h
  obtain ⟨u, q, r, ht, hu, hq'⟩ := exists_first_quote hc hq
  refine ⟨u, q, r, ht, ?_, hq'⟩
  rintro ⟨d, hd, hd'⟩
  rw [hu d hd] at hd'
  exact Bool.noConfusion hd'

/-- Across a barrier an assignment stays open if the text behind it does not close it. -/
theorem Barrier.leavesOpen_iff (h : Barrier a f) :
    LeavesOpen (a ++ f ++ b) ↔ LeavesOpen b ∨ LeavesOpen a ∧ ¬ HasQuote b := by
  constructor
  · rintro ⟨l, o, r, htext, ho, hr⟩
    rcases h.place ho htext with ⟨z, ha, hrz⟩ | ⟨z, _, hb⟩
    · rw [hrz, hasQuote_append, hasQuote_append] at hr
      exact Or.inr ⟨⟨l, o, z, ha, ho, fun hz => hr (Or.inl hz)⟩,
        fun hb => hr (Or.inr (Or.inr hb))⟩
    · exact Or.inl ⟨z, o, r, hb, ho, hr⟩
  · rintro (⟨l, o, r, rfl, ho, hr⟩ | ⟨⟨l, o, r, rfl, ho, hr⟩, hb⟩)
    · exact ⟨a ++ f ++ l, o, r, by simp only [List.append_assoc], ho, hr⟩
    · refine ⟨l, o, r ++ (f ++ b), by simp only [List.append_assoc], ho, ?_⟩
      rw [hasQuote_append, hasQuote_append]
      rintro (hq | hq | hq)
      · exact hr hq
      · exact h.quoteless hq
      · exact hb hq

/-- A secret across a barrier is opened in front of it and closed behind it. -/
theorem Barrier.occurs_iff (h : Barrier a f) :
    Occurs IsSecret (a ++ f ++ b) ↔
      Occurs IsSecret a ∨ Occurs IsSecret b ∨ LeavesOpen a ∧ HasQuote b := by
  constructor
  · rintro ⟨l, w, r, htext, hw⟩
    obtain ⟨o, v, q, rfl, ho, hne, hv, hq⟩ := isSecret_iff.mp hw
    rw [List.append_assoc o] at htext
    rcases h.place ho htext with ⟨z, ha, hz⟩ | ⟨z, _, hb⟩
    · rw [List.append_assoc v] at hz
      rcases List.append_eq_append_iff.mp hz with ⟨e, hze, he⟩ | ⟨e, hve, he⟩
      · -- the value ends within `a`, since no quote is in the barrier
        cases e with
        | nil =>
          obtain ⟨d, f', hf⟩ := List.exists_cons_of_ne_nil h.nonempty
          rw [hf] at he
          obtain rfl : q = d := (List.cons.inj he).1
          exact absurd ⟨q, by rw [hf]; exact List.mem_cons_self, hq⟩ h.quoteless
        | cons d e =>
          obtain rfl : q = d := (List.cons.inj he).1
          refine Or.inl ⟨l, o ++ (v ++ [q]), e, ?_, hw⟩
          rw [ha, hze]
          simp
      · -- the value goes on beyond `a`
        have hopen : LeavesOpen a := ⟨l, o, z, ha, ho, fun hq => hv (by
          rw [hve, hasQuote_append]; exact Or.inl hq)⟩
        have hclosed : HasQuote (f ++ b) :=
          ⟨q, by rw [he]; exact List.mem_append_right e List.mem_cons_self, hq⟩
        exact Or.inr
          (Or.inr ⟨hopen, (hasQuote_append.mp hclosed).resolve_left h.quoteless⟩)
    · exact Or.inr (Or.inl ⟨z, o ++ (v ++ [q]), r, by rw [hb]; simp, hw⟩)
  · rintro (ha | hb | ⟨⟨l, o, z, rfl, ho, hz⟩, hb⟩)
    · exact ha.mono ⟨[], f ++ b, by simp⟩
    · exact hb.mono ⟨a ++ f, [], by simp⟩
    · obtain ⟨u, q, r, rfl, hu, hq⟩ := exists_of_hasQuote hb
      refine ⟨l, o ++ ((z ++ (f ++ u)) ++ [q]), r, by simp,
        isSecret_iff.mpr ⟨o, _, q, rfl, ho, ?_, ?_, hq⟩⟩
      · exact List.append_ne_nil_of_right_ne_nil z
          (List.append_ne_nil_of_left_ne_nil h.nonempty u)
      · rw [hasQuote_append, hasQuote_append]
        rintro (hq | hq | hq)
        · exact hz hq
        · exact h.quoteless hq
        · exact hu hq

end Seam

/-! ## Assembled texts -/

/-- The text is put together from the parts, with barriers between them. -/
inductive Assembled : List Text → Text → Prop where
  | nil : Assembled [] []
  | part (p : Text) : Assembled [p] p
  | join {ps qs : List Text} {a f b : Text} (barrier : Barrier a f)
      (front : Assembled ps a)
      (back : Assembled qs b) : Assembled (ps ++ qs) (a ++ f ++ b)

/-- A later part does not close what an earlier one leaves open. -/
def Unclosed (p q : Text) : Prop := LeavesOpen p → ¬ HasQuote q

/-- No part holds a secret, and none is closed by a later part. -/
def Sealed (ps : List Text) : Prop :=
  (∀ p ∈ ps, ¬ Occurs IsSecret p) ∧ ps.Pairwise Unclosed

namespace Assembled

theorem hasQuote_iff {ps : List Text} {t : Text} (h : Assembled ps t) :
    HasQuote t ↔ ∃ p ∈ ps, HasQuote p := by
  induction h with
  | nil => simp [HasQuote]
  | part p => simp
  | join barrier _ _ ihfront ihback =>
    rw [barrier.hasQuote_iff, ihfront, ihback]
    simp only [List.mem_append, or_and_right, exists_or]

/-- If no part closes an earlier one, the text leaves open what any part does. -/
theorem leavesOpen_iff {ps : List Text} {t : Text} (h : Assembled ps t)
    (hps : ps.Pairwise Unclosed) :
    LeavesOpen t ↔ ∃ p ∈ ps, LeavesOpen p := by
  induction h with
  | nil =>
    refine ⟨?_, fun ⟨_, hp, _⟩ => absurd hp List.not_mem_nil⟩
    rintro ⟨l, o, r, htext, ho, _⟩
    obtain ⟨hor, _⟩ := List.append_eq_nil_iff.mp (List.append_eq_nil_iff.mp htext.symm).2
    obtain ⟨u, q, hu, _⟩ := ho.exists_concat
    rw [hor] at hu
    exact absurd hu (by simp)
  | part p => simp
  | join barrier _ hback ihfront ihback =>
    obtain ⟨hfront', hback', hcross⟩ := List.pairwise_append.mp hps
    rw [barrier.leavesOpen_iff, ihfront hfront', ihback hback', hback.hasQuote_iff]
    constructor
    · rintro (⟨p, hp, hopen⟩ | ⟨⟨p, hp, hopen⟩, _⟩)
      · exact ⟨p, List.mem_append_right _ hp, hopen⟩
      · exact ⟨p, List.mem_append_left _ hp, hopen⟩
    · rintro ⟨p, hp, hopen⟩
      rcases List.mem_append.mp hp with hp | hp
      · exact Or.inr ⟨⟨p, hp, hopen⟩, fun ⟨q, hq, hquote⟩ => hcross p hp q
          hq hopen hquote⟩
      · exact Or.inl ⟨p, hp, hopen⟩

/-- An assembled text is free of secrets exactly if its parts are sealed. -/
theorem not_occurs_iff {ps : List Text} {t : Text} (h : Assembled ps t) :
    ¬ Occurs IsSecret t ↔ Sealed ps := by
  induction h with
  | nil =>
    refine iff_of_true (not_occurs_nil fun _ hw => hw.ne_nil) ⟨?_, List.Pairwise.nil⟩
    exact fun p hp => absurd hp List.not_mem_nil
  | part p => simp [Sealed]
  | @join ps qs a f b barrier hfront hback ihfront ihback =>
    have hsplit : Sealed (ps ++ qs) ↔
        (Sealed ps ∧ Sealed qs) ∧ ∀ p ∈ ps, ∀ q ∈ qs, Unclosed p q := by
      unfold Sealed
      rw [List.pairwise_append, List.forall_mem_append]
      tauto
    rw [hsplit, ← ihfront, ← ihback, barrier.occurs_iff]
    -- with the front sealed, what it leaves open is what one of its parts leaves open
    have hcross : ¬ Occurs IsSecret a →
        (¬ (LeavesOpen a ∧ HasQuote b) ↔ ∀ p ∈ ps, ∀ q ∈ qs, Unclosed p q) := by
      intro ha
      rw [hfront.leavesOpen_iff (ihfront.mp ha).2, hback.hasQuote_iff]
      constructor
      · intro h p hp q hq hopen hquote
        exact h ⟨⟨p, hp, hopen⟩, ⟨q, hq, hquote⟩⟩
      · rintro h ⟨⟨p, hp, hopen⟩, ⟨q, hq, hquote⟩⟩
        exact h p hp q hq hopen hquote
    tauto

end Assembled

end CodeWeave.Sensitive
