import CodeWeave.Proofs.Redaction.Words

/-!
# Names of secrets and the references that replace them

A name is recognised whatever its case, and the reference that takes the place of an
assignment spells it twice: as it was written, and in upper case at the very end. So a
reference ends in a name again:

> `replaceSecret_append`: the reference to `key` is `key`, then `referenceMiddle`, then a
> text that folds to the same name.

What follows a name runs to a closing quote, and so does what is left of it
when it is broken off:

> `IsAssigned.reopen`: a value that is broken off goes on with any text, up
to the next quote.

Whether something starts inside a reference is therefore a question about finitely many
folded texts, which `decide` answers (`suffix_of_reference`).
-/

namespace CodeWeave.Sensitive

open Text Redaction

/-! ## Characters -/

/-- What names are made of: letters in any case, and the underscore. -/
def isNameChar (c : Char) : Bool := (foldCase c).isLower || foldCase c == '_'

/-- The characters beyond ASCII that names can be made of. -/
def foreignNameChars : List Char := [0x17F, 0x212A, 0x130, 0x131].map Char.ofNat

/-- Small letters are those of ASCII. -/
theorem lt_of_isLower {c : Char} (h : c.isLower = true) : c.toNat < 128 := by
  obtain ⟨-, hto⟩ := Bool.and_eq_true_iff.mp h
  have hto : c.val.toNat ≤ 122 := of_decide_eq_true hto
  show c.val.toNat < 128
  omega

/-- Folding changes letters of ASCII and four characters beyond it only. -/
theorem foldCase_cases (c : Char) :
    c.toNat < 128 ∨ c ∈ foreignNameChars ∨ foldCase c = c := by
  by_cases hc : c.toNat < 128
  · exact Or.inl hc
  · refine Or.inr ?_
    have hof : Char.ofNat c.toNat = c := Char.ofNat_toNat c
    -- long s, the Kelvin sign, dotted I and dotless i
    by_cases h1 : c.toNat = 0x17F
    · exact Or.inl (by rw [← hof, h1]; decide)
    by_cases h2 : c.toNat = 0x212A
    · exact Or.inl (by rw [← hof, h2]; decide)
    by_cases h3 : c.toNat = 0x130
    · exact Or.inl (by rw [← hof, h3]; decide)
    by_cases h4 : c.toNat = 0x131
    · exact Or.inl (by rw [← hof, h4]; decide)
    refine Or.inr ?_
    unfold foldCase
    rw [if_neg h1, if_neg h2, if_neg (by rintro (h | h) <;> contradiction)]
    unfold Char.toLower
    rw [dif_neg]
    rintro ⟨_, hz⟩
    have hz' : c.val.toNat ≤ 90 := hz
    exact hc (show c.val.toNat < 128 by omega)

/-- A name character is a letter or underscore of ASCII, or one of four beyond it. -/
theorem isNameChar_cases {c : Char} (h : isNameChar c = true) :
    c.toNat < 128 ∨ c ∈ foreignNameChars := by
  rcases foldCase_cases c with hc | hc | hc
  · exact Or.inl hc
  · exact Or.inr hc
  · refine Or.inl ?_
    unfold isNameChar at h
    rw [hc, Bool.or_eq_true, beq_iff_eq] at h
    rcases h with h | rfl
    · exact lt_of_isLower h
    · decide

/-- Folding keeps what an assignment is made of: white space as it is, and quotes apart
from other characters. -/
theorem foldCase_keeps (c : Char) :
    (isBlank c = true → foldCase c = c) ∧ isQuote (foldCase c) = isQuote c := by
  rcases foldCase_cases c with hc | hc | hc
  · exact ascii_cases (p := fun c => (isBlank c = true → foldCase c = c) ∧
      isQuote (foldCase c) = isQuote c) (by decide) hc
  · exact forall_mem_of_all (p := fun c => (isBlank c = true → foldCase c = c) ∧
      isQuote (foldCase c) = isQuote c) (by decide) c hc
  · rw [hc]
    exact ⟨fun _ => rfl, rfl⟩

/-- What holds of the name characters of ASCII and of the four others holds of all. -/
theorem forall_nameChar {p : Char → Prop}
    (hascii : ∀ n < 128, isNameChar (Char.ofNat n) = true →
    p (Char.ofNat n)) (hforeign : ∀ c ∈ foreignNameChars, p c) {c : Char}
    (h : isNameChar c = true) : p c := by
  rcases isNameChar_cases h with hc | hc
  · exact ascii_cases (p := fun c => isNameChar c = true → p c) hascii hc h
  · exact hforeign c hc

/-- A name has neither white space nor quotes in it. -/
theorem isNameChar_plain {c : Char} (h : isNameChar c = true) :
    isBlank c = false ∧ isQuote c = false :=
  forall_nameChar (p := fun c => isBlank c = false ∧ isQuote c = false) (by decide)
    (forall_mem_of_all (by decide)) h

/-- The upper case of a name character is one character that folds to the same. -/
theorem upperChar_nameChar {c : Char} (h : isNameChar c = true) :
    ∃ d, upperChar c = [d] ∧ foldCase d = foldCase c ∧ isBlank d = false := by
  -- one statement that can be decided, character by character
  have hexists : (upperChar c).length = 1 ∧ (upperChar c).map foldCase = [foldCase c] ∧
      (upperChar c).all (fun d => !isBlank d) = true :=
    forall_nameChar (p := fun c => (upperChar c).length = 1 ∧
      (upperChar c).map foldCase = [foldCase c] ∧
      (upperChar c).all (fun d => !isBlank d) = true) (by decide +kernel)
      (forall_mem_of_all (by decide +kernel)) h
  obtain ⟨hlen, hfold, hblank⟩ := hexists
  obtain ⟨d, hd⟩ := List.length_eq_one_iff.mp hlen
  rw [hd] at hfold hblank
  refine ⟨d, hd, by simpa using hfold, by simpa using hblank⟩

/-- The words that name secrets are of small letters and underscores. -/
theorem secretWords_chars {word : Text} (h : word ∈ secretWords) :
    ∀ c ∈ word, (c.isLower || c == '_') = true := by
  have hall : ∀ word ∈ secretWords, word.all (fun c => c.isLower || c == '_') = true := by
    decide
  exact List.all_eq_true.mp (hall word h)

/-- A name is made of name characters, whatever its case. -/
theorem IsName.chars {key : Text} (h : IsName key) : ∀ c ∈ key, isNameChar c = true := by
  intro c hc
  exact secretWords_chars h _ (List.mem_map_of_mem hc)

/-! ## What follows a name -/

/-- What follows the name in an assignment starts with white space or a separator. -/
theorem IsAssigned.exists_cons {a : Text} (h : IsAssigned a) :
    ∃ d z, a = d :: z ∧ (isBlank d = true ∨ d = ':' ∨ d = '=') := by
  cases h with
  | mk s₁ x s₂ q v q' hs₁ hsep _ _ _ _ _ =>
    cases s₁ with
    | nil => exact ⟨x, _, rfl, Or.inr hsep⟩
    | cons c cs => exact ⟨c, _, rfl, Or.inl (hs₁ c List.mem_cons_self)⟩

/-- What follows a name is not empty: there is a separator at least. -/
theorem IsAssigned.ne_nil {a : Text} (h : IsAssigned a) : a ≠ [] := by
  obtain ⟨d, z, had, _⟩ := h.exists_cons
  rw [had]
  exact List.cons_ne_nil d z

/-- Every end of an assignment has a quote in it, as the last character is one. -/
theorem IsAssigned.quote_mem {a c s : Text} (h : IsAssigned a) (hsplit : a = c ++ s)
    (hs : s ≠ []) :
    ∃ q ∈ s, isQuote q = true := by
  cases h with
  | mk s₁ x s₂ q v q' _ _ _ _ _ _ hq' =>
    refine ⟨q', ?_, hq'⟩
    have hlast : s.getLast? = some q' := by
      rw [← List.getLast?_append_of_ne_nil c hs, ← hsplit,
        show s₁ ++ x :: (s₂ ++ q :: (v ++ [q'])) = (s₁ ++ x :: (s₂ ++ q :: v)) ++ [q'] by simp,
        List.getLast?_concat]
    exact List.mem_of_getLast? hlast

/-- An assignment stays one when its case is folded. -/
theorem IsAssigned.fold {a : Text} (h : IsAssigned a) : IsAssigned (a.map foldCase) := by
  cases h with
  | mk s₁ x s₂ q v q' hs₁ hsep hs₂ hq hne hv hq' =>
    have hblank : ∀ {s : Text}, (∀ c ∈ s, isBlank c = true) →
        ∀ c ∈ s.map foldCase, isBlank c = true := by
      intro s hs c hc
      obtain ⟨d, hd, rfl⟩ := List.mem_map.mp hc
      rw [(foldCase_keeps d).1 (hs d hd)]
      exact hs d hd
    have hx : foldCase x = x := by rcases hsep with rfl | rfl <;> decide
    have hvalue : ∀ c ∈ v.map foldCase, isQuote c = false := by
      intro c hc
      obtain ⟨d, hd, rfl⟩ := List.mem_map.mp hc
      rw [(foldCase_keeps d).2]
      exact hv d hd
    simp only [List.map_append, List.map_cons, List.map_nil, hx]
    exact .mk _ x _ _ _ _ (hblank hs₁) hsep (hblank hs₂)
      (by rw [(foldCase_keeps q).2]; exact hq)
      (by simpa using hne) hvalue (by rw [(foldCase_keeps q').2]; exact hq')

/-- A character that is neither in `u` nor `d` stands behind both. -/
theorem append_cons_split {u y c s : Text} {d n : Char} (hu : n ∉ u) (hd : n ≠ d)
    (h : u ++ d :: y = c ++ n :: s) : ∃ o, c = u ++ d :: o ∧ y = o ++ n :: s := by
  rcases List.append_eq_append_iff.mp h with ⟨o, hc, ho⟩ | ⟨o, hu', ho⟩
  · cases o with
    | nil => exact absurd (List.cons.inj ho).1.symm hd
    | cons e o =>
      obtain ⟨rfl, hy⟩ := List.cons.inj ho
      exact ⟨o, hc, hy⟩
  · cases o with
    | nil => exact absurd (List.cons.inj ho).1 hd
    | cons e o =>
      obtain ⟨rfl, _⟩ := List.cons.inj ho
      exact absurd (by rw [hu']; exact List.mem_append_right c List.mem_cons_self) hu

/-- If there is a quote there is a first one. -/
theorem exists_first_quote {z : Text} {q : Char} (hmem : q ∈ z) (hq : isQuote q = true) :
    ∃ z₁ q' r, z = z₁ ++ q' :: r ∧ (∀ c ∈ z₁, isQuote c = false) ∧ isQuote q' = true := by
  induction z with
  | nil => exact absurd hmem List.not_mem_nil
  | cons c z ih =>
    cases hc : isQuote c with
    | true => exact ⟨[], c, z, rfl, by simp, hc⟩
    | false =>
      rcases List.mem_cons.mp hmem with rfl | hmem
      · rw [hq] at hc
        exact Bool.noConfusion hc
      · obtain ⟨z₁, q', r, hz, hz₁, hq'⟩ := ih hmem
        refine ⟨c :: z₁, q', r, by rw [hz]; rfl, ?_, hq'⟩
        intro d hd
        rcases List.mem_cons.mp hd with rfl | hd
        · exact hc
        · exact hz₁ d hd

/-- A value that is broken off at a character goes on with any text, up to
the next quote. -/
theorem IsAssigned.reopen {a c s : Text} {n : Char} (ha : IsAssigned a)
    (hsplit : a = c ++ n :: s) (hn : isBlank n = false ∧ isQuote n = false ∧ n ≠ ':' ∧
      n ≠ '=') {e q : Char} {z : Text} (he : isQuote e = false) (hq : isQuote q = true)
    (hmem : q ∈ z) :
    ∃ b r, c ++ e :: z = b ++ r ∧ IsAssigned b := by
  obtain ⟨hblank, hquote, hcolon, hequals⟩ := hn
  cases ha with
  | mk s₁ x s₂ q₁ v q₂ hs₁ hsep hs₂ hq₁ hne hv hq₂ =>
    have hnot : ∀ {u : Text}, (∀ d ∈ u, isBlank d = true) → n ∉ u := fun hu hmem => by
      rw [hu n hmem] at hblank
      exact Bool.noConfusion hblank
    have hneq : ∀ {d : Char}, isQuote d = true → n ≠ d := by
      rintro d hd rfl
      rw [hd] at hquote
      exact Bool.noConfusion hquote
    -- `n` is neither of what stands before the value nor the quote behind it, so it
    -- breaks the value
    obtain ⟨o₁, hc, h₁⟩ := append_cons_split (hnot hs₁)
      (by rcases hsep with rfl | rfl; exact hcolon; exact hequals) hsplit
    obtain ⟨o₂, ho₁, h₂⟩ := append_cons_split (hnot hs₂) (hneq hq₁) h₁
    have hvalue : ∀ d ∈ o₂, isQuote d = false := by
      rcases List.append_eq_append_iff.mp h₂ with ⟨o, _, ho⟩ | ⟨o, hv', _⟩
      · rcases List.cons_eq_append_iff.mp ho with ⟨_, hn'⟩ | ⟨_, _, hnil⟩
        · exact absurd (List.cons.inj hn').1 (hneq hq₂)
        · exact absurd hnil.symm (by simp)
      · exact fun d hd => hv d (by rw [hv']; exact List.mem_append_left o hd)
    obtain ⟨z₁, q', r, hz, hz₁, hq'⟩ := exists_first_quote hmem hq
    refine ⟨s₁ ++ x :: (s₂ ++ q₁ :: ((o₂ ++ e :: z₁) ++ [q'])), r, ?_, ?_⟩
    · rw [hc, ho₁, hz]
      simp only [List.append_assoc, List.cons_append, List.nil_append]
    · refine .mk s₁ x s₂ q₁ _ q' hs₁ hsep hs₂ hq₁ (by simp) ?_ hq'
      intro d hd
      rcases List.mem_append.mp hd with hd | hd
      · exact hvalue d hd
      · rcases List.mem_cons.mp hd with rfl | hd
        · exact he
        · exact hz₁ d hd

/-! ## References -/

/-- What stands between the two names of a reference. -/
def referenceMiddle : Text := ": process.env.VITE_".toList

/-- The upper case of a name folds to the same as the name. -/
theorem fold_upper {key : Text} (h : ∀ c ∈ key, isNameChar c = true) :
    ((upper key).map fun c => if isBlank c then '_' else c).map foldCase =
      key.map foldCase := by
  induction key with
  | nil => rfl
  | cons c cs ih =>
    obtain ⟨d, hd, hfold, hblank⟩ := upperChar_nameChar (h c List.mem_cons_self)
    have htail := ih fun e he => h e (List.mem_cons_of_mem c he)
    have hupper : upper (c :: cs) = d :: upper cs := by
      show upperChar c ++ upper cs = d :: upper cs
      rw [hd]
      rfl
    rw [hupper, List.map_cons, List.map_cons, htail, List.map_cons, hblank]
    simp only [Bool.false_eq_true, if_false, hfold]

/-- A spelling that folds to a name is that name. -/
theorem IsName.of_fold {key name : Text} (h : IsName key)
    (hfold : name.map foldCase = key.map foldCase) : IsName name := by
  unfold IsName
  rw [hfold]
  exact h

/-- The reference for an assignment spells the name twice, the second time at its end. -/
theorem replaceSecret_append {key : Text} (h : IsName key) (a : Text) :
    ∃ name, replaceSecret (key ++ a) = key ++ (referenceMiddle ++ name) ∧
      name.map foldCase = key.map foldCase := by
  refine ⟨(upper key).map fun c => if isBlank c then '_' else c, ?_, fold_upper h.chars⟩
  unfold replaceSecret
  rw [cutSecretWord_eq_some_iff.mpr ⟨rfl, h⟩]
  show secretReference key = _
  unfold secretReference variableName
  simp only [List.append_assoc]
  rfl

/-- The reference does not depend on the value, nor on how it was assigned. -/
theorem replaceSecret_eq {key : Text} (h : IsName key) (a : Text) :
    replaceSecret (key ++ a) = secretReference key := by
  unfold replaceSecret
  rw [cutSecretWord_eq_some_iff.mpr ⟨rfl, h⟩]

/-- A reference is made of name characters, apart from its middle. -/
theorem not_mem_secretReference {key : Text} (h : IsName key) {d : Char}
    (hd : isNameChar d = false) (hmiddle : d ∉ referenceMiddle) :
    d ∉ secretReference key := by
  intro hmem
  have hnot : ∀ {name : Text}, IsName name → d ∉ name := fun hname hmem => by
    rw [hname.chars d hmem] at hd
    exact Bool.noConfusion hd
  obtain ⟨name, href, hfold⟩ := replaceSecret_append h []
  rw [← replaceSecret_eq h [], href, List.mem_append, List.mem_append] at hmem
  rcases hmem with hmem | hmem | hmem
  · exact hnot h hmem
  · exact hmiddle hmem
  · exact hnot (h.of_fold hfold) hmem

/-- No quote stands in a reference. -/
theorem not_in_reference_of_isQuote {q : Char} (hq : isQuote q = true) :
    isNameChar q = false ∧ q ∉ referenceMiddle := by
  unfold isQuote at hq
  rw [Bool.or_eq_true, beq_iff_eq, beq_iff_eq] at hq
  rcases hq with rfl | rfl <;> decide

/-- Characters that are in no name and not in the middle of a reference are not
counted in one. -/
theorem countP_secretReference {key : Text} (h : IsName key) {p : Char → Bool}
    (hp : ∀ d, p d = true → isNameChar d = false ∧ d ∉ referenceMiddle) :
    (secretReference key).countP p = 0 := by
  rw [List.countP_eq_zero]
  intro d hd hpd
  obtain ⟨hname, hmiddle⟩ := hp d hpd
  exact not_mem_secretReference h hname hmiddle hd

/-! ## What starts inside a text -/

/-- Neither text is the beginning of the other. -/
def Apart (p b : Text) : Prop := ¬ p <+: b ∧ ¬ b <+: p

instance (p b : Text) : Decidable (Apart p b) :=
  inferInstanceAs (Decidable (¬ p <+: b ∧ ¬ b <+: p))

/-- Texts that are apart stay so, whatever follows them. -/
theorem Apart.append_ne {p b : Text} (h : Apart p b) (u v : Text) : p ++ u ≠ b ++ v := by
  intro heq
  rcases List.append_eq_append_iff.mp heq with ⟨o, hb, _⟩ | ⟨o, hp, _⟩
  · exact h.1 ⟨o, hb.symm⟩
  · exact h.2 ⟨o, hp.symm⟩

/-- It is enough that they are apart after folding. -/
theorem Apart.append_ne_of_fold {p b : Text} (h : Apart (p.map foldCase) (b.map foldCase))
    (u v : Text) : p ++ u ≠ b ++ v := by
  intro heq
  refine h.append_ne (u.map foldCase) (v.map foldCase) ?_
  rw [← List.map_append, heq, List.map_append]

def foldedReference (word : Text) : Text := word ++ (referenceMiddle.map foldCase ++ word)

/-- What starts inside a reference starts, folded, inside one of five texts. -/
theorem suffix_of_reference {key : Text} (h : IsName key) {a l b : Text}
    (hsplit : replaceSecret (key ++ a) = l ++ b) :
    b.map foldCase ∈ (foldedReference (key.map foldCase)).tails := by
  obtain ⟨name, href, hname⟩ := replaceSecret_append h a
  rw [List.mem_tails]
  refine ⟨l.map foldCase, ?_⟩
  rw [← List.map_append, ← hsplit, href, List.map_append, List.map_append, hname]
  rfl

end CodeWeave.Sensitive
