import CodeWeave.Proofs.Redaction.Names

/-!
# API keys across the passes

Replacing API keys can make a new one: `sk-` with too few letters in front of a key
becomes a key with the letters `process` of the placeholder. This file shows that it is
the only way, and that the later passes make no key of their own:

> `keySeam_of_placed`: a key in the text without API keys stands at a `KeySeam`.

> `plain_of_secrets_pass`, `plain_of_emails_pass`: a key behind one of the later passes
> was there before it, character by character, and untouched.
-/

namespace CodeWeave.Sensitive

open Text Redaction

/-! ## Keys, character by character -/

theorem isKeyChar_of_isAlnum {c : Char} (h : isAlnum c = true) : isKeyChar c = true := by
  have halnum : c.isAlphanum = true := h
  unfold isKeyChar
  rw [halnum, Bool.true_or, Bool.true_or]

theorem lt_of_isKeyChar {c : Char} (h : isKeyChar c = true) : c.toNat < 128 := by
  unfold isKeyChar at h
  simp only [Bool.or_eq_true, beq_iff_eq] at h
  rcases h with (h | rfl) | rfl
  · exact lt_of_isAlphanum h
  · decide
  · decide

theorem not_isKeyChar_of_isBlank {c : Char} (h : isBlank c = true) :
    isKeyChar c = false := by
  rw [Bool.eq_false_iff]
  intro hkey
  have hblank : isBlank c = false :=
    ascii_cases (p := fun c => isKeyChar c = true → isBlank c = false) (by decide)
      (lt_of_isKeyChar hkey) hkey
  rw [hblank] at h
  exact Bool.noConfusion h

theorem IsKey.chars {w : Text} (hw : IsKey w) : ∀ c ∈ w, isKeyChar c = true := by
  intro c hc
  cases hw with
  | short a _ ha =>
    rcases List.mem_append.mp hc with hc | hc
    · exact (forall_mem_of_all (by decide) : ∀ c ∈ "sk-".toList, isKeyChar c = true) c hc
    · exact isKeyChar_of_isAlnum (ha c hc)
  | long b _ hb =>
    rcases List.mem_append.mp hc with hc | hc
    · exact (forall_mem_of_all (by decide) : ∀ c ∈ "AIza".toList, isKeyChar c = true) c hc
    · exact hb c hc

/-- What is passed over as an API key is made of key characters. -/
theorem isKeyChar_of_found {x r : Text} (found : readApiKey (x ++ r) = some r) :
    ∀ c ∈ x, isKeyChar c = true := by
  intro c hc
  obtain ⟨w, o, hx, hw, ho⟩ := apiKey_sound found
  rw [List.append_cancel_right hx] at hc
  rcases List.mem_append.mp hc with hc | hc
  · exact hw.chars c hc
  · exact isKeyChar_of_isAlnum (ho c hc)

theorem IsKey.length_ge {w : Text} (hw : IsKey w) : 23 ≤ w.length := by
  cases hw with
  | short a hlen _ =>
    rw [List.length_append, hlen]
    decide
  | long b hlen _ =>
    rw [List.length_append, hlen]
    decide

def keyStems : List Text := ["sk-".toList, "AIza".toList]

/-- No key starts at a text that starts apart from both stems. -/
theorem IsKey.append_ne {w : Text} (hw : IsKey w) {b : Text}
    (hb : ∀ p ∈ keyStems, Apart p b) (r z : Text) : w ++ r ≠ b ++ z := by
  cases hw with
  | short a _ _ =>
    rw [List.append_assoc]
    exact (hb _ List.mem_cons_self).append_ne _ _
  | long b' _ _ =>
    rw [List.append_assoc]
    exact (hb _ (List.mem_cons_of_mem _ List.mem_cons_self)).append_ne _ _

/-- No key starts with a text that is apart from the stems, whatever its case. -/
theorem IsKey.append_ne_of_fold {w : Text} (hw : IsKey w) {b : Text}
    (hb : ∀ p ∈ keyStems, Apart (p.map foldCase) (b.map foldCase)) (r z : Text) :
    w ++ r ≠ b ++ z := by
  cases hw with
  | short a _ _ =>
    rw [List.append_assoc]
    exact (hb _ List.mem_cons_self).append_ne_of_fold _ _
  | long b' _ _ =>
    rw [List.append_assoc]
    exact (hb _ (List.mem_cons_of_mem _ List.mem_cons_self)).append_ne_of_fold _ _

/-! ## The pass over API keys -/

/-- The letters of the placeholder that can belong to a key. -/
def placeholderLetters : Text := "process".toList

theorem apiKeyPlaceholder_eq :
    apiKeyPlaceholder = placeholderLetters ++ '.' ::
      "env.VITE_AI_API_KEY /* REDACTED FOR PRIVACY */".toList :=
  rfl

/-- No stem of a key starts within the placeholder. -/
theorem apart_apiKeyPlaceholder :
    ∀ b ∈ apiKeyPlaceholder.tails, b ≠ [] → ∀ p ∈ keyStems, Apart p b := by
  decide +kernel

/-- The key `w`, with `l` before it, is made of the plain characters `sk-` and `a`,
fewer than a key has, and of the first letters `s` of the placeholder for the key
that follows them. -/
inductive KeySeam (ps : List Piece) (l w : Text) : Prop where
  | mk (front : List Piece) (a x : Text) (back : List Piece) (s : Text)
      (split : ps = front ++ ("sk-".toList ++ a).map .plain ++ .hit x :: back)
      (before : l = render (fun _ => apiKeyPlaceholder) front)
      (alnum : ∀ c ∈ a, isAlnum c = true) (goesOn : s ≠ [])
      (letters : s <+: placeholderLetters)
      (length : a.length + s.length = 20) (word : w = "sk-".toList ++ (a ++ s))

/-- A key of the second form is not completed by the letters of a placeholder: the key
that stood in its place is long enough to have completed it. -/
theorem long_ne_run_append {front back ps : List Piece} {run x s b t : Text}
    (cut : Cut readApiKey ps t) (split : ps = front ++ run.map .plain ++ .hit x :: back)
    (start : run ≠ []) (hlen : b.length = 35) (hb : ∀ c ∈ b, isKeyChar c = true)
    (hslen : s.length ≤ 7) : "AIza".toList ++ b ≠ run ++ s := by
  intro word
  rw [split] at cut
  obtain ⟨w', o, hx, hw', _⟩ := apiKey_sound cut.read_hit.2
  rcases List.append_eq_append_iff.mp word with ⟨b', hrun, hb'⟩ | ⟨c', hstem, hs'⟩
  · have hblen : b'.length + s.length = 35 := by rw [← List.length_append, ← hb', hlen]
    have hw'len := hw'.length_ge
    have hlong : IsKey ("AIza".toList ++ (b' ++ w'.take (35 - b'.length))) := by
      refine .long _ ?_ ?_
      · rw [List.length_append, List.length_take]
        omega
      · intro c hc
        rcases List.mem_append.mp hc with hc | hc
        · exact hb c (by rw [hb']; exact List.mem_append_left s hc)
        · exact hw'.chars c (List.mem_of_mem_take hc)
    refine cut.not_word_at accepts_apiKey start
      (w := "AIza".toList ++ (b' ++ w'.take (35 - b'.length)))
      (r := w'.drop (35 - b'.length) ++ (o ++ render id back)) ?_ hlong
    rw [render_hit, id_eq, hx, hrun]
    simp only [List.append_assoc]
    rw [← List.append_assoc (List.take _ _), List.take_append_drop]
  · have hlens := congrArg List.length hs'
    rw [List.length_append, hlen] at hlens
    omega

/-- A key that the pass over API keys leaves stands at a seam. -/
theorem keySeam_of_placed {ps : List Piece} {t l w r : Text} (cut : Cut readApiKey ps t)
    (hw : IsKey w) (h : Placed (fun _ => apiKeyPlaceholder) ps l w r) :
    KeySeam ps l w := by
  cases h with
  | clear front back split _ _ =>
    exfalso
    rw [split] at cut
    exact cut.not_word accepts_apiKey hw.ne_nil hw
  | within front x back a b split cutAt nonempty _ overlap =>
    exfalso
    have hb : b ∈ apiKeyPlaceholder.tails := (List.mem_tails b _).mpr ⟨a, cutAt.symm⟩
    exact hw.append_ne (apart_apiKeyPlaceholder b hb nonempty) _ _ overlap
  | into front run x back s split start goesOn word before overlap =>
    have hs : ∀ c ∈ s, isKeyChar c = true := fun c hc =>
      hw.chars c (by rw [word]; exact List.mem_append_right run hc)
    have hletters : s <+: placeholderLetters := by
      rw [apiKeyPlaceholder_eq, List.append_assoc, List.cons_append] at overlap
      exact prefix_of_append_eq hs (by decide) overlap
    have hslen : s.length ≤ 7 := hletters.length_le
    cases hw with
    | short a hlen ha =>
      rcases List.append_eq_append_iff.mp word with ⟨a', hrun, ha'⟩ | ⟨c', hstem, hs'⟩
      · refine .mk front a' x back s (by rw [split, hrun]) before ?_ goesOn hletters ?_ ?_
        · intro c hc
          exact ha c (by rw [ha']; exact List.mem_append_left s hc)
        · rw [← List.length_append, ← ha', hlen]
        · rw [ha']
      · -- a key broken off within its stem lacks twenty letters, the placeholder has seven
        exfalso
        have hlens := congrArg List.length hs'
        rw [List.length_append, hlen] at hlens
        omega
    | long b hlen hb =>
      exact absurd word (long_ne_run_append cut split start hlen hb hslen)

/-- At a seam, the text without API keys spells the key out and goes on with
the placeholder. -/
theorem KeySeam.render_eq {ps : List Piece} {l w : Text} (h : KeySeam ps l w) :
    ∃ a z, render (fun _ => apiKeyPlaceholder) ps = l ++
      ("sk-".toList ++ a ++ placeholderLetters ++ '.' :: z) ∧
      ∀ c ∈ "sk-".toList ++ a ++ placeholderLetters, isKeyChar c = true := by
  obtain ⟨front, a, x, back, s, split, before, alnum, -, -, -, -⟩ := h
  refine ⟨a, "env.VITE_AI_API_KEY /* REDACTED FOR PRIVACY */".toList ++
    render (fun _ => apiKeyPlaceholder) back, ?_, ?_⟩
  · rw [split, before, render_append, render_append, render_map_plain, render_hit,
      apiKeyPlaceholder_eq]
    simp only [List.append_assoc, List.cons_append]
  · intro c hc
    rcases List.mem_append.mp hc with hc | hc
    · rcases List.mem_append.mp hc with hc | hc
      · exact
          (forall_mem_of_all (by decide) : ∀ c ∈ "sk-".toList, isKeyChar c = true) c hc
      · exact isKeyChar_of_isAlnum (alnum c hc)
    · exact (forall_mem_of_all (by decide) : ∀ c ∈ placeholderLetters,
        isKeyChar c = true) c hc

/-! ## The later passes -/

/-- No key starts inside a reference, whatever the case of its name. -/
theorem apart_foldedReference :
    ∀ word ∈ secretWords, ∀ b ∈ (foldedReference word).tails, b ≠ [] →
      ∀ p ∈ keyStems, Apart (p.map foldCase) b := by
  decide +kernel

/-- At a seam the placeholder goes on with a full stop, so no name can
follow in its place. -/
theorem KeySeam.not_followed {ps : List Piece} {l w run key z : Text} {d : Char}
    (h : KeySeam ps l w)
    (htext : render (fun _ => apiKeyPlaceholder) ps = l ++ (run ++ (key ++ d :: z)))
    (hrun : ∀ c ∈ run, isKeyChar c = true) (hname : IsName key)
    (hd : isKeyChar d = false) (hdot : d ≠ '.') : False := by
  obtain ⟨a, z', hseen, hchars⟩ := h.render_eq
  rw [htext, List.append_cancel_left_eq, ← List.append_assoc run] at hseen
  obtain ⟨o, ho⟩ := prefix_of_append_eq (p := fun c => isKeyChar c = true) hchars
    (by rw [hd]; exact Bool.false_ne_true) hseen.symm
  rw [← ho, List.append_assoc, List.append_cancel_left_eq] at hseen
  cases o with
  | nil => exact hdot (List.cons.inj hseen).1
  | cons e o =>
    have hmem : '.' ∈ run ++ key := by
      rw [← ho, (List.cons.inj hseen).1]
      exact List.mem_append_right _ List.mem_cons_self
    rcases List.mem_append.mp hmem with hmem | hmem
    · exact absurd (hrun '.' hmem) (by decide)
    · exact absurd (hname.chars '.' hmem) (by decide)

/-- A key behind the pass over secrets was there before it, at a seam, and outside every
assignment. -/
theorem plain_of_secrets_pass {ks ps : List Piece} {t l w r : Text}
    (keys : Cut readApiKey ks t)
    (cut : Cut readSecret ps (render (fun _ => apiKeyPlaceholder) ks)) (hw : IsKey w)
    (h : Placed replaceSecret ps l w r) :
    ∃ front back, ps = front ++ w.map .plain ++ back ∧ l = render replaceSecret front ∧
      KeySeam ks (render id front) w := by
  have hseam : ∀ m n : Text, render id ps = m ++ (w ++ n) → KeySeam ks m w := by
    intro m n hm
    rw [cut.render_id] at hm
    exact keySeam_of_placed keys hw (Placed.of_render hw.ne_nil hm)
  cases h with
  | clear front back split before _ =>
    refine ⟨front, back, split, before, hseam _ (render id back) ?_⟩
    rw [split, render_append, render_append, render_map_plain, List.append_assoc]
  | within front x back a b split cutAt nonempty _ overlap =>
    exfalso
    rw [split] at cut
    obtain ⟨key, a', rfl, hname, _⟩ := secret_of_hit cut
    exact hw.append_ne_of_fold (apart_foldedReference _ hname _
      (suffix_of_reference hname cutAt)
      (by simpa using nonempty)) _ _ overlap
  | into front run x back s split _ _ word _ overlap =>
    exfalso
    have hread := cut
    rw [split] at hread
    obtain ⟨key, a, rfl, hname, ha⟩ := secret_of_hit hread
    obtain ⟨name, href, -⟩ := replaceSecret_append hname a
    have hs : s <+: key := by
      rw [href, List.append_assoc] at overlap
      exact prefix_of_append_eq (p := fun c => isKeyChar c = true)
        (fun c hc => hw.chars c (by rw [word]; exact List.mem_append_right run hc))
          (by decide) overlap
    -- so the key stands in the text that the pass reads, at a seam, and a name follows
    obtain ⟨o, ho⟩ := hs
    have htext :
        render id ps = render id front ++ (run ++ (key ++ (a ++ render id back))) := by
      rw [split, render_append, render_append, render_map_plain, render_hit]
      simp only [List.append_assoc, id_eq]
    have hkeySeam : KeySeam ks (render id front) w := by
      refine hseam _ (o ++ (a ++ render id back)) ?_
      rw [htext, word, ← ho]
      simp only [List.append_assoc]
    obtain ⟨d, z, had, hd⟩ := ha.exists_cons
    rw [cut.render_id, had] at htext
    refine hkeySeam.not_followed htext
      (fun c hc => hw.chars c (by rw [word]; exact List.mem_append_left s hc)) hname ?_ ?_
    · rcases hd with hd | rfl | rfl
      · exact not_isKeyChar_of_isBlank hd
      · decide
      · decide
    · rintro rfl
      rcases hd with hd | hd | hd <;> exact absurd hd (by decide)

/-- Nor within the marker for addresses. -/
theorem apart_emailPlaceholder :
    ∀ b ∈ emailPlaceholder.tails, b ≠ [] → ∀ p ∈ keyStems, Apart p b := by
  decide +kernel

/-- A key behind the pass over addresses was there before it, outside every address. -/
theorem plain_of_emails_pass {ps : List Piece} {l w r : Text} (hw : IsKey w)
    (h : Placed (fun _ => emailPlaceholder) ps l w r) :
    ∃ front back, ps = front ++ w.map .plain ++ back ∧
      l = render (fun _ => emailPlaceholder) front := by
  cases h with
  | clear front back split before _ => exact ⟨front, back, split, before⟩
  | within front x back a b split cutAt nonempty _ overlap =>
    exfalso
    have hb : b ∈ emailPlaceholder.tails := (List.mem_tails b _).mpr ⟨a, cutAt.symm⟩
    exact hw.append_ne (apart_emailPlaceholder b hb nonempty) _ _ overlap
  | into front run x back s split _ goesOn word _ overlap =>
    exfalso
    cases s with
    | nil => exact goesOn rfl
    | cons c s =>
      obtain rfl : c = '[' := (List.cons.inj overlap).1
      exact absurd (hw.chars '['
        (by rw [word]; exact List.mem_append_right run List.mem_cons_self))
        (by decide)

end CodeWeave.Sensitive
