import CodeWeave.Proofs.Redaction.Completeness

/-!
# Quoted values

The pattern of a secret opens its value at either quote and closes it at either quote. A
value in double quotes therefore ends at an apostrophe, and what stands behind that is not
part of the secret:

> `redact_secret_append`: an assigned secret at the head of a text is exchanged for its
> reference, and the text behind it is redacted on its own. It does not matter whether
> the value holds API keys or addresses: a key in it is replaced first, and its
> placeholder is a value too.

> `redact_quoted_iff`: an assignment whose value stands between two quotes of one
> kind is exchanged as a whole exactly if no quote stands in the value, not even
> of the other kind.

A quote right behind the opening one even keeps the assignment from being recognised
(`quote_mem_redact`).
-/

namespace CodeWeave.Sensitive

open Text Redaction

/-! ## API keys before and behind a quote -/

theorem not_isKeyChar_of_isQuote {q : Char} (hq : isQuote q = true) :
    isKeyChar q = false := by
  unfold isQuote at hq
  rw [Bool.or_eq_true, beq_iff_eq, beq_iff_eq] at hq
  rcases hq with rfl | rfl <;> decide

/-- The pass over API keys leaves a quote where it is, and reads the text
behind it on its own. -/
theorem redactApiKeys_append_quote {q : Char} (hq : isQuote q = true) (a b : Text) :
    ∃ front, render id front = a ∧ (∀ x, .hit x ∈ front →
      ∃ r, readApiKey (x ++ r) = some r) ∧
      redactApiKeys (a ++ q :: b) =
        render (fun _ => apiKeyPlaceholder) front ++ q :: redactApiKeys b := by
  have cut := cut_apiKeys (a ++ q :: b)
  have hquote : ∀ x, .hit x ∈ apiKeys.pattern.pieces (a ++ q :: b) → q ∉ x := by
    intro x hx hmem
    obtain ⟨r, hr⟩ := cut.found_of_mem hx
    have hkey := isKeyChar_of_found hr q hmem
    rw [not_isKeyChar_of_isQuote hq] at hkey
    exact Bool.noConfusion hkey
  obtain ⟨front, back, hsplit, hfront, hback⟩ := cut.exists_split hquote
  refine ⟨front, hfront, fun x hx => ?_, ?_⟩
  · exact cut.found_of_mem (by rw [hsplit]; exact List.mem_append_left _ hx)
  · show apiKeys.pattern.replace _ (a ++ q :: b) = _
    rw [replace_eq_render, hsplit, render_append, render_plain, ← hback.pieces_eq]
    rfl

/-- What stands before the quote stays if it holds no key. -/
theorem redactApiKeys_behind {q : Char} (hq : isQuote q = true) {a : Text}
    (ha : ¬ Occurs IsKey a) (b : Text) :
    redactApiKeys (a ++ q :: b) = a ++ q :: redactApiKeys b := by
  obtain ⟨front, hfront, hfound, hkeys⟩ := redactApiKeys_append_quote hq a b
  rw [hkeys, render_eq_of_no_hit, hfront]
  intro x hx
  obtain ⟨r, hr⟩ := hfound x hx
  obtain ⟨w, o, hxr, hw, _⟩ := apiKey_sound hr
  obtain ⟨before, behind, hparts⟩ := List.append_of_mem hx
  refine ha ⟨render id before, w, o ++ render id behind, ?_, hw⟩
  rw [← hfront, hparts, render_append, render_hit, id_eq, List.append_cancel_right hxr]
  simp only [List.append_assoc]

/-- A value before the quote is one also when its keys have been replaced. -/
theorem redactApiKeys_value {q : Char} (hq : isQuote q = true) {v : Text} (hne : v ≠ [])
    (hv : ∀ c ∈ v, isQuote c = false) (b : Text) :
    ∃ v', redactApiKeys (v ++ q :: b) = v' ++ q :: redactApiKeys b ∧ v' ≠ [] ∧
      ∀ c ∈ v', isQuote c = false := by
  obtain ⟨front, hfront, -, hkeys⟩ := redactApiKeys_append_quote hq v b
  refine ⟨_, hkeys, render_ne_nil (fun hnil => ?_) fun _ _ => by decide, fun c hc => ?_⟩
  · rw [hnil] at hfront
    exact hne hfront.symm
  · refine Bool.eq_false_iff.mpr fun hquote => ?_
    -- a quote of the new value is none of the placeholder's, so it stood in the old one
    have hplaceholder : ∀ c ∈ apiKeyPlaceholder, isQuote c = false :=
      forall_mem_of_all (by decide)
    have hold : c ∈ render id front := by
      refine quote_mem_render _ id (fun _ _ hmem => ?_) hc
      rw [hplaceholder c hmem] at hquote
      exact Bool.noConfusion hquote
    rw [hfront] at hold
    rw [hv c hold] at hquote
    exact Bool.noConfusion hquote

/-! ## Up to the opening quote -/

/-- Every API key has a character that stands neither in a name nor around it. -/
theorem IsKey.exists_foreign {w : Text} (h : IsKey w) : ∃ d ∈ w, d = '-' ∨ d = 'z' := by
  cases h with
  | short a _ _ => exact ⟨'-', List.mem_append_left a (by decide), Or.inl rfl⟩
  | long b _ _ => exact ⟨'z', List.mem_append_left b (by decide), Or.inr rfl⟩

theorem IsName.not_mem {key : Text} (h : IsName key) {d : Char} (hd : d = '-' ∨ d = 'z') :
    d ∉ key := by
  intro hmem
  have hwords : ∀ word ∈ secretWords, '-' ∉ word ∧ 'z' ∉ word := by decide
  have hfold : foldCase d ∈ key.map foldCase := List.mem_map_of_mem hmem
  rcases hd with rfl | rfl
  · exact (hwords _ h).1 hfold
  · exact (hwords _ h).2 hfold

section Front

variable {key s₁ s₂ : Text} {x : Char} (name : IsName key)
  (blanks₁ : ∀ c ∈ s₁, isBlank c = true)
  (separator : x = ':' ∨ x = '=') (blanks₂ : ∀ c ∈ s₂, isBlank c = true)

include blanks₁ separator blanks₂

theorem mem_front {d : Char} (h : d ∈ key ++ (s₁ ++ x :: s₂)) :
    d ∈ key ∨ isBlank d = true ∨ d = ':' ∨ d = '=' := by
  rw [List.mem_append, List.mem_append, List.mem_cons] at h
  rcases h with h | h | rfl | h
  · exact Or.inl h
  · exact Or.inr (Or.inl (blanks₁ d h))
  · exact Or.inr (Or.inr separator)
  · exact Or.inr (Or.inl (blanks₂ d h))

include name

/-- No quote stands before the opening one. -/
theorem not_quote_of_mem_front : ∀ d ∈ key ++ (s₁ ++ x :: s₂), isQuote d = false := by
  intro d hd
  rcases mem_front blanks₁ separator blanks₂ hd with h | h | rfl | rfl
  · exact (isNameChar_plain (name.chars d h)).2
  · refine Bool.eq_false_iff.mpr fun hquote => ?_
    rw [not_isBlank_of_isQuote hquote] at h
    exact Bool.noConfusion h
  · decide
  · decide

/-- No API key stands before the opening quote. -/
theorem not_occurs_key_front : ¬ Occurs IsKey (key ++ (s₁ ++ x :: s₂)) := by
  intro h
  obtain ⟨l, w, r, htext, hw⟩ := h
  obtain ⟨d, hd, hforeign⟩ := hw.exists_foreign
  have hmem : d ∈ key ++ (s₁ ++ x :: s₂) := by
    rw [htext]
    exact List.mem_append_right l (List.mem_append_left r hd)
  rcases mem_front blanks₁ separator blanks₂ hmem with h | h | rfl | rfl
  · exact name.not_mem hforeign h
  · rcases hforeign with rfl | rfl <;> exact absurd h (by decide)
  · exact absurd hforeign (by decide)
  · exact absurd hforeign (by decide)

end Front

/-! ## Assignments -/

/-- An assigned secret at the head of a text is exchanged for its reference, whatever its
value, and the text behind it is read on its own. -/
theorem redact_secret_append {key a : Text} (name : IsName key) (assigned : IsAssigned a)
    (r : Text) :
    redact (key ++ a ++ r) =
      redactEmails (secretReference key ++ redactSecrets (redactApiKeys r)) := by
  cases assigned with
  | mk s₁ x s₂ q v q' blanks₁ separator blanks₂ opening nonempty value closing =>
    obtain ⟨v', hv', hne', hvalue'⟩ := redactApiKeys_value closing nonempty value r
    have hkeys : redactApiKeys (key ++ (s₁ ++ x :: (s₂ ++ q :: (v ++ [q']))) ++ r) =
        key ++ (s₁ ++ x :: (s₂ ++ q :: (v' ++ [q']))) ++ redactApiKeys r := by
      have hfront := redactApiKeys_behind opening
        (not_occurs_key_front name blanks₁ separator blanks₂) (v ++ q' :: r)
      rw [hv'] at hfront
      simp only [List.append_assoc, List.cons_append, List.nil_append] at hfront ⊢
      exact hfront
    have hassigned : IsAssigned (s₁ ++ x :: (s₂ ++ q :: (v' ++ [q']))) :=
      .mk s₁ x s₂ q v' q' blanks₁ separator blanks₂ opening hne' hvalue' closing
    have hsecret : redactSecrets (key ++ (s₁ ++ x :: (s₂ ++ q :: (v' ++ [q']))) ++
        redactApiKeys r) =
        replaceSecret (key ++ (s₁ ++ x :: (s₂ ++ q :: (v' ++ [q'])))) ++
          redactSecrets (redactApiKeys r) :=
      replace_append_of_found advances_secret replaceSecret
        (List.append_ne_nil_of_left_ne_nil name.ne_nil _)
          (secret_complete name hassigned _)
    unfold redact
    rw [hkeys, hsecret, replaceSecret_eq name]

/-- An assigned secret that is the whole text leaves its reference and nothing else. -/
theorem redact_secret {key a : Text} (name : IsName key) (assigned : IsAssigned a) :
    redact (key ++ a) = secretReference key := by
  have hredact := redact_secret_append name assigned []
  have haddress : ¬ Occurs IsAddress (secretReference key) := by
    intro h
    obtain ⟨l, w, r, href, hw⟩ := h
    refine not_mem_secretReference name (d := '@') (by decide) (by decide) ?_
    rw [href]
    exact List.mem_append_right l (List.mem_append_left r hw.at_mem)
  have hnothing : redactSecrets (redactApiKeys []) = [] := by decide +kernel
  rw [List.append_nil, hnothing, List.append_nil] at hredact
  rw [hredact]
  exact replace_eq_self advances_address accepts_address _ haddress

/-- If text remains behind an assigned secret, then something remains
behind the reference. -/
theorem redact_secret_append_ne {key a r : Text} (name : IsName key)
    (assigned : IsAssigned a) (hr : r ≠ []) :
    redact (key ++ a ++ r) ≠ secretReference key := by
  rw [redact_secret_append name assigned]
  have hrest : redactSecrets (redactApiKeys r) ≠ [] := by
    refine replace_ne_nil advances_secret (fun x r' hread => ?_)
      (replace_ne_nil advances_apiKey (fun _ _ _ => by decide) hr)
    obtain ⟨key', a', hx, name', -⟩ := secret_sound hread
    rw [List.append_cancel_right hx, replaceSecret_eq name']
    unfold secretReference
    simp
  rcases replace_eq_self_or_infix advances_address (fun _ => emailPlaceholder)
    (secretReference key ++ redactSecrets (redactApiKeys r)) with hsame | ⟨x, -, hmarker⟩
  · intro heq
    exact hrest (List.append_right_eq_self.mp (hsame.symm.trans heq))
  · -- a marker has a bracket, and a reference has none
    intro heq
    have hbracket : '[' ∈ secretReference key := by
      rw [← heq]
      exact hmarker.subset (by decide)
    exact not_mem_secretReference name (by decide) (by decide) hbracket

/-! ## Two quotes in a row -/

/-- A quote with another one right behind it is outside every assignment, if no quote
stands before it: it would open an empty value. -/
theorem plain_of_adjacent_quotes {ps : List Piece} {a b : Text} {q q' : Char}
    (cut : Cut readSecret ps (a ++ q :: q' :: b)) (ha : ∀ c ∈ a, isQuote c = false)
    (hq : isQuote q = true) (hq' : isQuote q' = true) : .plain q ∈ ps := by
  rcases render_eq_append (List.cons_ne_nil q _) cut.render_id with
    ⟨front, d, back, hsplit, -, hd⟩ | ⟨front, x, back, u, z, hsplit, hx, hz, hu, hqz⟩
  · obtain rfl : q = d := (List.cons.inj hd).1
    rw [hsplit]
    exact List.mem_append_right front List.mem_cons_self
  · exfalso
    rw [hsplit] at cut
    obtain ⟨key, c, hkc, name, assigned⟩ := secret_of_hit cut
    obtain ⟨e, z, rfl⟩ := List.exists_cons_of_ne_nil hz
    obtain ⟨rfl, hrest⟩ := List.cons.inj hqz
    cases assigned with
    | mk s₁ y s₂ q₁ v q₂ blanks₁ separator blanks₂ opening nonempty value closing =>
      -- the first quote of the assignment is its opening one, and a value follows that
      have hword : u ++ q :: z = (key ++ (s₁ ++ y :: s₂)) ++ q₁ :: (v ++ [q₂]) := by
        rw [show u ++ q :: z = x from hx.symm, hkc]
        simp only [List.append_assoc, List.cons_append]
      have hbefore : ∀ c ∈ u, isQuote c = false := fun c hc =>
        ha c (by rw [hu]; exact List.mem_append_right _ hc)
      obtain ⟨-, htail⟩ := append_cons_inj (p := fun c => isQuote c = false) hbefore
        (by rw [hq]; exact Bool.noConfusion)
        (not_quote_of_mem_front name blanks₁ separator blanks₂)
        (by rw [opening]; exact Bool.noConfusion) hword
      obtain ⟨n, v', rfl⟩ := List.exists_cons_of_ne_nil nonempty
      rw [(List.cons.inj htail).2] at hrest
      obtain rfl : q' = n := (List.cons.inj hrest).1
      rw [value q' List.mem_cons_self] at hq'
      exact Bool.noConfusion hq'

/-- Such a quote outlasts the redaction. -/
theorem quote_mem_redact {key s₁ s₂ b : Text} {x q q' : Char} (name : IsName key)
    (blanks₁ : ∀ c ∈ s₁, isBlank c = true) (separator : x = ':' ∨ x = '=')
    (blanks₂ : ∀ c ∈ s₂, isBlank c = true) (hq : isQuote q = true)
    (hq' : isQuote q' = true) :
    q ∈ redact (key ++ (s₁ ++ x :: s₂) ++ q :: q' :: b) := by
  have hnone : ¬ Occurs IsKey [] := fun h => by
    obtain ⟨l, w, r, htext, hw⟩ := h
    exact hw.ne_nil (List.append_eq_nil_iff.mp (List.append_eq_nil_iff.mp htext.symm).2).1
  have hkeys : redactApiKeys (key ++ (s₁ ++ x :: s₂) ++ q :: q' :: b) =
      key ++ (s₁ ++ x :: s₂) ++ q :: q' :: redactApiKeys b := by
    have hsecond := redactApiKeys_behind hq' hnone b
    rw [redactApiKeys_behind hq (not_occurs_key_front name blanks₁ separator blanks₂)]
    exact congrArg _ (congrArg _ hsecond)
  have hsecrets : q ∈
      redactSecrets (redactApiKeys (key ++ (s₁ ++ x :: s₂) ++ q :: q' :: b)) := by
    rw [hkeys]
    refine mem_render_of_plain_mem replaceSecret (plain_of_adjacent_quotes (cut_secrets _)
      (not_quote_of_mem_front name blanks₁ separator blanks₂) hq hq')
  have cut :=
    cut_emails (redactSecrets (redactApiKeys (key ++ (s₁ ++ x :: s₂) ++ q :: q' :: b)))
  rw [← cut.render_id] at hsecrets
  refine quote_mem_render id _ (fun y hy => ?_) hsecrets
  obtain ⟨r, hr⟩ := cut.found_of_mem hy
  obtain ⟨w, hyw, hw⟩ := address_sound hr
  rw [List.append_cancel_right hyw]
  exact quote_not_mem_address hq hw

/-! ## Values between quotes of one kind -/

/-- An assignment whose value stands between two quotes of one kind is exchanged for its
reference, with nothing of the value left, exactly if no quote stands in the value, not
even of the other kind. -/
theorem redact_quoted_iff {key s₁ s₂ v : Text} {x q : Char} (name : IsName key)
    (blanks₁ : ∀ c ∈ s₁, isBlank c = true) (separator : x = ':' ∨ x = '=')
    (blanks₂ : ∀ c ∈ s₂, isBlank c = true) (hq : isQuote q = true)
    (nonempty : v ≠ []) :
    redact (key ++ s₁ ++ [x] ++ s₂ ++ [q] ++ v ++ [q]) =
        key ++ ": process.env.".toList ++ variableName key ↔
      ∀ c ∈ v, isQuote c = false := by
  have href : key ++ ": process.env.".toList ++ variableName key =
      secretReference key := by
    unfold secretReference
    simp only [List.append_assoc]
    rfl
  rw [href]
  constructor
  · intro hredact
    by_contra hother
    push Not at hother
    obtain ⟨d, hd, hdquote⟩ := hother
    obtain ⟨z, q', r, rfl, hz, hq'⟩ := exists_first_quote hd (eq_true_of_ne_false hdquote)
    cases z with
    | nil =>
      -- two quotes in a row: the first one stays
      obtain ⟨hname, hmiddle⟩ := not_in_reference_of_isQuote hq
      refine not_mem_secretReference name hname hmiddle ?_
      rw [← hredact]
      have hstays :=
        quote_mem_redact (b := r ++ [q]) name blanks₁ separator blanks₂ hq hq'
      simp only [List.append_assoc, List.cons_append, List.nil_append] at hstays ⊢
      exact hstays
    | cons e z =>
      -- the value ends at the other quote, and the rest of it stays
      have assigned : IsAssigned (s₁ ++ x :: (s₂ ++ q :: ((e :: z) ++ [q']))) :=
        .mk s₁ x s₂ q (e :: z) q' blanks₁ separator blanks₂ hq
          (List.cons_ne_nil e z) hz hq'
      refine redact_secret_append_ne name assigned (r := r ++ [q]) (by simp) ?_
      rw [← hredact]
      simp only [List.append_assoc, List.cons_append, List.nil_append]
  · intro hvalue
    have assigned : IsAssigned (s₁ ++ x :: (s₂ ++ q :: (v ++ [q]))) :=
      .mk s₁ x s₂ q v q blanks₁ separator blanks₂ hq nonempty hvalue hq
    rw [← redact_secret name assigned]
    simp only [List.append_assoc, List.cons_append, List.nil_append]

/-- The value may hold an address, line breaks and the name of another secret. -/
theorem redact_quoted_lines :
    redact "Auth_Token =\n'me@a.io\npassword: x'".toList =
      "Auth_Token: process.env.VITE_AUTH_TOKEN".toList := by
  have name : IsName "Auth_Token".toList := by decide
  have blanks₁ : ∀ c ∈ " ".toList, isBlank c = true := forall_mem_of_all (by decide)
  have blanks₂ : ∀ c ∈ "\n".toList, isBlank c = true := forall_mem_of_all (by decide)
  have nonempty : "me@a.io\npassword: x".toList ≠ [] := by decide
  have hwhole := redact_quoted_iff (x := '=') (q := '\'') name blanks₁ (Or.inr rfl)
    blanks₂ rfl nonempty
  exact hwhole.mpr (forall_mem_of_all (by decide))

/-- A value in double quotes ends at its apostrophe, and the rest of it stays behind the
reference. With the apostrophe in front the whole of it stays. -/
theorem redact_leaves_rest_of_value :
    redact "password: \"it's\"".toList = "password: process.env.VITE_PASSWORD".toList ++
      "s\"".toList ∧
      redact "token: \"'x\"".toList = "token: \"'x\"".toList := by
  decide +kernel

end CodeWeave.Sensitive
