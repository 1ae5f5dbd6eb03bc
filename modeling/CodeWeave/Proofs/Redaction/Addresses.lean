import CodeWeave.Proofs.Redaction.Secrets

/-!
# E-mail addresses across the passes

The pass over addresses is the last one, and nothing stands behind its markers that was
not there before. So it is the one pass without a seam:

> `not_occurs_address`: behind it no address is left.

> `occurs_secret_of_emails_pass`, `occurs_secret_behind_emails_pass`: it makes no assigned
> secret, and the ones that the pass over secrets leaves survive it.
-/

namespace CodeWeave.Sensitive

open Text Redaction

/-! ## Addresses, character by character -/

def isAddressChar (c : Char) : Bool := isLocalChar c || c == '@'

theorem isAddressChar_of_isAlphanum {c : Char} (h : c.isAlphanum = true) :
    isAddressChar c = true := by
  unfold isAddressChar isLocalChar
  rw [h]
  rfl

theorem isAddressChar_of_isDomainChar {c : Char} (h : isDomainChar c = true) :
    isAddressChar c = true := by
  unfold isDomainChar at h
  rw [Bool.or_eq_true, Bool.or_eq_true, beq_iff_eq, beq_iff_eq] at h
  rcases h with (h | rfl) | rfl
  · exact isAddressChar_of_isAlphanum h
  · decide
  · decide

theorem IsAddress.chars {w : Text} (h : IsAddress w) :
    ∀ c ∈ w, isAddressChar c = true := by
  intro c hc
  cases h with
  | mk loc d x tld _ hloc hd hx _ hletters =>
    rw [List.mem_append, List.mem_cons, List.mem_cons, List.mem_append,
      List.mem_cons] at hc
    rcases hc with hc | rfl | rfl | hc | rfl | hc
    · unfold isAddressChar
      rw [hloc c hc]
      rfl
    · decide
    · exact isAddressChar_of_isDomainChar hd
    · exact isAddressChar_of_isDomainChar (hx c hc)
    · decide
    · refine isAddressChar_of_isAlphanum ?_
      unfold Char.isAlphanum
      rw [hletters c hc]
      rfl

/-- Addresses hold nothing that an assignment puts around its value. -/
theorem isAddressChar_plain {c : Char} (h : isAddressChar c = true) :
    isBlank c = false ∧ isQuote c = false ∧ c ≠ ':' ∧ c ≠ '=' := by
  have hascii : c.toNat < 128 := by
    unfold isAddressChar isLocalChar at h
    simp only [Bool.or_eq_true, beq_iff_eq] at h
    rcases h with (((((h | rfl) | rfl) | rfl) | rfl) | rfl) | rfl
    · exact lt_of_isAlphanum h
    all_goals decide
  exact ascii_cases (p := fun c => isAddressChar c = true → isBlank c = false ∧
    isQuote c = false ∧
    c ≠ ':' ∧ c ≠ '=') (by decide) hascii h

/-- What follows the name in an assignment starts with a character of no address. -/
theorem IsAssigned.exists_break {a : Text} (ha : IsAssigned a) :
    ∃ d z, a = d :: z ∧ isAddressChar d = false := by
  obtain ⟨d, z, had, hd⟩ := ha.exists_cons
  refine ⟨d, z, had, Bool.eq_false_iff.mpr fun haddress => ?_⟩
  obtain ⟨hblank, _, hcolon, hequals⟩ := isAddressChar_plain haddress
  rcases hd with hd | hd | hd
  · rw [hblank] at hd
    exact Bool.noConfusion hd
  · exact hcolon hd
  · exact hequals hd

theorem IsAddress.at_mem {w : Text} (h : IsAddress w) : '@' ∈ w := by
  cases h with
  | mk loc d x tld _ _ _ _ _ _ => exact List.mem_append_right loc List.mem_cons_self

/-! ## No address is left -/

/-- The marker, once begun, goes on to a bracket and not to an `@`. -/
theorem emailPlaceholder_stops :
    ∀ b ∈ emailPlaceholder.tails, b ≠ [] →
      (b.dropWhile isLocalChar).head? = some '[' ∨ (b.dropWhile isLocalChar).head? =
        some ']' := by
  decide +kernel

/-- No address starts within the marker. -/
theorem IsAddress.append_ne {w : Text} (hw : IsAddress w) {b : Text}
    (hb : b ∈ emailPlaceholder.tails) (hne : b ≠ []) (r z : Text) : w ++ r ≠ b ++ z := by
  intro heq
  cases hw with
  | mk loc d x tld _ hloc _ _ _ _ =>
    -- behind their local characters, one text goes on with `@` and the
    -- other with a bracket
    have hdrop := congrArg (List.dropWhile isLocalChar) heq
    rw [List.append_assoc, List.cons_append,
      (takeWhile_append_of_neg hloc (by decide) _).2,
      List.dropWhile_append] at hdrop
    have hhead := emailPlaceholder_stops b hb hne
    cases hrest : b.dropWhile isLocalChar with
    | nil =>
      rw [hrest] at hhead
      rcases hhead with h | h <;> exact absurd h (by simp)
    | cons e u =>
      rw [hrest] at hdrop hhead
      obtain rfl : '@' = e := (List.cons.inj hdrop).1
      rcases hhead with h | h <;> exact absurd (Option.some.inj h) (by decide)

/-- Where the addresses were, there are none afterwards. -/
theorem not_occurs_address {qs : List Piece} {v : Text} (cut : Cut readEmail qs v) :
    ¬ Occurs IsAddress (render (fun _ => emailPlaceholder) qs) := by
  intro h
  obtain ⟨l, w, r, htext, hw⟩ := h
  cases Placed.of_render hw.ne_nil htext with
  | clear front back split _ _ =>
    rw [split] at cut
    exact cut.not_word accepts_address hw.ne_nil hw
  | within front x back c b split cutAt nonempty _ overlap =>
    have hb : b ∈ emailPlaceholder.tails := (List.mem_tails b _).mpr ⟨c, cutAt.symm⟩
    exact hw.append_ne hb nonempty _ _ overlap
  | into front run x back s split _ goesOn word _ overlap =>
    obtain ⟨n, s', rfl⟩ := List.exists_cons_of_ne_nil goesOn
    obtain rfl : n = '[' := (List.cons.inj overlap).1
    have hbracket :=
      hw.chars '[' (by rw [word]; exact List.mem_append_right run List.mem_cons_self)
    exact absurd hbracket (by decide)

/-! ## Assigned secrets and markers -/

/-- No secret word starts within the marker. -/
theorem apart_secretWords :
    ∀ b ∈ emailPlaceholder.tails, b ≠ [] → ∀ word ∈ secretWords,
      Apart word (b.map foldCase) := by
  decide +kernel

/-- Neither a name nor what follows one starts with the bracket of a marker. -/
theorem not_bracket_of_split {key a k s' : Text} (name : IsName key)
    (assigned : IsAssigned a) (hkey : ∃ run, key = run ++ k) : k ++ a ≠ '[' :: s' := by
  intro heq
  obtain ⟨run, hkey⟩ := hkey
  cases k with
  | nil =>
    obtain ⟨d, z, had, hd⟩ := assigned.exists_cons
    rw [List.nil_append, had] at heq
    rw [(List.cons.inj heq).1] at hd
    rcases hd with hd | hd | hd <;> exact absurd hd (by decide)
  | cons d k =>
    have hd :=
      name.chars d (by rw [hkey]; exact List.mem_append_right run List.mem_cons_self)
    rw [(List.cons.inj heq).1] at hd
    exact absurd hd (by decide)

/-- A quote behind a cut for addresses is a plain character, whatever stands
for the addresses. -/
theorem quote_mem_render {qs : List Piece} (new new' : Text → Text) {q : Char}
    (hnew : ∀ x, .hit x ∈ qs → q ∉ new x) (hq : q ∈ render new qs) : q ∈ render new' qs :=
  mem_render_of_plain_mem new' (plain_mem_of_mem_render hnew hq)

theorem quote_not_mem_emailPlaceholder {q : Char} (hq : isQuote q = true) :
    q ∉ emailPlaceholder := by
  intro hmem
  exact absurd hq (by
    rw [(forall_mem_of_all (by decide) : ∀ c ∈ emailPlaceholder, isQuote c =
      false) q hmem]
    exact Bool.false_ne_true)

theorem quote_not_mem_address {q : Char} (hq : isQuote q = true) {x : Text}
    (hx : IsAddress x) :
    q ∉ x := by
  intro hmem
  rw [(isAddressChar_plain (hx.chars q hmem)).2.1] at hq
  exact Bool.noConfusion hq

/-- An assigned secret behind the pass over addresses was there before it, or one
with the same name. -/
theorem occurs_secret_of_emails_pass {qs : List Piece} {v l w r : Text}
    (cut : Cut readEmail qs v) (hw : IsSecret w)
    (h : Placed (fun _ => emailPlaceholder) qs l w r) : Occurs IsSecret v := by
  cases h with
  | clear front back split _ _ =>
    refine ⟨render id front, w, render id back, ?_, hw⟩
    rw [← cut.render_id, split, render_append, render_append, render_map_plain,
      List.append_assoc]
  | within front x back c b split cutAt nonempty _ overlap =>
    exfalso
    obtain ⟨key, a, name, _⟩ := hw
    have hb : b ∈ emailPlaceholder.tails := (List.mem_tails b _).mpr ⟨c, cutAt.symm⟩
    rw [List.append_assoc] at overlap
    refine (apart_secretWords b hb nonempty _ name).append_ne ((a ++ r).map foldCase)
      ((render (fun _ => emailPlaceholder) back).map foldCase) ?_
    rw [← List.map_append, ← List.map_append, overlap]
  | into front run x back s split _ goesOn word _ overlap =>
    obtain ⟨key, a, name, assigned⟩ := hw
    obtain ⟨n, s', rfl⟩ := List.exists_cons_of_ne_nil goesOn
    obtain rfl : n = '[' := (List.cons.inj overlap).1
    rcases List.append_eq_append_iff.mp word with ⟨c, hrun, ha⟩ | ⟨k, hkey, hs⟩
    · -- the marker breaks the value off; the address in its place did not end it either
      rw [split] at cut
      have haddress := address_of_hit cut
      obtain ⟨e, x', rfl⟩ := List.exists_cons_of_ne_nil haddress.ne_nil
      obtain ⟨q, hq, hquote⟩ := assigned.quote_mem ha goesOn
      have hback : q ∈ render id back := by
        refine quote_mem_render (fun _ => emailPlaceholder) id
          (fun _ _ => quote_not_mem_emailPlaceholder hquote) ?_
        have hmem : q ∈ emailPlaceholder ++ render (fun _ => emailPlaceholder) back := by
          rw [← overlap]
          exact List.mem_append_left r hq
        exact (List.mem_append.mp hmem).resolve_left
          (quote_not_mem_emailPlaceholder hquote)
      obtain ⟨b, r', hb, hassigned⟩ := assigned.reopen ha (by decide)
        (isAddressChar_plain (haddress.chars e List.mem_cons_self)).2.1 hquote
        (List.mem_append_right x' hback)
      refine ⟨render id front, key ++ b, r', ?_, .mk key b name hassigned⟩
      rw [← cut.render_id, render_append, render_append, render_map_plain, render_hit,
        id_eq, hrun, List.append_assoc key b, ← hb]
      simp only [List.append_assoc, List.cons_append]
    · exact absurd hs.symm (not_bracket_of_split name assigned ⟨run, hkey⟩)

/-- What an address ends in, if it is part of a name, belongs to its top-level domain. -/
theorem IsAddress.tail_of_name {x c b : Text} (hx : IsAddress x) (hsplit : x = c ++ b)
    (hb : ∀ d ∈ b, isNameChar d = true) :
    ∃ u e, c = u ++ '.' :: e ∧ ∀ d ∈ e, d.isAlpha = true := by
  have hdot : '.' ∉ b := fun hmem => absurd (hb '.' hmem) (by decide)
  cases hx with
  | mk loc d x' tld _ _ _ _ _ hletters =>
    rw [← List.cons_append, ← List.cons_append, ← List.append_assoc] at hsplit
    rcases List.append_eq_append_iff.mp hsplit with ⟨o, hc, ho⟩ | ⟨o, _, ho⟩
    · cases o with
      | nil =>
        exact absurd (by rw [← List.nil_append b, ← ho]; exact List.mem_cons_self) hdot
      | cons d' o =>
        obtain ⟨rfl, htld⟩ := List.cons.inj ho
        exact ⟨_, o, hc,
          fun e he => hletters e (by rw [htld]; exact List.mem_append_left b he)⟩
    · exact absurd (by rw [ho]; exact List.mem_append_right o List.mem_cons_self) hdot

/-- The last full stop and the last underscore of a text are not both followed by letters
and by name characters only. -/
theorem stem_ne {l e u e' : Text} (he : ∀ c ∈ e, isNameChar c = true)
    (hletters : ∀ c ∈ e', c.isAlpha = true) : l ++ '_' :: e ≠ u ++ '.' :: e' := by
  intro heq
  rcases List.append_eq_append_iff.mp heq with ⟨o, _, ho⟩ | ⟨o, _, ho⟩
  · have hmem : '.' ∈ '_' :: e := by
      rw [ho]
      exact List.mem_append_right o List.mem_cons_self
    rcases List.mem_cons.mp hmem with h | h
    · exact absurd h (by decide)
    · exact absurd (he '.' h) (by decide)
  · have hmem : '_' ∈ '.' :: e' := by
      rw [ho]
      exact List.mem_append_right o List.mem_cons_self
    rcases List.mem_cons.mp hmem with h | h
    · exact absurd h (by decide)
    · exact absurd (hletters '_' h) (by decide)

/-- An assigned secret behind the underscore of a variable survives the pass
over addresses. -/
theorem occurs_secret_behind_emails_pass {qs : List Piece} {v l e w r : Text}
    (cut : Cut readEmail qs v) (htext : v = l ++ '_' :: (e ++ (w ++ r)))
    (he : ∀ c ∈ e, isNameChar c = true) (hw : IsSecret w) :
    Occurs IsSecret (render (fun _ => emailPlaceholder) qs) := by
  have hplaced : Placed id qs (l ++ '_' :: e) w r := by
    refine Placed.of_render hw.ne_nil ?_
    rw [cut.render_id, htext]
    simp only [List.append_assoc, List.cons_append]
  cases hplaced with
  | clear front back split _ _ =>
    refine ⟨render (fun _ => emailPlaceholder) front, w,
      render (fun _ => emailPlaceholder) back, ?_, hw⟩
    rw [split, render_append, render_append, render_map_plain, List.append_assoc]
  | within front x back c b split cutAt _ before overlap =>
    -- the name would start within the top-level domain of the address, right
    -- behind the underscore
    exfalso
    obtain ⟨key, a, name, assigned⟩ := hw
    rw [split] at cut
    have haddress := address_of_hit cut
    obtain ⟨d, z, had, hd⟩ := assigned.exists_break
    have hb : b <+: key := by
      rw [had, List.append_assoc, List.cons_append] at overlap
      refine prefix_of_append_eq (p := fun c => isAddressChar c = true) (fun c' hc' => ?_)
        (by rw [hd]; exact Bool.false_ne_true) overlap.symm
      exact haddress.chars c'
        (by rw [show x = c ++ b from cutAt]; exact List.mem_append_right c hc')
    obtain ⟨u, e', hc, he'⟩ := haddress.tail_of_name cutAt fun c' hc' =>
      name.chars c' (hb.subset hc')
    rw [hc, ← List.append_assoc] at before
    exact stem_ne he he' before
  | into front run x back s split start goesOn word _ overlap =>
    obtain ⟨key, a, name, assigned⟩ := hw
    have hcut := cut
    rw [split] at hcut
    have haddress := address_of_hit hcut
    rcases List.append_eq_append_iff.mp word with ⟨c, hrun, ha⟩ | ⟨k, hkey, hs⟩
    · -- the address breaks the value off; the marker in its place does not end it either
      obtain ⟨n, s', rfl⟩ := List.exists_cons_of_ne_nil goesOn
      obtain ⟨n', x', rfl⟩ := List.exists_cons_of_ne_nil haddress.ne_nil
      obtain rfl : n = n' := (List.cons.inj overlap).1
      obtain ⟨q, hq, hquote⟩ := assigned.quote_mem ha goesOn
      have hback : q ∈ render (fun _ => emailPlaceholder) back := by
        refine quote_mem_render id _ (fun y hy => ?_) ?_
        · obtain ⟨r₁, hr₁⟩ :=
            cut.found_of_mem
            (by rw [split]; exact List.mem_append_right _ (List.mem_cons_of_mem _ hy))
          obtain ⟨y', hy', hyaddress⟩ := address_sound hr₁
          rw [List.append_cancel_right hy']
          exact quote_not_mem_address hquote hyaddress
        · have hmem : q ∈ (n :: x') ++ render id back := by
            rw [show (n :: x') ++ render id back = (n :: s') ++ r from overlap.symm]
            exact List.mem_append_left r hq
          exact (List.mem_append.mp hmem).resolve_left
            (quote_not_mem_address hquote haddress)
      obtain ⟨b, r', hb, hassigned⟩ := assigned.reopen ha
        (isAddressChar_plain (haddress.chars n List.mem_cons_self)) (e := '[')
          (by decide) hquote
        (List.mem_append_right "REDACTED_EMAIL]".toList hback)
      refine ⟨render (fun _ => emailPlaceholder) front, key ++ b, r', ?_,
        .mk key b name hassigned⟩
      rw [split, render_append, render_append, render_map_plain, render_hit, hrun,
        List.append_assoc key b, ← hb]
      simp only [List.append_assoc]
      rfl
    · -- the address would stand within the name
      exfalso
      obtain ⟨d, z, had, hd⟩ := assigned.exists_break
      have hx : x <+: k := by
        rw [hs, had, List.append_assoc, List.cons_append] at overlap
        exact prefix_of_append_eq (p := fun c => isAddressChar c = true) haddress.chars
          (by rw [hd]; exact Bool.false_ne_true) overlap.symm
      have hat : '@' ∈ key := by
        rw [hkey]
        exact List.mem_append_right run (hx.subset haddress.at_mem)
      exact absurd (name.chars '@' hat) (by decide)

end CodeWeave.Sensitive
