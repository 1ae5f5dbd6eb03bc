import CodeWeave.Proofs.Redaction.Completeness
import CodeWeave.Proofs.Text.Count

/-!
# Repeated redaction

A replacement can make a new match with what stands around it, so redacted text is not
always clean (`redact_complete_iff`). But it cannot go on like that for long.
`exposure` counts what a match needs: the quotes, the `@`, and the stems `sk-` and
`AIza` of a text. Each pass takes at least one of these away with everything it
replaces, and gives none back:

* a key takes its stem with it, an assigned secret its quotes, an address its `@`;
* neither placeholder, marker nor reference has a quote or an `@`;
* no stem starts inside what a pass puts in, nor does one run into it that did not run
into the replaced text (`Neutral`). A reference keeps the name in front, and the name may
end a stem, as in `AIzapi_key`: that stem was there before.

Hence every pass `Lowers` the exposure, and so does redaction:

> `redact_converges`: a redaction that changes a text lowers its exposure, so that
> repeating it comes to a text that it leaves alone, in which nothing is found.
-/

namespace CodeWeave.Sensitive

open Text Redaction

/-! ## The exposure of a text -/

/-- What the sensitive strings of a text need: quotes, signs of addresses,
and stems of keys. -/
def exposure (t : Text) : Nat :=
  t.countP isQuote + t.countP (· == '@') + occurrences "sk-".toList t +
    occurrences "AIza".toList t

theorem keyStems_ne_nil : ∀ w ∈ keyStems, w ≠ [] := by decide

theorem isKeyChar_of_mem_stem : ∀ w ∈ keyStems, ∀ c ∈ w, isKeyChar c = true := by
  have hall : ∀ w ∈ keyStems, w.all isKeyChar = true := by decide
  exact fun w hw => List.all_eq_true.mp (hall w hw)

/-- A key starts with one of the stems. -/
theorem IsKey.exists_stem {k : Text} (h : IsKey k) : ∃ w ∈ keyStems, w <+: k := by
  cases h with
  | short a _ _ => exact ⟨_, List.mem_cons_self, List.prefix_append _ a⟩
  | long b _ _ =>
    exact ⟨_, List.mem_cons_of_mem _ List.mem_cons_self, List.prefix_append _ b⟩

/-! ## What the passes put in -/

section Stems

variable {w : Text} (hw : w ∈ keyStems)

include hw

theorem neutral_apiKeyPlaceholder (x : Text) : Neutral w x apiKeyPlaceholder :=
  .of_head (fun u hu hne => (apart_apiKeyPlaceholder u hu hne w hw).append_ne)
    ((by decide : ∀ w ∈ keyStems, 'p' ∉ w) w hw)

theorem neutral_emailPlaceholder (x : Text) : Neutral w x emailPlaceholder :=
  .of_head (fun u hu hne => (apart_emailPlaceholder u hu hne w hw).append_ne)
    ((by decide : ∀ w ∈ keyStems, '[' ∉ w) w hw)

/-- A reference in the place of an assignment makes no new occurrence of the word. -/
theorem neutral_replaceSecret {key : Text} (name : IsName key) (a : Text) :
    Neutral w (key ++ a) (replaceSecret (key ++ a)) where
  starts := by
    intro u hu hne
    obtain ⟨l, hl⟩ := (List.mem_tails u _).mp hu
    exact (apart_foldedReference _ name _ (suffix_of_reference name hl.symm)
      (by simpa using hne) w
      hw).append_ne_of_fold
  enters := by
    intro run s r z hword _ hoverlap
    obtain ⟨upperName, href, -⟩ := replaceSecret_append name a
    have hs : ∀ c ∈ s, isKeyChar c = true := fun c hc =>
      isKeyChar_of_mem_stem w hw c (by rw [hword]; exact List.mem_append_right run hc)
    -- the colon behind the name stops the stem, and the name was there before
    rw [href, List.append_assoc] at hoverlap
    have hkey : s <+: key := prefix_of_append_eq hs (by decide) hoverlap
    exact hkey.trans (List.prefix_append key a)

end Stems

/-! ## The passes -/

section Passes

variable {w : Text} (hw : w ∈ keyStems)

include hw

/-- A pass of neutral replacements does not add to the stems, and it takes one away with
each hit that starts with it. -/
theorem occurrences_replace_le {read : Text → Option Text} (adv : Advances read)
    {new : Text → Text} (h : ∀ x r, read (x ++ r) = some r → Neutral w x (new x))
    (t : Text) :
    occurrences w ((Pattern.ofReader read).replace new t) +
      hitsFrom w ((Pattern.ofReader read).pieces t) ≤ occurrences w t := by
  have cut := cut_pieces adv t
  have hneutral : ∀ x, .hit x ∈ (Pattern.ofReader read).pieces t →
      Neutral w x (new x) := by
    intro x hx
    obtain ⟨r, hr⟩ := cut.found_of_mem hx
    exact h x r hr
  have hle := occurrences_render_le (keyStems_ne_nil w hw) hneutral
  rw [cut.render_id] at hle
  exact hle

/-- Redacting keys takes an occurrence away for each key. -/
theorem occurrences_redactApiKeys_le (t : Text) :
    occurrences w (redactApiKeys t) + hitsFrom w (apiKeys.pattern.pieces t) ≤
      occurrences w t :=
  occurrences_replace_le hw advances_apiKey
    (fun x _ _ => neutral_apiKeyPlaceholder hw x) t

/-- Redacting assignments adds no occurrence. -/
theorem occurrences_redactSecrets_le (t : Text) :
    occurrences w (redactSecrets t) ≤ occurrences w t := by
  have hneutral : ∀ x r, readSecret (x ++ r) = some r →
      Neutral w x (replaceSecret x) := by
    intro x r hread
    obtain ⟨key, a, hx, name, _⟩ := secret_sound hread
    rw [List.append_cancel_right hx]
    exact neutral_replaceSecret hw name a
  exact (Nat.le_add_right _ _).trans (occurrences_replace_le hw
    advances_secret hneutral t)

theorem occurrences_redactEmails_le (t : Text) :
    occurrences w (redactEmails t) ≤ occurrences w t :=
  (Nat.le_add_right _ _).trans
    (occurrences_replace_le hw advances_address
      (fun x _ _ => neutral_emailPlaceholder hw x) t)

end Passes

/-- The pass over secrets adds no signs of addresses. -/
theorem countP_signs_redactSecrets (t : Text) :
    (redactSecrets t).countP (· == '@') ≤ t.countP (· == '@') := by
  refine countP_replace_le (· == '@') advances_secret (fun x r hread => ?_) t
  obtain ⟨key, a, hx, name, _⟩ := secret_sound hread
  have hnone : (secretReference key).countP (· == '@') = 0 := by
    refine countP_secretReference name fun d hd => ?_
    rw [beq_iff_eq.mp hd]
    decide
  rw [List.append_cancel_right hx, replaceSecret_eq name, hnone]
  exact Nat.zero_le _

/-- With every key that is replaced a stem goes. -/
theorem lowers_redactApiKeys : Lowers exposure redactApiKeys := by
  intro t
  rcases replace_eq_self_or_infix advances_apiKey (fun _ => apiKeyPlaceholder) t
    with hsame | ⟨x, hx, _⟩
  · exact Or.inl hsame
  · refine Or.inr ?_
    have hshort := occurrences_redactApiKeys_le (w := "sk-".toList) (by decide) t
    have hlong := occurrences_redactApiKeys_le (w := "AIza".toList) (by decide) t
    have hquotes := countP_quotes_redactApiKeys t
    have hsigns := countP_signs_redactApiKeys t
    have hstem : 0 < hitsFrom "sk-".toList (apiKeys.pattern.pieces t) +
        hitsFrom "AIza".toList (apiKeys.pattern.pieces t) := by
      obtain ⟨r, hr⟩ := (cut_apiKeys t).found_of_mem hx
      obtain ⟨k, o, hxr, hk, _⟩ := apiKey_sound hr
      obtain rfl : x = k ++ o := List.append_cancel_right hxr
      obtain ⟨w, hw, hstart⟩ := hk.exists_stem
      have hpos := hitsFrom_pos hx (hstart.trans (List.prefix_append k o))
      unfold keyStems at hw
      rw [List.mem_cons, List.mem_singleton] at hw
      rcases hw with rfl | rfl
      · exact Nat.add_pos_left hpos _
      · exact Nat.add_pos_right _ hpos
    unfold exposure
    omega

/-- With every assignment that is replaced its quotes go. -/
theorem lowers_redactSecrets : Lowers exposure redactSecrets := by
  intro t
  by_cases hquotes : t.countP isQuote ≤ (redactSecrets t).countP isQuote
  · exact Or.inl (replace_eq_self advances_secret accepts_secret _
      (not_occurs_secret_of_countP hquotes))
  · refine Or.inr ?_
    have hsigns := countP_signs_redactSecrets t
    have hshort := occurrences_redactSecrets_le (w := "sk-".toList) (by decide) t
    have hlong := occurrences_redactSecrets_le (w := "AIza".toList) (by decide) t
    unfold exposure
    omega

/-- With every address that is replaced its sign goes. -/
theorem lowers_redactEmails : Lowers exposure redactEmails := by
  intro t
  by_cases hsigns : t.countP (· == '@') ≤ (redactEmails t).countP (· == '@')
  · exact Or.inl (replace_eq_self advances_address accepts_address _
      (not_occurs_address_of_countP hsigns))
  · refine Or.inr ?_
    have hquotes := countP_quotes_redactEmails t
    have hshort := occurrences_redactEmails_le (w := "sk-".toList) (by decide) t
    have hlong := occurrences_redactEmails_le (w := "AIza".toList) (by decide) t
    unfold exposure
    omega

/-! ## Repetition -/

/-- A pass leaves a text alone or lowers its exposure. -/
theorem lowers_redact : Lowers exposure redact :=
  lowers_redactEmails.comp (lowers_redactSecrets.comp lowers_redactApiKeys)

/-- A redaction that changes a text lowers its exposure. Repeated no more often than the
exposure counts, it comes to a text that it leaves alone, and nothing is found in that. -/
theorem redact_converges (t : Text) :
    (redact t ≠ t → exposure (redact t) < exposure t) ∧
      ∃ n ≤ exposure t, redact (redact^[n] t) = redact^[n] t ∧
        find (redact^[n] t) = [] := by
  constructor
  · intro hchanged
    exact (lowers_redact t).resolve_left hchanged
  · obtain ⟨n, hn, hfixed⟩ := lowers_redact.exists_iterate_fixed t
    exact ⟨n, hn, hfixed, (redact_eq_self_iff _).mp hfixed⟩

/-- Three values in a row: the first redaction takes the quotes of one of them. -/
theorem redact_converges_first_round :
    redact "token: \"x\": \"y\": \"z\"".toList ≠ "token: \"x\": \"y\": \"z\"".toList ∧
      exposure (redact "token: \"x\": \"y\": \"z\"".toList) <
        exposure "token: \"x\": \"y\": \"z\"".toList := by
  have hchanged : redact "token: \"x\": \"y\": \"z\"".toList ≠
      "token: \"x\": \"y\": \"z\"".toList := by decide +kernel
  exact ⟨hchanged, (redact_converges _).1 hchanged⟩

/-- It takes three rounds. -/
example : find (redact^[2] "token: \"x\": \"y\": \"z\"".toList) = [secrets] ∧
    find (redact^[3] "token: \"x\": \"y\": \"z\"".toList) = [] := by
  decide +kernel

end CodeWeave.Sensitive
