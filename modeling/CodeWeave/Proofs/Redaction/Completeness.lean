import CodeWeave.Proofs.Redaction.Addresses
import CodeWeave.Proofs.Redaction.Keys

/-!
# What redaction leaves

Three passes run one after the other, and what each of them puts in is read by the next
ones and by the next redaction. Redacted text is therefore not always free of sensitive
strings, nor always left alone by a second redaction. This file says when it is:

> `redact_complete_iff`: nothing is found in the redacted text, and redacting it again
> changes nothing, unless the text `LeavesKey` or `LeavesSecret`.

> `redact_eq_self_iff`: redaction leaves a text alone exactly if nothing is found in it.
-/

namespace CodeWeave.Sensitive

open Text Redaction

/-! ## The passes -/

theorem cut_apiKeys (t : Text) : Cut readApiKey (apiKeys.pattern.pieces t) t :=
  cut_pieces advances_apiKey t

theorem cut_secrets (t : Text) : Cut readSecret (secrets.pattern.pieces t) t :=
  cut_pieces advances_secret t

theorem cut_emails (t : Text) : Cut readEmail (emails.pattern.pieces t) t :=
  cut_pieces advances_address t

/-- The pass that cuts a text into `ps` passes by the word `w` behind `l`, and
puts `m` before it. -/
def PassesBy (new : Text → Text) (ps : List Piece) (l w m : Text) : Prop :=
  ∃ front back, ps = front ++ w.map .plain ++ back ∧ l = render id front ∧
    m = render new front

/-- The pass over API keys makes a new one, and the later passes pass by it. -/
def LeavesKey (t : Text) : Prop :=
  ∃ l w m n, KeySeam (apiKeys.pattern.pieces t) l w ∧
    PassesBy replaceSecret (secrets.pattern.pieces (redactApiKeys t)) l w m ∧
    PassesBy (fun _ => emailPlaceholder)
      (emails.pattern.pieces (redactSecrets (redactApiKeys t))) m w n

/-- The pass over secrets makes a reference that is assigned again. -/
def LeavesSecret (t : Text) : Prop :=
  Reassigned (secrets.pattern.pieces (redactApiKeys t))

/-! ## What is found in redacted text -/

theorem KeySeam.isKey {ps : List Piece} {l w : Text} (h : KeySeam ps l w) : IsKey w := by
  obtain ⟨front, a, x, back, s, _, _, alnum, _, letters, length, word⟩ := h
  rw [word]
  refine .short (a ++ s) (by rw [List.length_append, length]) ?_
  intro c hc
  rcases List.mem_append.mp hc with hc | hc
  · exact alnum c hc
  · exact (forall_mem_of_all (by decide) : ∀ c ∈ placeholderLetters, isAlnum c = true) c
      (letters.subset hc)

/-- Redacted text has the API keys that the first pass makes. -/
theorem occurs_key_redact_iff (t : Text) : Occurs IsKey (redact t) ↔ LeavesKey t := by
  constructor
  · intro h
    obtain ⟨l, w, r, htext, hw⟩ := h
    -- back through the passes, the last one first
    obtain ⟨front, back, hsplit, hl⟩ :=
      plain_of_emails_pass hw (Placed.of_render hw.ne_nil htext)
    have hv : render replaceSecret (secrets.pattern.pieces (redactApiKeys t)) =
        render id front ++ (w ++ render id back) := by
      rw [← replace_eq_render, ← List.append_assoc]
      show redactSecrets (redactApiKeys t) = _
      rw [← (cut_emails (redactSecrets (redactApiKeys t))).render_id, hsplit,
        render_append, render_append, render_map_plain]
    obtain ⟨front₂, back₂, hsplit₂, hl₂, hseam⟩ :=
      plain_of_secrets_pass (cut_apiKeys t) (cut_secrets (redactApiKeys t)) hw
        (Placed.of_render hw.ne_nil hv)
    exact ⟨_, w, _, l, hseam, ⟨front₂, back₂, hsplit₂, rfl, hl₂⟩,
      ⟨front, back, hsplit, rfl, hl⟩⟩
  · intro h
    obtain ⟨_, w, _, _, hseam, _, front, back, hsplit, _, _⟩ := h
    refine ⟨render (fun _ => emailPlaceholder) front, w,
      render (fun _ => emailPlaceholder) back, ?_,
      hseam.isKey⟩
    show emails.pattern.replace (fun _ => emailPlaceholder)
      (redactSecrets (redactApiKeys t)) = _
    rw [replace_eq_render, hsplit, render_append, render_append, render_map_plain,
      List.append_assoc]

/-- Redacted text has the assigned secrets that the second pass makes. -/
theorem occurs_secret_redact_iff (t : Text) :
    Occurs IsSecret (redact t) ↔ LeavesSecret t := by
  constructor
  · intro h
    obtain ⟨l, w, r, htext, hw⟩ := h
    exact (occurs_secret_iff (cut_secrets (redactApiKeys t))).mp
      (occurs_secret_of_emails_pass (cut_emails (redactSecrets (redactApiKeys t))) hw
        (Placed.of_render hw.ne_nil htext))
  · intro h
    obtain ⟨l, e, w, r, htext, he, hw⟩ := Reassigned.exists_secret h
    exact occurs_secret_behind_emails_pass (cut_emails (redactSecrets (redactApiKeys t)))
      htext he hw

theorem not_occurs_address_redact (t : Text) : ¬ Occurs IsAddress (redact t) :=
  not_occurs_address (cut_emails (redactSecrets (redactApiKeys t)))

/-- Redacted text is free of sensitive strings unless a pass makes one. -/
theorem find_redact_eq_nil_iff (t : Text) :
    find (redact t) = [] ↔ ¬ LeavesKey t ∧ ¬ LeavesSecret t := by
  rw [find_eq_nil_iff, occurs_key_redact_iff, occurs_secret_redact_iff]
  constructor
  · intro h
    exact ⟨h.1, h.2.1⟩
  · intro h
    exact ⟨h.1, h.2, not_occurs_address_redact t⟩

/-! ## Texts that redaction leaves alone -/

/-- Neither placeholder nor marker has a quote or an `@`. -/
theorem countP_placeholders :
    apiKeyPlaceholder.countP isQuote = 0 ∧ apiKeyPlaceholder.countP (· == '@') = 0 ∧
      emailPlaceholder.countP isQuote = 0 ∧ emailPlaceholder.countP (· == '@') = 0 := by
  decide

/-- An assignment has a quote, and the reference in its place has none. -/
theorem countP_replaceSecret {key a : Text} (hname : IsName key) (ha : IsAssigned a) :
    (replaceSecret (key ++ a)).countP isQuote < (key ++ a).countP isQuote := by
  obtain ⟨q, hq, hquote⟩ := ha.quote_mem (List.nil_append a).symm ha.ne_nil
  have hpos : 0 < a.countP isQuote := List.countP_pos_iff.mpr ⟨q, hq, hquote⟩
  rw [replaceSecret_eq hname, countP_secretReference hname fun _ =>
    not_in_reference_of_isQuote,
    List.countP_append]
  omega

/-- The pass over API keys adds no quotes. -/
theorem countP_quotes_redactApiKeys (t : Text) :
    (redactApiKeys t).countP isQuote ≤ t.countP isQuote := by
  refine countP_replace_le isQuote advances_apiKey (fun x _ _ => ?_) t
  rw [countP_placeholders.1]
  exact Nat.zero_le _

/-- Nor does it add the signs of addresses. -/
theorem countP_signs_redactApiKeys (t : Text) :
    (redactApiKeys t).countP (· == '@') ≤ t.countP (· == '@') := by
  refine countP_replace_le (· == '@') advances_apiKey (fun x _ _ => ?_) t
  rw [countP_placeholders.2.1]
  exact Nat.zero_le _

theorem countP_quotes_redactEmails (t : Text) :
    (redactEmails t).countP isQuote ≤ t.countP isQuote := by
  refine countP_replace_le isQuote advances_address (fun x _ _ => ?_) t
  rw [countP_placeholders.2.2.1]
  exact Nat.zero_le _

/-- A text that keeps its quotes in the pass over secrets has none assigned. -/
theorem not_occurs_secret_of_countP {t : Text}
    (h : t.countP isQuote ≤ (redactSecrets t).countP isQuote) : ¬ Occurs IsSecret t := by
  refine not_occurs_of_countP_le isQuote advances_secret accepts_secret
    (fun w hw => hw.ne_nil)
    (fun x r hread => ?_) h
  obtain ⟨key, a, hx, hname, ha⟩ := secret_sound hread
  rw [List.append_cancel_right hx]
  exact countP_replaceSecret hname ha

/-- A text that keeps its signs in the pass over addresses has none. -/
theorem not_occurs_address_of_countP {t : Text}
    (h : t.countP (· == '@') ≤ (redactEmails t).countP (· == '@')) :
    ¬ Occurs IsAddress t := by
  refine not_occurs_of_countP_le (· == '@') advances_address accepts_address
    (fun w hw => hw.ne_nil) (fun x r hread => ?_) h
  obtain ⟨w, hx, hw⟩ := address_sound hread
  rw [List.append_cancel_right hx, countP_placeholders.2.2.2]
  exact List.countP_pos_iff.mpr ⟨'@', hw.at_mem, rfl⟩

/-- A text that the pass over API keys leaves alone has none: a placeholder starts
otherwise than a key. -/
theorem not_occurs_key_of_eq {t : Text} (h : redactApiKeys t = t) : ¬ Occurs IsKey t := by
  refine not_occurs_of_replace_eq_self advances_apiKey accepts_apiKey
    (fun x r hread => ?_)
    (fun _ => by decide) (fun w hw => hw.ne_nil) h
  obtain ⟨w, o, hx, hw, _⟩ := apiKey_sound hread
  rw [List.append_cancel_right hx]
  cases hw with
  | short a _ _ => exact fun hhead => absurd (Option.some.inj hhead) (by decide)
  | long b _ _ => exact fun hhead => absurd (Option.some.inj hhead) (by decide)

/-- Redaction leaves a text alone exactly if nothing is found in it. -/
theorem redact_eq_self_iff (t : Text) : redact t = t ↔ find t = [] := by
  rw [find_eq_nil_iff]
  constructor
  · intro h
    have hout : redactEmails (redactSecrets (redactApiKeys t)) = t := h
    -- quotes only get fewer, so the pass over secrets takes none
    have hquotes : (redactApiKeys t).countP isQuote ≤
        (redactSecrets (redactApiKeys t)).countP isQuote := by
      calc (redactApiKeys t).countP isQuote
          ≤ t.countP isQuote := countP_quotes_redactApiKeys t
        _ = (redactEmails (redactSecrets (redactApiKeys t))).countP isQuote := by
          rw [hout]
        _ ≤ (redactSecrets (redactApiKeys t)).countP isQuote :=
          countP_quotes_redactEmails _
    have hsecret := not_occurs_secret_of_countP hquotes
    have hsecrets : redactSecrets (redactApiKeys t) = redactApiKeys t :=
      replace_eq_self advances_secret accepts_secret _ hsecret
    rw [hsecrets] at hout
    -- and then so do the signs of addresses
    have hsigns : (redactApiKeys t).countP (· == '@') ≤
        (redactEmails (redactApiKeys t)).countP (· == '@') := by
      rw [hout]
      exact countP_signs_redactApiKeys t
    have haddress := not_occurs_address_of_countP hsigns
    have hemails : redactEmails (redactApiKeys t) = redactApiKeys t :=
      replace_eq_self advances_address accepts_address _ haddress
    have hkeys : redactApiKeys t = t := hemails.symm.trans hout
    rw [hkeys] at hsecret haddress
    exact ⟨not_occurs_key_of_eq hkeys, hsecret, haddress⟩
  · intro h
    obtain ⟨hkey, hsecret, haddress⟩ := h
    have hkeys : redactApiKeys t = t :=
      replace_eq_self advances_apiKey accepts_apiKey _ hkey
    have hsecrets : redactSecrets t = t :=
      replace_eq_self advances_secret accepts_secret _ hsecret
    have hemails : redactEmails t = t :=
      replace_eq_self advances_address accepts_address _ haddress
    unfold redact
    rw [hkeys, hsecrets, hemails]

/-- What redaction leaves, exactly: an API key or an assigned secret that a pass
makes. Nothing else is found in redacted text, and only then does redacting it
again change it. -/
theorem redact_complete_iff (t : Text) :
    (apiKeys ∈ find (redact t) ↔ LeavesKey t) ∧
      (secrets ∈ find (redact t) ↔ LeavesSecret t) ∧
      emails ∉ find (redact t) ∧
      (find (redact t) = [] ↔ ¬ LeavesKey t ∧ ¬ LeavesSecret t) ∧
      (redact (redact t) = redact t ↔ ¬ LeavesKey t ∧ ¬ LeavesSecret t) := by
  obtain ⟨hkeys, hsecrets, hemails, _⟩ := mem_find (redact t)
  refine ⟨?_, ?_, ?_, find_redact_eq_nil_iff t, ?_⟩
  · rw [hkeys, occurs_key_redact_iff]
  · rw [hsecrets, occurs_secret_redact_iff]
  · rw [hemails]
    exact not_occurs_address_redact t
  · rw [redact_eq_self_iff, find_redact_eq_nil_iff]

/-- A second value behind an assignment is assigned to the reference. -/
theorem redact_leaves_second_value :
    find (redact "token: \"x\": \"y\"".toList) = [secrets] ∧
      redact (redact "token: \"x\": \"y\"".toList) ≠
        redact "token: \"x\": \"y\"".toList := by
  decide +kernel

end CodeWeave.Sensitive
