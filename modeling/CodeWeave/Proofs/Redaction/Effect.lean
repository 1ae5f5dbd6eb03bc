import CodeWeave.Proofs.Build.Account
import CodeWeave.Proofs.Redaction.Completeness

/-!
# What redaction changes, and how it shows

Redaction changes a text exactly if something is found in it, although its passes are
three and each one reads what the one before has written. So the verification of a build,
which only searches, reports exactly the files that redaction would still change:

> `verification_agrees_with_redaction`: a build passes its verification exactly if every
> planned file was produced and redaction leaves each file alone.

Whatever redaction changes is recognised afterwards. A later pass can take away what
an earlier one has put in: in `token="x"@a.io` the address takes the reference with
it. But the last pass that changes anything leaves its own trace, and the passes
behind it leave that alone:

> `redact_leaves_trace`: a text that redaction changes refers to the environment
or carries a marker.
-/

namespace CodeWeave

open Text Redaction Sensitive

/-! ## The search of the verification -/

namespace BuildStep

theorem exists_of_any_path {files : List ProjectFile} {path : String} :
    (files.any (·.path == path)) = true ↔ ∃ file ∈ files, file.path = path := by
  rw [List.any_eq_true]
  simp only [beq_iff_eq]

/-- The verification finds no problem exactly if no planned file is missing and nothing is
found in any file. -/
theorem problems_eq_nil_iff (s : BuildState) :
    problems s = [] ↔ (∀ path ∈ s.plan, ∃ file ∈ s.files, file.path = path) ∧
      ∀ file ∈ s.files, find file.content = [] := by
  unfold problems
  rw [List.append_eq_nil_iff, List.map_eq_nil_iff, List.filter_eq_nil_iff,
    List.filterMap_eq_nil_iff]
  refine and_congr (forall₂_congr fun path _ => ?_) (forall₂_congr fun file _ => ?_)
  · rw [Bool.not_eq_true', Bool.not_eq_false, exists_of_any_path]
  · exact Build.leakMessage_eq_none_iff file

/-- The search and the redaction agree on every text, and so do the verification of a
build and the redaction of its files. -/
theorem verification_agrees_with_redaction :
    (∀ t : Text, redact t = t ↔ find t = []) ∧
      ∀ s : BuildState, problems s = [] ↔
        (∀ path ∈ s.plan, ∃ file ∈ s.files, file.path = path) ∧
          ∀ file ∈ s.files, redact file.content = file.content := by
  refine ⟨redact_eq_self_iff, fun s => ?_⟩
  rw [problems_eq_nil_iff]
  refine and_congr Iff.rfl (forall₂_congr fun file _ => ?_)
  exact (redact_eq_self_iff file.content).symm

end BuildStep

/-! ## The traces of the passes -/

namespace Text

theorem contains_iff_infix {part t : Text} : contains part t = true ↔ part <:+: t := by
  induction t with
  | nil => rw [contains, List.isEmpty_iff, List.infix_nil]
  | cons c cs ih =>
    rw [contains, Bool.or_eq_true, List.isPrefixOf_iff_prefix, ih, List.infix_cons_iff]

end Text

namespace Redaction

/-- A text is secured if it reads the environment or has the marker of a redaction. -/
theorem isSecured_iff {t : Text} :
    isSecured t = true ↔ environmentStem <:+: t ∨ markerStem <:+: t := by
  unfold isSecured
  rw [Bool.or_eq_true, contains_iff_infix, contains_iff_infix]

/-- A reference that is written in place of a secret reads the environment. -/
theorem stem_infix_secretReference (key : Text) :
    environmentStem <:+: secretReference key :=
  ⟨key ++ ": ".toList, variableName key, rfl⟩

/-- If keys are redacted, the text reads the environment afterwards. -/
theorem redactApiKeys_trace (t : Text) :
    redactApiKeys t = t ∨ environmentStem <:+: redactApiKeys t := by
  rcases replace_eq_self_or_infix advances_apiKey (fun _ => apiKeyPlaceholder) t
    with hsame | ⟨x, _, hx⟩
  · exact Or.inl hsame
  · have hstem : environmentStem <:+: apiKeyPlaceholder := by decide
    exact Or.inr (hstem.trans hx)

/-- If assignments are redacted, the text reads the environment afterwards. -/
theorem redactSecrets_trace (t : Text) :
    redactSecrets t = t ∨ environmentStem <:+: redactSecrets t := by
  rcases replace_eq_self_or_infix advances_secret replaceSecret t
    with hsame | ⟨x, hmem, hx⟩
  · exact Or.inl hsame
  · obtain ⟨r, hr⟩ := (cut_secrets t).found_of_mem hmem
    obtain ⟨key, a, hxr, name, _⟩ := secret_sound hr
    rw [List.append_cancel_right hxr, replaceSecret_eq name] at hx
    exact Or.inr ((stem_infix_secretReference key).trans hx)

/-- If addresses are redacted, the text has the marker afterwards. -/
theorem redactEmails_trace (t : Text) :
    redactEmails t = t ∨ markerStem <:+: redactEmails t := by
  rcases replace_eq_self_or_infix advances_address (fun _ => emailPlaceholder) t
    with hsame | ⟨x, _, hx⟩
  · exact Or.inl hsame
  · have hstem : markerStem <:+: emailPlaceholder := by decide
    exact Or.inr (hstem.trans hx)

end Redaction

/-- Redaction leaves a text alone or leaves a trace in it. -/
theorem redact_eq_self_or_isSecured (t : Text) :
    redact t = t ∨ isSecured (redact t) = true := by
  rw [isSecured_iff]
  -- the last pass that changes the text decides which trace it is
  rcases redactEmails_trace (redactSecrets (redactApiKeys t)) with hemails | hmarker
  · have hredact : redact t = redactSecrets (redactApiKeys t) := hemails
    rw [hredact]
    rcases redactSecrets_trace (redactApiKeys t) with hsecrets | hreference
    · rw [hsecrets]
      rcases redactApiKeys_trace t with hkeys | hplaceholder
      · exact Or.inl hkeys
      · exact Or.inr (Or.inl hplaceholder)
    · exact Or.inr (Or.inl hreference)
  · exact Or.inr (Or.inr hmarker)

/-- A text that redaction changes counts as secured, and one that counted as secured
before still does. -/
theorem redact_leaves_trace (t : Text) :
    (redact t = t ∨ isSecured (redact t) = true) ∧
      (isSecured t = true → isSecured (redact t) = true) := by
  refine ⟨redact_eq_self_or_isSecured t, fun hsecured => ?_⟩
  rcases redact_eq_self_or_isSecured t with hsame | htrace
  · rw [hsame]
    exact hsecured
  · exact htrace

/-- The address takes the only reference with it, and leaves its marker. -/
theorem redact_leaves_trace_of_address :
    isSecured "process.env.A@b.io".toList = true ∧
      isSecured (redact "process.env.A@b.io".toList) = true := by
  have hsecured : isSecured "process.env.A@b.io".toList = true := by decide
  exact ⟨hsecured, (redact_leaves_trace _).2 hsecured⟩

example : redact "token=\"x\"@a.io".toList = "token: [REDACTED_EMAIL]".toList := by
  decide +kernel

end CodeWeave
