import CodeWeave.Proofs.Diff.Lossless
import CodeWeave.Proofs.Redaction.Completeness
import CodeWeave.Proofs.Synthesis.TryBlocks

/-!
# Keys and addresses in a synthesized file

API keys and e-mail addresses are written without white space and braces, and the
synthesis joins texts nowhere else than at white space and braces. So it makes none:

> `not_occurs_code`: a word of this kind is in the file only if it is in one of the
redacted candidates.

> `no_address_no_new_key`: no address is found in a file or in a block of its diff, and no
> API key unless redaction has left one.

A try block that is written anew is the one place where a seam needs care: what stands
before it may end in `try` without a space, and what follows it starts with `catch`,
as in the candidate.
-/

namespace CodeWeave

open Text Redaction

namespace Sensitive

/-! ## Words between fixed texts -/

/-- The words are written without white space and braces, and none of the texts that a
file has between the parts of its candidates holds one. -/
structure Unbroken (L : Text → Prop) : Prop where
  ne_nil : ∀ w, L w → w ≠ []
  chars : ∀ w, L w → ∀ c ∈ w, isAddressChar c = true
  head : ¬ Occurs L Merge.componentHead
  foot : ¬ Occurs L Merge.componentFoot
  marker : ¬ Occurs L Merge.overrideMarker
  frame : ¬ Occurs L (Merge.prioritized [])

/-- The pattern finds nothing exactly if none of its words occurs. -/
theorem occurs_eq_false_iff {k : Sensitive} {read : Text → Option Text} {L : Text → Prop}
    (hk : k.pattern = .ofReader read) (acc : Accepts read L) (t : Text) :
    k.pattern.occurs t = false ↔ ¬ Occurs L t := by
  rw [← Bool.not_eq_true, hk, occurs_iff acc]

theorem apiKeys_occurs_eq_false_iff (t : Text) :
    apiKeys.pattern.occurs t = false ↔ ¬ Occurs IsKey t :=
  occurs_eq_false_iff rfl accepts_apiKey t

theorem emails_occurs_eq_false_iff (t : Text) :
    emails.pattern.occurs t = false ↔ ¬ Occurs IsAddress t :=
  occurs_eq_false_iff rfl accepts_address t

theorem IsKey.isAddressChar {w : Text} (h : IsKey w) :
    ∀ c ∈ w, isAddressChar c = true := by
  intro c hc
  have hkey := h.chars c hc
  exact ascii_cases (p := fun c => isKeyChar c = true → Sensitive.isAddressChar c = true)
    (by decide) (lt_of_isKeyChar hkey) hkey

/-- Keys have neither white space nor braces, and no text between the parts has a key. -/
theorem unbroken_key : Unbroken IsKey where
  ne_nil _ h := h.ne_nil
  chars _ h := h.isAddressChar
  head := (apiKeys_occurs_eq_false_iff _).mp (by decide)
  foot := (apiKeys_occurs_eq_false_iff _).mp (by decide)
  marker := (apiKeys_occurs_eq_false_iff _).mp (by decide)
  frame := (apiKeys_occurs_eq_false_iff _).mp (by decide)

/-- So it is with addresses. -/
theorem unbroken_address : Unbroken IsAddress where
  ne_nil _ h := h.ne_nil
  chars _ h := h.chars
  head := (emails_occurs_eq_false_iff _).mp (by decide)
  foot := (emails_occurs_eq_false_iff _).mp (by decide)
  marker := (emails_occurs_eq_false_iff _).mp (by decide)
  frame := (emails_occurs_eq_false_iff _).mp (by decide)

namespace Unbroken

variable {L : Text → Prop} {c l : Text}

theorem not_mem (hL : Unbroken L) {x : Char} (hx : isAddressChar x = false) :
    ∀ w, L w → x ∉ w := by
  intro w hw hmem
  rw [hL.chars w hw x hmem] at hx
  exact Bool.noConfusion hx

/-- A character of no word keeps two texts apart. -/
theorem join (hL : Unbroken L) {x : Char} {a b : Text} (hx : isAddressChar x = false)
    (ha : ¬ Occurs L a) (hb : ¬ Occurs L b) : ¬ Occurs L (a ++ x :: b) :=
  not_occurs_append_cons hL.ne_nil (hL.not_mem hx) ha hb

/-- So does a text between two characters of no word. -/
theorem fence (hL : Unbroken L) {x y : Char} {m f a b : Text} (hf : ¬ Occurs L f)
    (hsplit : f = x :: (m ++ [y])) (hx : isAddressChar x = false)
    (hy : isAddressChar y = false) (ha : ¬ Occurs L a) (hb : ¬ Occurs L b) :
    ¬ Occurs L (a ++ f ++ b) := by
  have hm : ¬ Occurs L m := fun h => hf (h.mono ⟨[x], [y], by rw [hsplit]; rfl⟩)
  rw [hsplit, List.append_assoc, List.cons_append, List.append_assoc]
  exact hL.join hx ha (hL.join hy hm hb)

/-! ## The merged body -/

/-- Local logic in a try block. -/
theorem not_occurs_prioritized (hL : Unbroken L) (hl : ¬ Occurs L l) :
    ¬ Occurs L (Merge.prioritized l) := by
  have hfoot : ¬ Occurs L "  ".toList := fun h => hL.frame (h.mono (by decide))
  have hhead :
      ¬ Occurs L ("\n    ".toList ++ Merge.prioritizedMarker ++ "\n    ".toList) :=
    fun h => hL.frame (h.mono ⟨[], "\n  ".toList, rfl⟩)
  have hinner :
      ¬ Occurs L
        ([] ++ ("\n    ".toList ++ Merge.prioritizedMarker ++ "\n    ".toList) ++ l) :=
    hL.fence (m := "    ".toList ++ Merge.prioritizedMarker ++ "\n   ".toList) hhead rfl
      (by decide) (by decide) (not_occurs_nil hL.ne_nil) hl
  exact hL.join (x := '\n') (by decide) hinner hfoot

/-- Nor does the marker of an override make a word. -/
theorem not_occurs_override (hL : Unbroken L) (hl : ¬ Occurs L l) :
    ¬ Occurs L (Merge.overrideMarker ++ '\n' :: l) :=
  hL.join (by decide) hL.marker hl

/-- What the merge takes from the bodies and puts around it makes no word. -/
theorem not_occurs_mergedBody (hL : Unbroken L) {cloud loc : Segments}
    (hc : ¬ Occurs L cloud.body) (hl : ¬ Occurs L loc.body) :
    ¬ Occurs L (Merge.body cloud loc) := by
  rcases Merge.body_cases cloud loc with ⟨b, hfirst, _, hbody⟩ | ⟨_, hbody⟩
  · -- `try` and `catch` stay with what they stand next to in the candidate
    have hbefore : ¬ Occurs L (b.before ++ "try".toList) :=
      fun h => hc (h.mono hfirst.stands.prefix_before.isInfix)
    have hafter : ¬ Occurs L ("catch".toList ++ b.after) :=
      fun h => hc (h.mono hfirst.stands.suffix_after.isInfix)
    have hinterior :
        ¬ Occurs L (if isSecured loc.body = true
          then Merge.prioritized loc.body else b.interior) := by
      split
      · exact hL.not_occurs_prioritized hl
      · exact fun h => hc (h.mono hfirst.stands.infix_interior)
    have hnil := not_occurs_nil hL.ne_nil
    have hblock :=
      hL.join (x := ' ') (by decide) hbefore
        (hL.join (x := '\x7b') (by decide) hnil
          (hL.join (x := '\x7d') (by decide) hinterior
            (hL.join (x := ' ') (by decide) hnil hafter)))
    rw [hbody]
    simpa using hblock
  · rw [hbody]
    split
    · exact hL.not_occurs_override hl
    · exact hc

/-! ## The file -/

/-- A file has only those words that one of its candidates has. -/
theorem not_occurs_code (hL : Unbroken L) (hc : ¬ Occurs L c) (hl : ¬ Occurs L l) :
    ¬ Occurs L (Synthesis.codeOf (segment c) (segment l)) := by
  have hline : ∀ w, L w → '\n' ∉ w := hL.not_mem (by decide)
  have himports : ¬ Occurs L (['\n'].intercalate
      (Merge.imports (segment c).imports (segment l).imports)) := by
    refine not_occurs_intercalate hL.ne_nil hline fun s hs => ?_
    rcases List.mem_append.mp (mem_distinct.mp hs) with hs | hs
    · exact Segment.not_occurs_statements hc s hs
    · exact Segment.not_occurs_statements hl s hs
  have hexports :
      ¬ Occurs L (['\n'].intercalate (Merge.namedExports (segment c).exports)) :=
    not_occurs_intercalate hL.ne_nil hline fun s hs =>
      Segment.not_occurs_statements hc s (List.mem_of_mem_filter hs)
  have hbody : ¬ Occurs L (Merge.body (segment c) (segment l)) :=
    hL.not_occurs_mergedBody (Segment.not_occurs_body hL.ne_nil hline hc)
      (Segment.not_occurs_body hL.ne_nil hline hl)
  have hfront := hL.fence (m := "\nexport default function App() \x7b\n ".toList)
    hL.head rfl (by decide) (by decide) himports hbody
  exact hL.fence (m := "\x7d\n".toList) hL.foot rfl (by decide)
    (by decide) hfront hexports

/-- So does the whole synthesis, blocks of the diff included. -/
theorem not_occurs_synthesis (hL : Unbroken L) {cloud loc : Option Text}
    (hc : ¬ Occurs L (redact (cloud.getD []))) (hl : ¬ Occurs L (redact (loc.getD []))) :
    ¬ Occurs L (synthesize cloud loc).code ∧
      ∀ b ∈ (synthesize cloud loc).diff, ¬ Occurs L b.value := by
  have hcode : ¬ Occurs L (synthesize cloud loc).code := hL.not_occurs_code hc hl
  refine ⟨hcode, fun b hb hoccurs => ?_⟩
  rcases Diff.infix_of_block hb with hb | hb
  · exact hc (hoccurs.mono hb)
  · exact hcode (hoccurs.mono hb)

end Unbroken

/-! ## The main result -/

/-- No e-mail address is found in a redacted candidate, in a synthesized file, or in a
block of its diff. No API key is found in a file or its diff either, if none is found in
the redacted candidates. -/
theorem no_address_no_new_key (cloud loc : Option Text) :
    emails.pattern.occurs (redact (cloud.getD [])) = false ∧
    emails.pattern.occurs (redact (loc.getD [])) = false ∧
    emails.pattern.occurs (synthesize cloud loc).code = false ∧
    (∀ b ∈ (synthesize cloud loc).diff, emails.pattern.occurs b.value = false) ∧
    (apiKeys.pattern.occurs (redact (cloud.getD [])) = false →
      apiKeys.pattern.occurs (redact (loc.getD [])) = false →
      apiKeys.pattern.occurs (synthesize cloud loc).code = false ∧
        ∀ b ∈ (synthesize cloud loc).diff, apiKeys.pattern.occurs b.value = false) := by
  simp only [emails_occurs_eq_false_iff, apiKeys_occurs_eq_false_iff]
  have hc := not_occurs_address_redact (cloud.getD [])
  have hl := not_occurs_address_redact (loc.getD [])
  obtain ⟨hcode, hdiff⟩ := unbroken_address.not_occurs_synthesis hc hl
  exact ⟨hc, hl, hcode, hdiff, fun hkc hkl => unbroken_key.not_occurs_synthesis hkc hkl⟩

/-- A candidate in which `sk-` and sixteen letters stand directly in front
of a try block. -/
def shortOfKey : Text :=
  "export default function A() \x7b\nsk-aaaaaaaaaaaaaaaatry \x7b f(a@b.io) \x7d catch (e) \x7b\x7d\n\x7d".toList

/-- The block is written anew with local logic in it, and `sk-` is still
short of a key. -/
theorem no_new_key_in_front_of_try :
    apiKeys.pattern.occurs (redact shortOfKey) = false ∧
      apiKeys.pattern.occurs (redact "send(process.env.URL);".toList) = false ∧
      apiKeys.pattern.occurs
        (synthesize (some shortOfKey)
          (some "send(process.env.URL);".toList)).code = false ∧
      ∀ b ∈ (synthesize (some shortOfKey) (some "send(process.env.URL);".toList)).diff,
        apiKeys.pattern.occurs b.value = false := by
  have hc : apiKeys.pattern.occurs (redact shortOfKey) = false := by decide +kernel
  have hl : apiKeys.pattern.occurs (redact "send(process.env.URL);".toList) = false := by
    decide +kernel
  obtain ⟨_, _, _, _, hkeys⟩ := no_address_no_new_key (some shortOfKey)
    (some "send(process.env.URL);".toList)
  exact ⟨hc, hl, hkeys hc hl⟩

end Sensitive

end CodeWeave
