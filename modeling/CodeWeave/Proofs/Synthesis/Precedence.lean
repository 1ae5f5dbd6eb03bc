import CodeWeave.Proofs.Synthesis.TryBlocks
import CodeWeave.Synthesis

/-!
# Which body a file gets

The merge of two bodies looks at three things: whether the local body is secured, whether
it is long enough, and whether a try block stands in the cloud body. Both sides of this
policy follow from `body_cases`:

> `secured_body_precedes`: a secured local body is in the merged body as it is. It takes
> the interior of the first try block and leaves the rest of the cloud body alone, or it
> takes the place of the cloud body.

> `unsecured_body_unseen`: of an unsecured local body nothing is in the merged body, nor
> in the file. The first try block is written anew even then, so the cloud body is kept up
> to white space in the frame of that block.
-/

namespace CodeWeave

open Text

/-! ## Without white space -/

namespace Text

/-- The text without its white space. -/
def dropBlanks (t : Text) : Text := t.filter fun c => !isBlank c

theorem dropBlanks_append (s t : Text) :
    dropBlanks (s ++ t) = dropBlanks s ++ dropBlanks t :=
  List.filter_append s t

theorem dropBlanks_of_blanks {s : Text} (h : ∀ c ∈ s, isBlank c = true) :
    dropBlanks s = [] := by
  refine List.filter_eq_nil_iff.mpr fun c hc => ?_
  rw [h c hc]
  exact Bool.false_ne_true

end Text

namespace Merge

/-! ## Secured local logic -/

/-- A secured local body precedes the cloud body. If it is longer than ten characters and
a try block stands in the cloud body, it takes the interior of the first block, and the
text around that stays. Otherwise it is the merged body, behind a marker. -/
theorem secured_body_precedes (cloud loc : Segments) (h : isSecured loc.body = true) :
    let enters := 10 < loc.body.length ∧ ∃ b : TryBlock, b.StandsIn cloud.body
    (enters → ∃ b : TryBlock, b.IsFirst cloud.body ∧ body cloud loc =
      b.before ++ "try \x7b".toList ++ "\n    ".toList ++ prioritizedMarker ++
        "\n    ".toList ++ loc.body ++
        "\n  ".toList ++ "\x7d catch".toList ++ b.after) ∧
    (¬ enters → body cloud loc = overrideMarker ++ "\n".toList ++ loc.body) ∧
    loc.body <:+: body cloud loc := by
  intro enters
  rcases body_cases cloud loc with ⟨b, hfirst, hlong, hbody⟩ | ⟨hno, hbody⟩
  · rw [if_pos h] at hbody
    unfold prioritized at hbody
    have henters : enters := ⟨hlong, b, hfirst.stands⟩
    have hwritten : body cloud loc = b.before ++ "try \x7b".toList ++ "\n    ".toList ++
        prioritizedMarker ++
        "\n    ".toList ++ loc.body ++ "\n  ".toList ++
          "\x7d catch".toList ++ b.after := by
      simp only [hbody, List.append_assoc]
    refine ⟨fun _ => ⟨b, hfirst, hwritten⟩, fun hnot => absurd henters hnot, ?_⟩
    rw [hwritten]
    exact ⟨b.before ++ "try \x7b".toList ++ "\n    ".toList ++ prioritizedMarker ++
      "\n    ".toList,
      "\n  ".toList ++ ("\x7d catch".toList ++ b.after), by simp only [List.append_assoc]⟩
  · rw [if_pos h] at hbody
    have hnot : ¬ enters := fun ⟨hlong, b, hb⟩ => hno b hlong hb
    have hwritten : body cloud loc = overrideMarker ++ "\n".toList ++ loc.body := by
      rw [hbody, List.append_assoc]
      rfl
    refine ⟨fun henters => absurd henters hnot, fun _ => hwritten, ?_⟩
    rw [hwritten]
    exact (List.suffix_append _ loc.body).isInfix

/-- A block within a block: the outer one is the first, and the `catch` of the
inner one ends it. -/
theorem secured_body_precedes_nested :
    let cloud : Segments :=
      { body :=
      "a; try\n\x7b try \x7b b \x7d\ncatch \x7b\x7d \x7d catch \x7b\x7d".toList }
    let loc : Segments := { body := "send(process.env.URL)".toList }
    isSecured loc.body = true ∧ 10 < loc.body.length ∧
      (∃ b : TryBlock, b.IsFirst cloud.body ∧ Merge.body cloud loc =
        b.before ++ "try \x7b".toList ++ "\n    ".toList ++ prioritizedMarker ++
          "\n    ".toList ++ loc.body ++
          "\n  ".toList ++ "\x7d catch".toList ++ b.after) ∧
      loc.body <:+: body cloud loc := by
  intro cloud loc
  have hsecured : isSecured loc.body = true := by decide
  have hlong : 10 < loc.body.length := by decide
  have hblank : ∀ c ∈ ['\n'], isBlank c = true := List.forall_mem_singleton.mpr rfl
  have hblock : ∃ b : TryBlock, b.StandsIn cloud.body :=
    ⟨⟨"a; ".toList, " try \x7b b ".toList, " \x7b\x7d \x7d catch \x7b\x7d".toList⟩,
      ['\n'], ['\n'],
      hblank, hblank, rfl⟩
  obtain ⟨henters, -, hinfix⟩ := secured_body_precedes cloud loc hsecured
  exact ⟨hsecured, hlong, henters ⟨hlong, hblock⟩, hinfix⟩

/-! ## Unsecured local logic -/

/-- A block that is written anew around its interior is the same text up
to white space. -/
theorem dropBlanks_rewritten {b : TryBlock} {t : Text} (h : b.StandsIn t) :
    dropBlanks (b.before ++ "try \x7b".toList ++ b.interior ++
      "\x7d catch".toList ++ b.after) =
      dropBlanks t := by
  obtain ⟨s₁, s₂, hs₁, hs₂, rfl⟩ := h
  have hopen : dropBlanks "try \x7b".toList = dropBlanks "try".toList ++
      dropBlanks "\x7b".toList := by decide
  have hclose : dropBlanks "\x7d catch".toList =
      dropBlanks "\x7d".toList ++ dropBlanks "catch".toList := by
    decide
  simp only [dropBlanks_append, dropBlanks_of_blanks hs₁, dropBlanks_of_blanks hs₂, hopen,
    hclose, List.nil_append, List.append_assoc]

theorem body_of_unsecured {cloud loc : Segments} (h : isSecured loc.body = false) :
    body cloud loc = cloud.body ∨ ∃ b : TryBlock, b.IsFirst cloud.body ∧
      body cloud loc = b.before ++ "try \x7b".toList ++ b.interior ++
        "\x7d catch".toList ++ b.after := by
  rcases body_cases cloud loc with ⟨b, hfirst, _, hbody⟩ | ⟨_, hbody⟩
  · rw [h] at hbody
    exact Or.inr ⟨b, hfirst, hbody⟩
  · rw [h] at hbody
    exact Or.inl hbody

theorem dropBlanks_body {cloud loc : Segments} (h : isSecured loc.body = false) :
    dropBlanks (body cloud loc) = dropBlanks cloud.body := by
  rcases body_of_unsecured h with hbody | ⟨b, hfirst, hbody⟩
  · rw [hbody]
  · rw [hbody]
    exact dropBlanks_rewritten hfirst.stands

end Merge

/-- A file depends on the local candidate through its imports and the merged body. -/
theorem Synthesis.dropBlanks_codeOf {cloud l₁ l₂ : Segments}
    (himports : l₁.imports = l₂.imports)
    (hbody : dropBlanks (Merge.body cloud l₁) = dropBlanks (Merge.body cloud l₂)) :
    dropBlanks (codeOf cloud l₁) = dropBlanks (codeOf cloud l₂) := by
  unfold codeOf Merge.assemble
  simp only [dropBlanks_append, himports, hbody]

/-- An unsecured local body is not seen. The merged body is the cloud body, with the white
space in the frame of its first try block as it may be. So two local candidates with the
same imports and unsecured bodies make the same file up to white space. -/
theorem unsecured_body_unseen :
    (∀ cloud loc : Segments, isSecured loc.body = false →
      dropBlanks (Merge.body cloud loc) = dropBlanks cloud.body ∧
      (Merge.body cloud loc = cloud.body ∨ ∃ b : TryBlock, b.IsFirst cloud.body ∧
        Merge.body cloud loc =
          b.before ++ "try \x7b".toList ++ b.interior ++
            "\x7d catch".toList ++ b.after)) ∧
    ∀ cloud loc₁ loc₂ : Option Text,
      let l₁ := segment (redact (loc₁.getD []))
      let l₂ := segment (redact (loc₂.getD []))
      l₁.imports = l₂.imports → isSecured l₁.body = false → isSecured l₂.body = false →
      dropBlanks (synthesize cloud loc₁).code =
        dropBlanks (synthesize cloud loc₂).code := by
  refine ⟨fun cloud loc h => ⟨Merge.dropBlanks_body h, Merge.body_of_unsecured h⟩, ?_⟩
  intro cloud loc₁ loc₂ l₁ l₂ himports h₁ h₂
  refine Synthesis.dropBlanks_codeOf himports ?_
  rw [Merge.dropBlanks_body h₁, Merge.dropBlanks_body h₂]

/-- A short local body leaves the try block as it is and a longer one has it written anew,
and the files differ, but only in white space. -/
theorem unsecured_body_unseen_beyond_length :
    let cloud := some "try\x7b a() \x7dcatch(e)\x7b\x7d".toList
    let short := some "import b;\nf()".toList
    let long := some "import b;\nfirst(); second()".toList
    (synthesize cloud short).code ≠ (synthesize cloud long).code ∧
      dropBlanks (synthesize cloud short).code = dropBlanks (synthesize cloud long).code ∧
      dropBlanks (Merge.body (segment (cloud.getD [])) (segment (long.getD []))) =
        dropBlanks (segment (cloud.getD [])).body := by
  intro cloud short long
  obtain ⟨hmerged, hfiles⟩ := unsecured_body_unseen
  refine ⟨by decide +kernel, ?_, (hmerged _ _ (by decide +kernel)).1⟩
  exact hfiles cloud short long (by decide +kernel) (by decide +kernel)
    (by decide +kernel)

end CodeWeave
