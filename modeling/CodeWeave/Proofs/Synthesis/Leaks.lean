import CodeWeave.Proofs.Build.Account
import CodeWeave.Proofs.Redaction.Openings
import CodeWeave.Proofs.Synthesis.Tokens

/-!
# Secrets that a synthesis makes

A synthesis moves import lines to the front and export lines to the end, and it empties
both in a body without a default component. Both can make an assigned secret out of two
harmless candidates:

* a value that is left open in one part of the file is closed by a quote in a later part,
an export line of the same candidate for instance;
* a name and its value come together when the statement between them is emptied.

There is no third way, since a file is `Assembled` from parts of its candidates:

> `assembled_code`: the fixed text around the parts is a barrier between them.

> `find_synthesize_iff`: with nothing to be found in the redacted candidates, nothing is
> found in the file exactly if no part of its body holds a secret and no part closes what
> an earlier one leaves open.

> `synthesis_makes_secret`: either way to a secret, at a candidate of a few words.
-/

namespace CodeWeave

open Text Redaction Sensitive

/-! ## Fences -/

namespace Sensitive

/-- The text is a barrier wherever it stands. -/
def isFence (f : Text) : Bool :=
  !f.isEmpty && f.all (fun c => !isQuote c) && f.any (fun c => !isOpeningChar c) &&
    f.tails.all fun z => z.isEmpty || secretWords.all fun word =>
      decide (Apart word (z.map foldCase))

theorem not_hasQuote {t : Text} (h : ∀ c ∈ t, isQuote c = false) : ¬ HasQuote t := by
  rintro ⟨c, hc, hquote⟩
  rw [h c hc] at hquote
  exact Bool.noConfusion hquote

/-- A fence is a barrier behind any text. -/
theorem barrier_of_isFence {f : Text} (h : isFence f = true) (a : Text) :
    Barrier a f := by
  simp only [isFence, Bool.and_eq_true, Bool.not_eq_true', List.all_eq_true,
    List.any_eq_true, Bool.or_eq_true, List.isEmpty_eq_false_iff, List.isEmpty_iff,
    decide_eq_true_eq] at h
  obtain ⟨⟨⟨hne, hquotes⟩, c, hc, hchar⟩, hout⟩ := h
  exact ⟨hne, not_hasQuote hquotes, fun z hz hzne => (hout z hz).resolve_left hzne,
    c, hchar, Or.inl hc⟩

/-- Behind a semicolon the end of a line is a barrier. -/
theorem barrier_newline {l : Text} (h : l.getLast? = some ';') : Barrier l ['\n'] where
  nonempty := List.cons_ne_nil _ _
  quoteless := not_hasQuote (forall_mem_of_all (by decide))
  outset := by decide
  stop := ⟨';', by decide, Or.inr h⟩

end Sensitive

/-! ## The parts of a file -/

namespace Merge

/-- What the merged body takes from the bodies of the candidates, from left to right. -/
def bodyParts (cloud loc : Segments) : List Text :=
  let kept := if isSecured loc.body then loc.body else cloud.body
  match tryBlock? cloud.body with
  | some b =>
    if minLocalLength < loc.body.length then
      [b.before, if isSecured loc.body then loc.body else b.interior, b.after]
    else [kept]
  | none => [kept]

/-- What a file takes from its candidates, from left to right. -/
def parts (cloud loc : Segments) : List Text :=
  imports cloud.imports loc.imports ++ bodyParts cloud loc ++ namedExports cloud.exports

theorem assembled_lines {ls : List Text} (h : ∀ l ∈ ls, l.getLast? = some ';') :
    Assembled ls (['\n'].intercalate ls) := by
  induction ls with
  | nil => exact .nil
  | cons l ls ih =>
    have hrest := ih fun m hm => h m (List.mem_cons_of_mem l hm)
    cases ls with
    | nil =>
      rw [List.intercalate_singleton]
      exact .part l
    | cons m ms =>
      rw [List.intercalate_cons_cons]
      exact .join (barrier_newline (h l List.mem_cons_self)) (.part l) hrest

/-- Text that follows a fence is a part on its own. -/
theorem assembled_behind {f : Text} (h : isFence f = true) (p : Text) :
    Assembled [p] (f ++ p) :=
  .join (barrier_of_isFence h []) .nil (.part p)

theorem isFence_override : isFence (overrideMarker ++ ['\n']) := by decide +kernel

/-- The frame of a try block is a fence on either side, with local logic
in it or without. -/
theorem isFence_try :
    isFence "try \x7b".toList ∧ isFence "\x7d catch".toList ∧
      isFence ("try \x7b".toList ++ ("\n    ".toList ++ prioritizedMarker ++
        "\n    ".toList)) ∧
      isFence ("\n  ".toList ++ "\x7d catch".toList) := by
  decide +kernel

theorem isFence_component : isFence componentHead ∧ isFence componentFoot := by
  decide +kernel

/-- Without a try block, one of the bodies is kept. -/
theorem assembled_kept (cloud loc : Segments) :
    Assembled [if isSecured loc.body then loc.body else cloud.body]
      (if isSecured loc.body then overrideMarker ++ '\n' :: loc.body
        else cloud.body) := by
  split
  · rw [List.append_cons]
    exact assembled_behind isFence_override loc.body
  · exact .part cloud.body

/-- With a try block, its parts stand around the interior. -/
theorem assembled_try (b : TryBlock) (loc : Segments) :
    Assembled [b.before, if isSecured loc.body then loc.body else b.interior, b.after]
      (b.before ++ "try \x7b".toList ++
        (if isSecured loc.body then prioritized loc.body else b.interior) ++
          "\x7d catch".toList ++
        b.after) := by
  obtain ⟨hopen, hclose, hhead, hfoot⟩ := isFence_try
  split
  · have hinner :=
      Assembled.join (barrier_of_isFence hhead _) (.part b.before) (.part loc.body)
    have hblock := Assembled.join (barrier_of_isFence hfoot _) hinner (.part b.after)
    unfold prioritized
    simp only [List.append_assoc, List.cons_append, List.nil_append] at hblock ⊢
    exact hblock
  · have hinner :=
      Assembled.join (barrier_of_isFence hopen _) (.part b.before) (.part b.interior)
    have hblock := Assembled.join (barrier_of_isFence hclose _) hinner (.part b.after)
    exact hblock

/-- The body of a merge is assembled from its parts. -/
theorem assembled_body (cloud loc : Segments) :
    Assembled (bodyParts cloud loc) (body cloud loc) := by
  unfold bodyParts body
  cases tryBlock? cloud.body with
  | none => exact assembled_kept cloud loc
  | some b =>
    by_cases hlength : minLocalLength < loc.body.length
    · simp only [hlength, if_true]
      exact assembled_try b loc
    · simp only [hlength, if_false]
      exact assembled_kept cloud loc

end Merge

/-- The file is assembled from its parts, if each of its import and export lines
is a statement. -/
theorem Synthesis.assembled_code {cloud loc : Segments}
    (himports : ∀ l ∈ Merge.imports cloud.imports loc.imports, l.getLast? = some ';')
    (hexports : ∀ l ∈ cloud.exports, l.getLast? = some ';') :
    Assembled (Merge.parts cloud loc) (codeOf cloud loc) := by
  obtain ⟨hhead, hfoot⟩ := Merge.isFence_component
  have hfront :=
    Assembled.join (barrier_of_isFence hhead _) (Merge.assembled_lines himports)
    (Merge.assembled_body cloud loc)
  exact .join (barrier_of_isFence hfoot _) hfront
    (Merge.assembled_lines fun l hl => hexports l (List.mem_of_mem_filter hl))

/-! ## What is found in a file -/

namespace Sensitive

/-- Without keys and addresses nothing but assigned secrets can be found. -/
theorem find_eq_of_not_occurs {t : Text} (hkey : ¬ Occurs IsKey t)
    (haddress : ¬ Occurs IsAddress t) :
    find t = if secrets.pattern.occurs t then [secrets] else [] := by
  have happlied : allApplied = [apiKeys, secrets, emails] := by decide
  rw [← apiKeys_occurs_eq_false_iff] at hkey
  rw [← emails_occurs_eq_false_iff] at haddress
  unfold find
  rw [happlied, List.filter_cons_of_neg (by simp [hkey]), List.filter_cons]
  simp [haddress]

theorem secrets_occurs_eq_false_iff (t : Text) :
    secrets.pattern.occurs t = false ↔ ¬ Occurs IsSecret t :=
  occurs_eq_false_iff rfl accepts_secret t

/-- The lines of a file come from its candidates, so they hold no secret if
those hold none. -/
theorem sealed_parts_iff {c l : Text} (hc : ¬ Occurs IsSecret c)
    (hl : ¬ Occurs IsSecret l) :
    Sealed (Merge.parts (segment c) (segment l)) ↔
      (∀ p ∈ Merge.bodyParts (segment c) (segment l), secrets.pattern.occurs p = false) ∧
        (Merge.parts (segment c) (segment l)).Pairwise Unclosed := by
  have himports : ∀ p ∈ Merge.imports (segment c).imports (segment l).imports,
      ¬ Occurs IsSecret p := by
    intro p hp
    rcases List.mem_append.mp (mem_distinct.mp hp) with hp | hp
    · exact Segment.not_occurs_statements hc p hp
    · exact Segment.not_occurs_statements hl p hp
  have hexports : ∀ p ∈ Merge.namedExports (segment c).exports, ¬ Occurs IsSecret p :=
    fun p hp => Segment.not_occurs_statements hc p (List.mem_of_mem_filter hp)
  refine and_congr ?_ Iff.rfl
  unfold Merge.parts
  rw [List.forall_mem_append, List.forall_mem_append]
  simp only [secrets_occurs_eq_false_iff]
  exact ⟨fun h => h.1.2, fun h => ⟨⟨himports, h⟩, hexports⟩⟩

/-- When a synthesis makes a secret. If nothing is found in the redacted candidates, then
nothing but an assigned secret can be found in the file, and none is, nor reported by the
verification of a build, exactly if no part of the body holds one and no part of the file
closes what an earlier one leaves open. -/
theorem find_synthesize_iff (cloud loc : Option Text)
    (hc : find (redact (cloud.getD [])) = []) (hl : find (redact (loc.getD [])) = []) :
    let c := segment (redact (cloud.getD []))
    let l := segment (redact (loc.getD []))
    let file := synthesize cloud loc
    let harmless := (∀ p ∈ Merge.bodyParts c l, secrets.pattern.occurs p = false) ∧
      (Merge.parts c l).Pairwise Unclosed
    (find file.code = [] ↔ harmless) ∧ (¬ harmless → find file.code = [secrets]) ∧
      ∀ path, Build.leakMessage? (BuildStep.fileOf path file) = none ↔ harmless := by
  intro c l file harmless
  obtain ⟨hckey, hcsecret, hcaddress⟩ := (find_eq_nil_iff _).mp hc
  obtain ⟨hlkey, hlsecret, hladdress⟩ := (find_eq_nil_iff _).mp hl
  have hkey := (unbroken_key.not_occurs_synthesis hckey hlkey).1
  have haddress := (unbroken_address.not_occurs_synthesis hcaddress hladdress).1
  have hassembled : Assembled (Merge.parts c l) file.code := by
    refine Synthesis.assembled_code (fun s hs => ?_) fun s hs =>
      (Segment.infix_of_statement hs).2
    rcases List.mem_append.mp (mem_distinct.mp hs) with hs | hs
    · exact (Segment.infix_of_statement hs).2
    · exact (Segment.infix_of_statement hs).2
  have hfind := find_eq_of_not_occurs hkey haddress
  have hsecret : secrets.pattern.occurs file.code = false ↔ harmless := by
    rw [secrets_occurs_eq_false_iff, hassembled.not_occurs_iff]
    exact sealed_parts_iff hcsecret hlsecret
  have hnil : find file.code = [] ↔ harmless := by
    rw [hfind, ← hsecret]
    cases secrets.pattern.occurs file.code <;> simp
  refine ⟨hnil, fun h => ?_, fun path => ?_⟩
  · rw [← hsecret, Bool.not_eq_false] at h
    rw [hfind, if_pos h]
  · exact (Build.leakMessage_eq_none_iff (BuildStep.fileOf path file)).trans hnil

/-- A value that is left open at the end of the only part does no harm. -/
theorem find_synthesize_open_value :
    find (redact "const token = \"b".toList) = [] ∧ find (redact []) = [] ∧
      find (synthesize (some "const token = \"b".toList) (some [])).code = [] := by
  have hc : find (redact "const token = \"b".toList) = [] := by decide +kernel
  have hl : find (redact []) = [] := by decide +kernel
  have hbody : Merge.bodyParts (segment (redact "const token = \"b".toList))
      (segment (redact [])) =
      ["const token = \"b".toList] := by decide +kernel
  have hparts : Merge.parts (segment (redact "const token = \"b".toList))
      (segment (redact [])) =
      ["const token = \"b".toList] := by decide +kernel
  obtain ⟨hfind, -, -⟩ :=
    find_synthesize_iff (some "const token = \"b".toList) (some []) hc hl
  simp only [Option.getD_some, hbody, hparts] at hfind
  refine ⟨hc, hl, hfind.mpr ⟨fun p hp => ?_, List.pairwise_singleton _ _⟩⟩
  rw [List.mem_singleton.mp hp]
  decide +kernel

/-- An export line that moves behind an open value closes it, and a name and its value
come together when the import line between them is emptied. -/
theorem synthesis_makes_secret :
    (find (redact "export * from \"a\";\nconst token = \"b".toList) = [] ∧
      find (redact []) = [] ∧
      find (synthesize (some "export * from \"a\";\nconst token = \"b".toList)
        (some [])).code =
        [secrets]) ∧
    find (redact "token\nimport a;\n: \"b\"".toList) = [] ∧
      find (synthesize (some "token\nimport a;\n: \"b\"".toList) (some [])).code =
        [secrets] := by
  decide +kernel

end Sensitive

end CodeWeave
