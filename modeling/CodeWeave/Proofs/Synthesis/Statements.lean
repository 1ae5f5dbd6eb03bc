import CodeWeave.Proofs.Distinct
import CodeWeave.Proofs.Synthesis.Provenance
import CodeWeave.Synthesis

/-!
# Statements in a synthesized file

The import lines of both candidates head a file, each once, and the named exports of the
cloud candidate end it. What stands between them is the merged body, and nobody looks for
statements there: a body reaches to the last closing brace of its candidate, so it can
hold lines that are written again around it.

> `imports_ordered_union`: the import lines of two candidates are united in order. It
> does not matter which two of three are united first, and a candidate that is merged
> again adds nothing.

> `count_statements`: a statement is a line of the file once for its place at the head, as
> often as among the exports for its place at the end, and as often again as it is a line
> of the merged body behind the body's first line.

> `statement_written_twice`: an import line within a component and an export line behind
> one stand twice in the file.
-/

namespace CodeWeave

open Text

namespace Segment

/-! ## Physical lines -/

theorem physicalLines_append_cons (a b : Text) :
    physicalLines (a ++ '\n' :: b) = physicalLines a ++ physicalLines b :=
  List.splitOn_append_cons_self a b

/-- A line feed ends an empty line at the start of the text. -/
theorem physicalLines_newline_cons (t : Text) :
    physicalLines ('\n' :: t) = [] :: physicalLines t :=
  physicalLines_append_cons [] t

theorem physicalLines_cons {c : Char} (hc : c ≠ '\n') (t : Text) :
    physicalLines (c :: t) = (physicalLines t).modifyHead (c :: ·) := by
  unfold physicalLines
  rw [List.splitOn_cons_eq_if_modifyHead, if_neg (by simpa using hc)]

/-- Text in front of the first line stays on it. -/
theorem physicalLines_append {a : Text} (ha : '\n' ∉ a) (t : Text) :
    physicalLines (a ++ t) = (physicalLines t).modifyHead (a ++ ·) := by
  induction a with
  | nil => exact (congrFun List.modifyHead_id (physicalLines t)).symm
  | cons c cs ih =>
    obtain ⟨hc, hcs⟩ := List.ne_and_not_mem_of_not_mem_cons ha
    rw [List.cons_append, physicalLines_cons (Ne.symm hc), ih hcs,
      List.modifyHead_modifyHead]
    rfl

theorem not_mem_physicalLine {t l : Text} (h : l ∈ physicalLines t) : '\n' ∉ l := by
  induction t generalizing l with
  | nil =>
    rw [physicalLines, List.splitOn_nil, List.mem_singleton] at h
    rw [h]
    exact List.not_mem_nil
  | cons c cs ih =>
    by_cases hc : c = '\n'
    · rw [hc, physicalLines_newline_cons] at h
      rcases List.mem_cons.mp h with rfl | h
      · exact List.not_mem_nil
      · exact ih h
    · rw [physicalLines_cons hc] at h
      cases hlines : physicalLines cs with
      | nil =>
        rw [hlines] at h
        exact absurd h List.not_mem_nil
      | cons m ms =>
        rw [hlines] at h ih
        rcases List.mem_cons.mp h with rfl | h
        · intro hmem
          rcases List.mem_cons.mp hmem with hcn | hmem
          · exact hc hcn.symm
          · exact ih List.mem_cons_self hmem
        · exact ih (List.mem_cons_of_mem m h)

/-- Lines that are written one below the other are the lines of that text, except that no
line at all is an empty one. -/
theorem count_physicalLines_intercalate {ls : List Text} (h : ∀ l ∈ ls, '\n' ∉ l)
    {s : Text} (hs : s ≠ []) :
    (physicalLines (['\n'].intercalate ls)).count s = ls.count s := by
  by_cases hls : ls = []
  · rw [hls]
    exact List.count_eq_zero_of_not_mem fun hmem => hs (List.mem_singleton.mp hmem)
  · unfold physicalLines
    rw [List.splitOn_intercalate '\n' h hls]

/-! ## Statements -/

/-- What every statement with this keyword is. -/
structure IsStatement (keyword s : Text) : Prop where
  starts : keyword <+: s
  ends : s.getLast? = some ';'
  line : '\n' ∉ s

theorem isStatement_of_mem {keyword t s : Text} (h : s ∈ statements keyword t) :
    IsStatement keyword s := by
  obtain ⟨line, hline, hs⟩ := List.mem_filterMap.mp h
  obtain ⟨hstart, hlast⟩ := prefix_of_statement hs
  refine ⟨?_, hlast, fun hmem => not_mem_physicalLine hline (hstart.subset hmem)⟩
  unfold statement? at hs
  dsimp only at hs
  split at hs
  next hparts =>
    rw [← Option.some.inj hs]
    exact List.isPrefixOf_iff_prefix.mp hparts.1
  next => exact nomatch hs

theorem IsStatement.head {c : Char} {cs s : Text} (h : IsStatement (c :: cs) s) :
    s.head? = some c := by
  obtain ⟨r, hr⟩ := h.starts
  rw [← hr]
  rfl

theorem IsStatement.ne_nil {keyword s : Text} (h : IsStatement keyword s) : s ≠ [] := by
  intro hnil
  have hends := h.ends
  rw [hnil] at hends
  exact nomatch hends

/-- An import line is no export line. -/
theorem not_import_and_export {s : Text} (himport : IsStatement importWord s)
    (hexport : IsStatement exportWord s) : False := by
  have hi : s.head? = some 'i' := himport.head
  have he : s.head? = some 'e' := hexport.head
  rw [hi] at he
  exact absurd (Option.some.inj he) (by decide)

end Segment

open Segment

namespace Merge

/-! ## The united import lines -/

/-- The import lines of two candidates, each once, in the order of their first occurrence
in one behind the other. Uniting is associative, and uniting with the second again
changes nothing. -/
theorem imports_ordered_union (a b c : List Text) :
    (imports a b).Nodup ∧ (∀ line, line ∈ imports a b ↔ line ∈ a ∨ line ∈ b) ∧
      (imports a b).Pairwise (fun line line' => (a ++ b).idxOf line <
        (a ++ b).idxOf line') ∧
      imports (imports a b) c = imports a (imports b c) ∧ imports (imports a b) b =
        imports a b := by
  unfold imports
  refine ⟨nodup_distinct _, fun line => mem_distinct.trans List.mem_append,
    pairwise_distinct _, ?_, ?_⟩
  · rw [distinct_distinct_append, distinct_append_distinct, List.append_assoc]
  · rw [distinct_distinct_append]
    exact distinct_append_of_subset (List.subset_append_right a b)

/-! ## The lines of a file -/

/-- The line that opens the component of a file. -/
def componentLine : Text := "export default function App() \x7b".toList

theorem componentHead_eq : componentHead = '\n' :: '\n' ::
    (componentLine ++ '\n' :: "  ".toList) := rfl

theorem componentFoot_eq : componentFoot = '\n' ::
    ("\x7d".toList ++ '\n' :: '\n' :: []) := rfl

/-- A file, line by line around its body. -/
theorem assemble_eq (imports : List Text) (body : Text) (exports : List Text) :
    assemble imports body exports = ['\n'].intercalate imports ++ '\n' :: '\n' ::
      (componentLine ++ '\n' :: (("  ".toList ++ body) ++ '\n' ::
        ("\x7d".toList ++ '\n' :: '\n' ::
        ['\n'].intercalate (namedExports exports)))) := by
  unfold assemble
  rw [componentHead_eq, componentFoot_eq]
  simp only [List.append_assoc, List.cons_append, List.nil_append]

/-- The lines of a file: its imports, the component around the body, its named exports. -/
theorem physicalLines_assemble (imports : List Text) (body : Text) (exports : List Text) :
    physicalLines (assemble imports body exports) =
      physicalLines (['\n'].intercalate imports) ++ ([[], componentLine] ++
        ((physicalLines body).modifyHead ("  ".toList ++ ·) ++ (["\x7d".toList, []] ++
          physicalLines (['\n'].intercalate (namedExports exports))))) := by
  have hbrace : physicalLines "\x7d".toList = ["\x7d".toList] := by decide
  have hline : physicalLines componentLine = [componentLine] := by decide
  rw [assemble_eq, ← physicalLines_append (by decide) body]
  simp only [physicalLines_append_cons, physicalLines_newline_cons, hbrace, hline,
    List.cons_append, List.nil_append]

end Merge

/-! ## How often a statement is written -/

/-- A line that starts with no space is a line of an indented text if it is one
behind the first. -/
theorem count_modifyHead_indent {ls : List Text} {s : Text} {c : Char}
    (hs : s.head? = some c) (hc : c ≠ ' ') :
    (ls.modifyHead ("  ".toList ++ ·)).count s = ls.tail.count s := by
  cases ls with
  | nil => rfl
  | cons l ls =>
    refine List.count_cons_of_ne fun heq => hc ?_
    rw [← heq] at hs
    exact (Option.some.inj hs).symm

/-- A statement is no line of the frame that a file has around its body, so it is written
where imports, exports and the body have it. -/
theorem Merge.count_assemble {keyword s : Text} {c : Char}
    (hs : IsStatement (c :: keyword) s) (hc : c ≠ ' ') {imports exports : List Text}
    (himports : ∀ l ∈ imports, '\n' ∉ l) (hexports : ∀ l ∈ exports, '\n' ∉ l)
    (body : Text) :
    (physicalLines (assemble imports body exports)).count s =
      imports.count s + (physicalLines body).tail.count s +
        (namedExports exports).count s := by
  have hnotLine : ∀ l : Text, l.getLast? ≠ some ';' → l ≠ s :=
    fun l hl heq => hl (heq ▸ hs.ends)
  have hnamed : (physicalLines (['\n'].intercalate (namedExports exports))).count s =
      (namedExports exports).count s :=
    count_physicalLines_intercalate (fun l hl => hexports l (List.mem_of_mem_filter hl))
      hs.ne_nil
  have hopen : [[], componentLine].count s = 0 := by
    rw [List.count_cons_of_ne (hnotLine _ (by decide)),
      List.count_cons_of_ne (hnotLine _ (by decide))]
    rfl
  have hclose : ["\x7d".toList, []].count s = 0 := by
    rw [List.count_cons_of_ne (hnotLine _ (by decide)),
      List.count_cons_of_ne (hnotLine _ (by decide))]
    rfl
  rw [physicalLines_assemble, List.count_append, List.count_append, List.count_append,
    List.count_append, hopen, hclose, hnamed,
    count_physicalLines_intercalate himports hs.ne_nil,
    count_modifyHead_indent hs.head hc]
  omega

/-- How often a statement is a line of a file. An import line of either candidate stands
once at the head, and an export line of the cloud candidate that does not mention
`default` stands at the end as often as among the exports. Either is a line of the file as
often again as it is a line of the merged body, the first one of which is indented. -/
theorem count_statements (cloud loc : Option Text) :
    let c := segment (redact (cloud.getD []))
    let l := segment (redact (loc.getD []))
    let lines := physicalLines (synthesize cloud loc).code
    let inBody := (physicalLines (Merge.body c l)).tail
    (∀ s, s ∈ c.imports ∨ s ∈ l.imports → lines.count s = 1 + inBody.count s) ∧
      ∀ s ∈ c.exports, contains "default".toList s = false →
        lines.count s = c.exports.count s + inBody.count s := by
  intro c l lines inBody
  have himport : ∀ s ∈ Merge.imports c.imports l.imports, IsStatement importWord s := by
    intro s hs
    rcases List.mem_append.mp (mem_distinct.mp hs) with hs | hs
    · exact isStatement_of_mem hs
    · exact isStatement_of_mem hs
  have hexport : ∀ s ∈ c.exports, IsStatement exportWord s :=
    fun s hs => isStatement_of_mem hs
  have hlines : ∀ {d : Char} {keyword s : Text}, IsStatement (d :: keyword) s → d ≠ ' ' →
      lines.count s = (Merge.imports c.imports l.imports).count s + inBody.count s +
        (Merge.namedExports c.exports).count s := fun hs hd =>
    Merge.count_assemble hs hd (fun m hm => (himport m hm).line)
      (fun m hm => (hexport m hm).line) _
  constructor
  · intro s hs
    have hmem : s ∈ Merge.imports c.imports l.imports :=
      mem_distinct.mpr (List.mem_append.mpr hs)
    have hexports : (Merge.namedExports c.exports).count s = 0 :=
      List.count_eq_zero_of_not_mem fun hnamed =>
        not_import_and_export (himport s hmem) (hexport s (List.mem_of_mem_filter hnamed))
    have himports : (Merge.imports c.imports l.imports).count s = 1 :=
      List.count_eq_one_of_mem (nodup_distinct (c.imports ++ l.imports)) hmem
    rw [hlines (himport s hmem) (by decide), hexports, himports]
    rfl
  · intro s hs hdefault
    have himports : (Merge.imports c.imports l.imports).count s = 0 :=
      List.count_eq_zero_of_not_mem fun hmem => not_import_and_export (himport s hmem)
        (hexport s hs)
    have hnamed : (Merge.namedExports c.exports).count s = c.exports.count s :=
      List.count_filter (by rw [hdefault]; rfl)
    rw [hlines (hexport s hs) (by decide), himports, hnamed]
    omega

/-- A body without statements: each of them is a line of the file as often as the
candidates have it. -/
theorem count_statements_around_component :
    let cloud := "import a;\nexport default function A() \x7b\nb();\n\x7d\nexport const c = 1;".toList
    let loc := "import d;\nimport a;".toList
    let lines := physicalLines (synthesize (some cloud) (some loc)).code
    ("import a;".toList ∈ (segment (redact cloud)).imports ∧
      lines.count "import a;".toList = 1) ∧
      ("import d;".toList ∈ (segment (redact loc)).imports ∧
        lines.count "import d;".toList = 1) ∧
      "export const c = 1;".toList ∈ (segment (redact cloud)).exports ∧
      lines.count "export const c = 1;".toList = 1 := by
  intro cloud loc lines
  have hcloud : segment (redact cloud) =
      ⟨["import a;".toList], ["export const c = 1;".toList], [], "b();".toList⟩ := by
        decide +kernel
  have hloc : (segment (redact loc)).imports =
      ["import d;".toList, "import a;".toList] := by
    decide +kernel
  have hbody :
      (physicalLines (Merge.body (segment (redact cloud)) (segment (redact loc)))).tail =
      [] := by
    decide +kernel
  obtain ⟨himports, hexports⟩ := count_statements (some cloud) (some loc)
  simp only [Option.getD_some, hbody, List.count_nil, Nat.add_zero] at himports hexports
  have ha : "import a;".toList ∈ (segment (redact cloud)).imports := by
    rw [hcloud]
    exact List.mem_singleton_self _
  have hd : "import d;".toList ∈ (segment (redact loc)).imports := by
    rw [hloc]
    exact List.mem_cons_self
  have hc : "export const c = 1;".toList ∈ (segment (redact cloud)).exports := by
    rw [hcloud]
    exact List.mem_singleton_self _
  refine ⟨⟨ha, himports _ (Or.inl ha)⟩, ⟨hd, himports _ (Or.inr hd)⟩, hc, ?_⟩
  rw [show lines.count _ = _ from hexports _ hc (by decide), hcloud]
  decide

/-- The body keeps an import line that stands within a component, and an export line that
stands before the last closing brace of the candidate. -/
theorem statement_written_twice :
    let within := some "export default function A() \x7b\nx\nimport a;\n\x7d".toList
    let behind := some "export default function A() \x7b\n\x7d\nexport const b = 1;\nconst c = \x7b\x7d;".toList
    ("import a;".toList ∈ (segment (redact (within.getD []))).imports ∧
      (physicalLines (synthesize within (some [])).code).count "import a;".toList = 2) ∧
    (segment (redact (behind.getD []))).exports = ["export const b = 1;".toList] ∧
      (physicalLines (synthesize behind (some [])).code).count
        "export const b = 1;".toList = 2 := by
  decide +kernel

end CodeWeave
