import CodeWeave.Proofs.Synthesis.Precedence
import CodeWeave.Proofs.Synthesis.Statements
import Mathlib.Data.List.Chain

/-!
# Segmenting a synthesized file

A file can be a candidate again, and segmenting it loses nothing of what it was assembled
from. Its imports are its first lines and its named exports the last, so they are read
again where they stand. For the body something has to be said: an import line may hold a
whole header of a component, and the body reaches from the first header of the file to its
last closing brace.

> `exists_component`: the first header ends no later than the one that the file has for
> its body, since a header is not continued behind a semicolon at the end of a line. So
> the interior holds the body.

> `trimmed_body`: a merged body has no white space at its ends, so nothing of
it is stripped off.

> `segment_synthesize`: imports, named exports and body of a file are in its segments.
-/

namespace CodeWeave

open Text Sensitive

namespace Segment

/-! ## Statements, read again -/

/-- A statement is a line that consists of itself. -/
theorem statement?_of_mem {keyword t s : Text} (h : s ∈ statements keyword t) :
    statement? keyword s = some s := by
  obtain ⟨line, _, hline⟩ := List.mem_filterMap.mp h
  unfold statement? at hline
  dsimp only at hline
  split at hline
  next hparts =>
    obtain rfl : dropReturn line = s := Option.some.inj hline
    have hdrop : dropReturn (dropReturn line) = dropReturn line := by
      refine if_neg fun hreturn => ?_
      rw [hparts.2.1] at hreturn
      exact absurd (Option.some.inj hreturn) (by decide)
    unfold statement?
    dsimp only
    rw [hdrop, if_pos hparts]
  next => exact nomatch hline

/-- Statements that are written one below the other are the statements of that text. -/
theorem statements_intercalate {keyword : Text} {ls : List Text}
    (h : ∀ l ∈ ls, statement? keyword l = some l) (hline : ∀ l ∈ ls, '\n' ∉ l) :
    statements keyword (['\n'].intercalate ls) = ls := by
  by_cases hls : ls = []
  · have hempty : statement? keyword [] = none := if_neg fun hparts => nomatch hparts.2.1
    rw [hls, statements, physicalLines, List.intercalate_nil, List.splitOn_nil,
      List.filterMap_cons_none hempty, List.filterMap_nil]
  · unfold statements physicalLines
    rw [List.splitOn_intercalate '\n' hline hls, List.filterMap_congr h,
      List.filterMap_some]

theorem statements_append_cons (keyword a b : Text) :
    statements keyword (a ++ '\n' :: b) =
      statements keyword a ++ statements keyword b := by
  unfold statements
  rw [physicalLines_append_cons, List.filterMap_append]

/-! ## Headers -/

/-- Within a header no line ends behind a semicolon. -/
theorem IsHeader.isChain {head : Text} (h : IsHeader head) :
    head.IsChain fun c d => c = ';' → d ≠ '\n' := by
  obtain ⟨s₁, s₂, s₃, name, s₄, parameters, s₅, -, hs₁, -, hs₂, -, hs₃, -, hname, hs₄,
      hline, hs₅⟩ := h
  have hblank : ∀ s : Text, (∀ c ∈ s, isBlank c = true) → ';' ∉ s :=
    fun s hs hmem => absurd (hs _ hmem) (by decide)
  have hword : ';' ∉ name := fun hmem => absurd (hname _ hmem) (by decide)
  have hopen : ';' ∉ "export".toList ++ s₁ ++ "default".toList ++ s₂ ++
      "function".toList ++ s₃ ++ name ++ s₄ ++
      "(".toList := by
    simp only [List.mem_append, not_or]
    exact ⟨⟨⟨⟨⟨⟨⟨⟨by decide, hblank s₁ hs₁⟩, by decide⟩, hblank s₂ hs₂⟩, by decide⟩,
      hblank s₃ hs₃⟩, hword⟩,
      hblank s₄ hs₄⟩, by decide⟩
  have hclose : ';' ∉ ")".toList ++ s₅ ++ "\x7b".toList := by
    simp only [List.mem_append, not_or]
    exact ⟨⟨by decide, hblank s₅ hs₅⟩, by decide⟩
  have hchain : ∀ s : Text, ';' ∉ s → s.IsChain fun c d => c = ';' → d ≠ '\n' := by
    intro s hs
    refine (List.pairwise_of_forall_mem_list fun c hc d _ hcd => ?_).isChain
    exact absurd (hcd ▸ hc) hs
  have hparameters : parameters.IsChain fun c d => c = ';' → d ≠ '\n' := by
    refine (List.pairwise_of_forall_mem_list fun c _ d hd _ hdn => ?_).isChain
    exact hline (hdn ▸ hd)
  refine (hchain _ hopen).append (hparameters.append (hchain _ hclose) ?_) ?_
  · -- behind the parameters comes a parenthesis
    intro c _ d hd _
    obtain rfl : ')' = d := Option.some.inj hd
    decide
  · intro c hc d _ hcd
    exact absurd (hcd ▸ List.mem_of_getLast? hc) hopen

/-- So a header that starts in front of a line's last semicolon ends there too. -/
theorem IsHeader.suffix_of_line {head t y w : Text} (h : IsHeader head)
    (heq : head ++ t = y ++ ';' :: '\n' :: w) : '\n' :: w <:+ t := by
  rcases List.append_eq_append_iff.mp heq with ⟨o, _, ht⟩ | ⟨o, hhead, ho⟩
  · rw [ht]
    exact ⟨o ++ [';'], by simp⟩
  · cases o with
    | nil => exact ⟨[';'], ho⟩
    | cons c o =>
      obtain ⟨rfl, hrest⟩ := List.cons.inj ho
      cases o with
      | nil => exact ⟨[], hrest⟩
      | cons d o =>
        -- a header that goes on would have the end of the line in it
        obtain ⟨rfl, _⟩ := List.cons.inj hrest
        have hchain := h.isChain
        rw [hhead] at hchain
        exact absurd rfl ((List.isChain_append_cons_cons.mp hchain).2.1 rfl)

theorem componentInterior_componentLine (r : Text) :
    componentInterior? (Merge.componentLine ++ '\n' :: r) =
      beforeLast '\x7d' ('\n' :: r) := rfl

/-! ## The component of a file -/

/-- What stands before a character is before the last of its kind. -/
theorem prefix_of_last {c : Char} {a b i z : Text} (hz : c ∉ z)
    (h : a ++ c :: b = i ++ c :: z) :
    a <+: i := by
  rcases List.append_eq_append_iff.mp h with ⟨o, hi, _⟩ | ⟨o, ha, ho⟩
  · exact ⟨o, hi.symm⟩
  · cases o with
    | nil => exact ⟨[], by rw [ha, List.append_nil, List.append_nil]⟩
    | cons d o =>
      obtain ⟨_, hsplit⟩ := List.cons.inj ho
      refine absurd ?_ hz
      rw [hsplit]
      exact List.mem_append_right o List.mem_cons_self

theorem getLast?_intercalate {c : Char} {ls : List Text}
    (h : ∀ l ∈ ls, l.getLast? = some c) (hne : ls ≠ []) :
    (['\n'].intercalate ls).getLast? = some c := by
  induction ls with
  | nil => exact absurd rfl hne
  | cons l ls ih =>
    cases ls with
    | nil =>
      rw [List.intercalate_singleton]
      exact h l List.mem_cons_self
    | cons m ms =>
      have hrest :=
        ih (fun k hk => h k (List.mem_cons_of_mem l hk)) (List.cons_ne_nil m ms)
      rw [List.intercalate_cons_cons, List.getLast?_append, hrest]
      rfl

theorem IsHeader.head {head : Text} (h : IsHeader head) : head.head? = some 'e' := by
  cases h
  rfl

/-- What starts with a letter in front of the component line has the last
semicolon in it. -/
theorem exists_line_end {imports : List Text} (h : ∀ l ∈ imports, l.getLast? = some ';')
    {before x : Text} {c : Char} (hc : c ≠ '\n') (hx : x.head? = some c)
    (hfront : ['\n'].intercalate imports ++ ['\n', '\n'] = before ++ x) :
    ∃ y, x = y ++ [';', '\n', '\n'] := by
  have hmem : c ∈ x := List.mem_of_head? hx
  have hnot : c ∉ ['\n', '\n'] := by simp [hc]
  rcases List.append_eq_append_iff.mp hfront with ⟨o, _, ho⟩ | ⟨o, ho, rfl⟩
  · refine absurd ?_ hnot
    rw [ho]
    exact List.mem_append_right o hmem
  · have hne : o ≠ [] := by
      intro hnil
      rw [hnil] at hmem
      exact hnot hmem
    have hlines : imports ≠ [] := by
      intro hnil
      rw [hnil, List.intercalate_nil] at ho
      exact hne (List.append_eq_nil_iff.mp ho.symm).2
    have hlast := getLast?_intercalate h hlines
    rw [ho, List.getLast?_append_of_ne_nil _ hne] at hlast
    obtain ⟨y, rfl⟩ := List.getLast?_eq_some_iff.mp hlast
    exact ⟨y, List.append_assoc y _ _⟩

/-- A file has a component, and its interior holds everything between the component line
and the closing brace of the file's own component. -/
theorem exists_component {imports : List Text} (h : ∀ l ∈ imports, l.getLast? = some ';')
    (inner tail : Text) :
    ∃ interior, component? (['\n'].intercalate imports ++ '\n' :: '\n' ::
        (Merge.componentLine ++ '\n' :: (inner ++ '\x7d' :: tail))) = some interior ∧
      '\n' :: inner <:+: interior := by
  have hown :
      (componentInterior? (Merge.componentLine ++ '\n' ::
      (inner ++ '\x7d' :: tail))).isSome = true := by
    rw [componentInterior_componentLine, Option.isSome_iff_ne_none, Ne,
      beforeLast_eq_none_iff]
    simp
  obtain ⟨before, interior, hfirst, hle⟩ :=
    exists_shortest_le (['\n'].intercalate imports ++ ['\n', '\n']) hown
  obtain ⟨m, hfile, hm⟩ := shortest_sound hfirst
  refine ⟨interior, ?_, ?_⟩
  · rw [List.append_assoc] at hfirst
    unfold component? findFirst
    exact congrArg (Option.map _) hfirst
  · obtain ⟨x, hfront, rfl⟩ : ∃ x, ['\n'].intercalate imports ++
        ['\n', '\n'] = before ++ x ∧
        m = x ++ (Merge.componentLine ++ '\n' :: (inner ++ '\x7d' :: tail)) := by
      rcases List.append_eq_append_iff.mp hfile with ⟨o, hbefore, ho⟩ | hsplit
      · rw [hbefore, List.length_append] at hle
        obtain rfl : o = [] := List.length_eq_zero_iff.mp (by omega)
        exact ⟨[], by rw [hbefore, List.append_nil, List.append_nil], ho.symm⟩
      · exact hsplit
    cases x with
    | nil =>
      -- the component of the file is the first
      rw [List.nil_append, componentInterior_componentLine] at hm
      obtain ⟨z, hz, hnot⟩ := exists_of_beforeLast hm
      exact (prefix_of_last (a := '\n' :: inner) hnot hz).isInfix
    | cons c cs =>
      -- an earlier one starts within an import line
      obtain ⟨head, rest, hsplit, hhead, hrest⟩ := component_sound hm
      have hc : c = 'e' := by
        have hstart := congrArg List.head? hsplit
        rw [List.cons_append, List.head?_cons, List.head?_append, hhead.head] at hstart
        exact Option.some.inj hstart
      obtain ⟨y, hy⟩ := exists_line_end h (c := c) (by rw [hc]; decide) rfl hfront
      rw [hy, List.append_assoc] at hsplit
      obtain ⟨a, ha⟩ := hhead.suffix_of_line hsplit.symm
      have hprefix :=
        prefix_of_last (a := a ++ '\n' :: '\n' :: (Merge.componentLine ++ '\n' :: inner))
        hrest
        (b := tail) (by rw [← ha]; simp)
      exact List.IsInfix.trans ⟨a ++ '\n' :: '\n' :: Merge.componentLine, [], by simp⟩
        hprefix.isInfix

end Segment

/-! ## The merged body -/

/-- A text that starts and ends like a trimmed one is trimmed. -/
theorem Text.Trimmed.of_ends {p q s t : Text} (ht : Trimmed t) (hp : p ≠ [])
    (hpt : p <+: t) (hps : p <+: s) (hq : q ≠ []) (hqt : q <:+ t) (hqs : q <:+ s) :
    Trimmed s := by
  constructor
  · obtain ⟨x, rfl⟩ := hps
    obtain ⟨y, rfl⟩ := hpt
    have hhead := ht.head
    rw [List.head?_append_of_ne_nil _ hp] at hhead ⊢
    exact hhead
  · obtain ⟨x, rfl⟩ := hqs
    obtain ⟨y, rfl⟩ := hqt
    have hlast := ht.last
    rw [List.getLast?_append_of_ne_nil _ hq] at hlast ⊢
    exact hlast

/-- A merged body starts and ends with what one of the bodies starts or ends with,
or with a marker. -/
theorem Merge.trimmed_body {cloud loc : Segments} (hc : Trimmed cloud.body)
    (hl : Trimmed loc.body) :
    Trimmed (body cloud loc) := by
  rcases body_cases cloud loc with ⟨b, hfirst, _, hbody⟩ | ⟨_, hbody⟩
  · rw [hbody]
    refine hc.of_ends (p := b.before ++ "try".toList)
      (q := "catch".toList ++ b.after) (by simp)
      hfirst.stands.prefix_before ⟨" \x7b".toList ++
        ((if isSecured loc.body then prioritized loc.body
        else b.interior) ++ ("\x7d catch".toList ++ b.after)), ?_⟩ (by simp)
          hfirst.stands.suffix_after
      ⟨b.before ++ "try \x7b".toList ++ (if isSecured loc.body then prioritized loc.body
        else b.interior) ++ "\x7d ".toList, ?_⟩
    · have hopen : "try \x7b".toList = "try".toList ++ " \x7b".toList := by decide
      rw [hopen]
      simp only [List.append_assoc]
    · have hclose : "\x7d catch".toList = "\x7d ".toList ++ "catch".toList := by decide
      rw [hclose]
      simp only [List.append_assoc]
  · rw [hbody]
    split
    next hsecured =>
      have hne : loc.body ≠ [] := by
        intro hnil
        rw [hnil] at hsecured
        exact absurd hsecured (by decide)
      constructor
      · intro c hc
        obtain rfl : '/' = c := Option.some.inj hc
        decide
      · rw [List.append_cons, List.getLast?_append_of_ne_nil _ hne]
        exact hl.last
    next => exact hc

/-! ## The main result -/

theorem Segment.trimmed_body (t : Text) : Trimmed (body t) := by
  unfold body
  split
  · exact trimmed_strip _
  · exact trimmed_strip _

open Segment in
/-- A file can be segmented again without loss. Its imports are the first of the imports
that are found in it, its named exports are the last of the exports, a component is found,
and the body of the file has the whole merged body in it. -/
theorem segment_synthesize (cloud loc : Option Text) :
    let c := segment (redact (cloud.getD []))
    let l := segment (redact (loc.getD []))
    let code := (synthesize cloud loc).code
    Merge.imports c.imports l.imports <+: (segment code).imports ∧
      c.exports.filter (fun s => !contains "default".toList s) <:+
        (segment code).exports ∧
      (component? code).isSome = true ∧
      Merge.body c l <:+: (segment code).body := by
  intro c l code
  let exports := Merge.namedExports c.exports
  have himports : ∀ s ∈ Merge.imports c.imports l.imports, IsStatement importWord s ∧
      statement? importWord s = some s := by
    intro s hs
    rcases List.mem_append.mp (mem_distinct.mp hs) with hs | hs
    · exact ⟨isStatement_of_mem hs, statement?_of_mem hs⟩
    · exact ⟨isStatement_of_mem hs, statement?_of_mem hs⟩
  have hexports : ∀ s ∈ exports, IsStatement exportWord s ∧
      statement? exportWord s = some s := by
    intro s hs
    have hmem : s ∈ c.exports := List.mem_of_mem_filter hs
    exact ⟨isStatement_of_mem hmem, statement?_of_mem hmem⟩
  have hcode : code = _ :=
    Merge.assemble_eq (Merge.imports c.imports l.imports) (Merge.body c l) c.exports
  obtain ⟨interior, hinterior, hinner⟩ :=
    exists_component (fun s hs => (himports s hs).1.ends)
    ("  ".toList ++ Merge.body c l ++ ['\n']) ('\n' :: '\n' :: ['\n'].intercalate exports)
  have hcomponent : component? code = some interior := by
    rw [hcode, ← hinterior]
    simp only [List.append_assoc, List.cons_append, List.nil_append]
    rfl
  refine ⟨?_, ?_, by rw [hcomponent]; rfl, ?_⟩
  · show _ <+: statements importWord code
    rw [hcode, statements_append_cons,
      statements_intercalate (fun s hs => (himports s hs).2) fun s hs =>
        (himports s hs).1.line]
    exact List.prefix_append _ _
  · show exports <:+ statements exportWord code
    have hend : code = (['\n'].intercalate (Merge.imports c.imports l.imports) ++
        '\n' :: '\n' ::
        (Merge.componentLine ++ '\n' :: ("  ".toList ++ Merge.body c l ++ '\n' ::
          ("\x7d".toList ++ ['\n'])))) ++
          '\n' :: ['\n'].intercalate exports := by
      rw [hcode]
      simp only [List.append_assoc, List.cons_append, List.nil_append]
      rfl
    rw [hend, statements_append_cons,
      statements_intercalate (fun s hs => (hexports s hs).2) fun s hs =>
        (hexports s hs).1.line]
    exact List.suffix_append _ _
  · show _ <:+: body code
    have hmerged : Trimmed (Merge.body c l) :=
      Merge.trimmed_body (trimmed_body _) (trimmed_body _)
    unfold body
    rw [hcomponent]
    refine hmerged.infix_strip (List.IsInfix.trans
      ⟨'\n' :: "  ".toList, ['\n'], ?_⟩ hinner)
    simp only [List.append_assoc, List.cons_append]

/-- An import line with a header in it opens the first component of the file, and the
body starts there. -/
example :
    let cloud := some "import a; export default function B() \x7b;\nc()".toList
    Merge.body (segment (cloud.getD [])) (segment []) = "c()".toList ∧
      (segment (synthesize cloud none).code).body =
        ";\n\nexport default function App() \x7b\n  c()".toList := by
  decide +kernel

end CodeWeave
