import CodeWeave.Diff.Block
import CodeWeave.Proofs.Text.Stretch

/-!
# Reading a printed diff

Each block of a diff is printed under a header with its number, and each of its lines
behind the mark of its origin. A marked line never looks like a header, and a header
ends where the next line starts, so whatever the blocks hold, the printed text falls
into its blocks again:

> `readHeader?_header`: the number and the origin can be read from a header.

> `sections_printedLinesFrom`: the printed lines, cut at the headers, are the blocks.

> `print_readable`: so the printed text shows the number, the origin and the lines of
> every block, and two diffs are printed alike only if they have these in common.
-/

namespace CodeWeave.Diff

open Text

/-! ## Cutting at the headers -/

/-- The line starts like a header. -/
def isHeading (l : Text) : Bool := "@@".toList.isPrefixOf l

/-- The headers among the lines, each with the lines up to the next one. -/
def sections : List Text → List (Text × List Text)
  | [] => []
  | l :: ls =>
    if isHeading l then (l, ls.takeWhile (!isHeading ·)) :: sections ls else sections ls

/-- Every heading opens one section. -/
theorem map_fst_sections (ls : List Text) :
    (sections ls).map (·.1) = ls.filter isHeading := by
  induction ls with
  | nil => rfl
  | cons l ls ih =>
    rw [sections, List.filter_cons]
    by_cases hl : isHeading l = true
    · rw [if_pos hl, if_pos hl, List.map_cons, ih]
    · rw [if_neg hl, if_neg hl, ih]

/-- Lines in front of the first header belong to no section. -/
theorem sections_append {ls : List Text} (h : ∀ l ∈ ls, isHeading l = false)
    (ms : List Text) :
    sections (ls ++ ms) = sections ms := by
  induction ls with
  | nil => rfl
  | cons l ls ih =>
    rw [List.cons_append, sections, h l List.mem_cons_self, if_neg Bool.false_ne_true]
    exact ih fun m hm => h m (List.mem_cons_of_mem l hm)

/-- A section ends in front of the next heading. -/
theorem takeWhile_append_heading {ls ms : List Text} (hls : ∀ l ∈ ls, isHeading l = false)
    (hms : ∀ m ∈ ms.head?, isHeading m = true) :
    (ls ++ ms).takeWhile (!isHeading ·) = ls := by
  rw [List.takeWhile_append_of_pos fun l hl => by rw [hls l hl]; rfl]
  cases ms with
  | nil => exact List.append_nil ls
  | cons m ms =>
    rw [List.takeWhile_cons_of_neg (by rw [hms m rfl]; exact Bool.false_ne_true),
      List.append_nil]

/-! ## Headers and marks -/

/-- A header has its number in decimal digits, and behind it the name of the origin. -/
theorem header_eq (index : Nat) (o : Origin) :
    header index o = "@@ ".toList ++ (Nat.toDigits 10 index ++ ' ' ::
      (o.name.toList ++ " @@".toList)) := by
  show ("@@ " ++ toString index ++ " " ++ o.name ++ " @@").toList = _
  simp [String.toList_append]

/-- A header is recognised as one. -/
theorem isHeading_header (index : Nat) (o : Origin) :
    isHeading (header index o) = true := by
  rw [header_eq]
  rfl

/-- No marked line is taken for a header, whatever the line is: the mark is
in front of it. -/
theorem not_isHeading_marked (o : Origin) (l : Text) :
    isHeading (lineMark o ++ l) = false := by
  cases o <;> rfl

/-- A marked line shows the origin and the line. -/
theorem lineMark_append_inj {o o' : Origin} {l l' : Text} :
    lineMark o ++ l = lineMark o' ++ l' ↔ o = o' ∧ l = l' := by
  constructor
  · intro h
    have hlength : (lineMark o).length = (lineMark o').length := by
      cases o <;> cases o' <;> rfl
    obtain ⟨hmark, hl⟩ := List.append_inj h hlength
    refine ⟨?_, hl⟩
    cases o <;> cases o' <;> first | rfl | exact absurd hmark (by decide)
  · intro h
    rw [h.1, h.2]

/-- Behind its mark a line stands as it is. -/
theorem drop_marked (o : Origin) (l : Text) : (lineMark o ++ l).drop 2 = l := by
  cases o <;> rfl

theorem isDigit_of_mem_toDigits {index : Nat} {c : Char} (h : c ∈ Nat.toDigits 10 index) :
    c.isDigit = true :=
  Nat.isDigit_of_mem_toDigits (by decide) (by decide) h

/-- The number and the origin in a header. -/
def readHeader? (l : Text) : Option (Nat × Origin) := do
  let r ← skip "@@ ".toList l
  let named ← skip [' '] (r.dropWhile Char.isDigit)
  let name ← dropEnding? " @@".toList named
  let o ← Origin.ofName? (String.ofList name)
  some (Nat.ofDigitChars 10 (r.takeWhile Char.isDigit) 0, o)

/-- Number and origin are read back from a header. -/
theorem readHeader?_header (index : Nat) (o : Origin) :
    readHeader? (header index o) = some (index, o) := by
  obtain ⟨hdigits, hnamed⟩ :=
    takeWhile_append_of_neg (p := Char.isDigit) (w := Nat.toDigits 10 index) (d := ' ')
    (fun c hc => isDigit_of_mem_toDigits hc) rfl (o.name.toList ++ " @@".toList)
  have hname : Origin.ofName? (String.ofList o.name.toList) = some o := by
    rw [String.ofList_toList]
    cases o <;> rfl
  have hskip : skip [' '] (' ' :: (o.name.toList ++ " @@".toList)) =
      some (o.name.toList ++ " @@".toList) :=
    skip_append [' '] _
  simp only [readHeader?, header_eq, skip_append, hdigits, hnamed, hskip,
    dropEnding_append, hname, Nat.ofDigitChars_ten_toDigits, Option.bind_eq_bind,
    Option.bind_some]

/-- A header is one line. -/
theorem newline_not_mem_header (index : Nat) (o : Origin) : '\n' ∉ header index o := by
  rw [header_eq]
  intro h
  rcases List.mem_append.mp h with h | h
  · exact absurd h (by decide)
  rcases List.mem_append.mp h with h | h
  · exact absurd (isDigit_of_mem_toDigits h) (by decide)
  · exact absurd h (by cases o <;> decide)

/-! ## The printed lines -/

/-- A bare line has no line end of any kind in it. -/
theorem not_isLineEnd_of_mem_bareLine {t l : Text} (h : l ∈ bareLines t) {c : Char}
    (hc : c ∈ l) :
    isLineEnd c = false := by
  obtain ⟨line, -, rfl⟩ := List.mem_map.mp h
  have hkept := List.mem_takeWhile_imp hc
  rwa [Bool.not_eq_true'] at hkept

/-- The printed lines of a block behind its header. -/
def markedLines (b : DiffBlock) : List Text :=
  (bareLines b.value).map (lineMark b.origin ++ ·)

theorem not_isHeading_of_mem_markedLines {b : DiffBlock} :
    ∀ l ∈ markedLines b, isHeading l = false := by
  intro l hl
  obtain ⟨m, -, rfl⟩ := List.mem_map.mp hl
  exact not_isHeading_marked b.origin m

/-- The lines of a block are read back behind their marks. -/
theorem map_drop_markedLines (b : DiffBlock) :
    (markedLines b).map (·.drop 2) = bareLines b.value := by
  unfold markedLines
  rw [List.map_map]
  exact List.map_id'' (fun l => drop_marked b.origin l) _

theorem newline_not_mem_printedLinesFrom {start : Nat} {diff : List DiffBlock} :
    ∀ l ∈ printedLinesFrom start diff, '\n' ∉ l := by
  induction diff generalizing start with
  | nil => exact fun l hl => absurd hl List.not_mem_nil
  | cons b bs ih =>
    intro l hl
    rcases List.mem_append.mp hl with hl | hl
    · rcases List.mem_cons.mp hl with rfl | hl
      · exact newline_not_mem_header start b.origin
      · obtain ⟨m, hm, rfl⟩ := List.mem_map.mp hl
        intro hmem
        rcases List.mem_append.mp hmem with hmark | hline
        · exact absurd hmark (by cases b.origin <;> decide)
        · exact absurd (not_isLineEnd_of_mem_bareLine hm hline) (by decide)
    · exact ih l hl

/-- Printed lines start with a header, so the first section has one. -/
theorem isHeading_head_printedLinesFrom {start : Nat} {diff : List DiffBlock} :
    ∀ l ∈ (printedLinesFrom start diff).head?, isHeading l = true := by
  intro l hl
  cases diff with
  | nil => exact nomatch hl
  | cons b bs =>
    cases hl
    exact isHeading_header start b.origin

/-- Cut at the headers, the printed lines are the blocks. -/
theorem sections_printedLinesFrom (start : Nat) (diff : List DiffBlock) :
    sections (printedLinesFrom start diff) =
      diff.mapIdx fun k b => (header (start + k) b.origin, markedLines b) := by
  induction diff generalizing start with
  | nil => rfl
  | cons b bs ih =>
    have hsplit : printedLinesFrom start (b :: bs) =
        header start b.origin :: (markedLines b ++ printedLinesFrom (start + 1) bs) := rfl
    rw [hsplit, sections, isHeading_header, if_pos rfl,
      takeWhile_append_heading not_isHeading_of_mem_markedLines
        isHeading_head_printedLinesFrom,
      sections_append not_isHeading_of_mem_markedLines, ih, List.mapIdx_cons]
    simp only [Nat.add_zero, Nat.add_assoc, Nat.add_comm 1]

/-- A printed text is cut into its lines again. The diff without blocks is one empty line,
and no section. -/
theorem sections_print (diff : List DiffBlock) :
    sections ((print diff).splitOn '\n') =
      diff.mapIdx fun k b => (header k b.origin, markedLines b) := by
  have hsections := sections_printedLinesFrom 0 diff
  simp only [Nat.zero_add] at hsections
  rw [← hsections]
  cases diff with
  | nil => rfl
  | cons b bs =>
    have hsome : printedLinesFrom 0 (b :: bs) ≠ [] := List.cons_ne_nil _ _
    rw [print, List.splitOn_intercalate '\n' newline_not_mem_printedLinesFrom hsome]

/-! ## Reading -/

theorem map_mapIdx {α β γ : Type} (l : List α) (f : Nat → α → β) (g : β → γ) :
    (l.mapIdx f).map g = l.mapIdx fun i a => g (f i a) :=
  List.ext_getElem (by simp) (by simp)

/-- The headers of a printed text, and the lines under each without their marks. -/
def readPrinted (t : Text) : List (Option (Nat × Origin) × List Text) :=
  (sections (t.splitOn '\n')).map fun s => (readHeader? s.1, s.2.map (·.drop 2))

/-- What is printed is read back as the number, the origin and the bare
lines of each block. -/
theorem readPrinted_print (diff : List DiffBlock) :
    readPrinted (print diff) =
      diff.mapIdx fun k b => (some (k, b.origin), bareLines b.value) := by
  rw [readPrinted, sections_print, map_mapIdx]
  simp only [readHeader?_header, map_drop_markedLines]

/-- What a printed diff shows of a block. -/
def shown (b : DiffBlock) : Origin × List Text := (b.origin, bareLines b.value)

/-- Printing shows no more of a block than its origin and its bare lines. -/
theorem printedLinesFrom_congr {diff diff' : List DiffBlock}
    (h : diff.map shown = diff'.map shown) (start : Nat) :
    printedLinesFrom start diff = printedLinesFrom start diff' := by
  induction diff generalizing diff' start with
  | nil => rw [List.map_eq_nil_iff.mp h.symm]
  | cons b bs ih =>
    cases diff' with
    | nil => exact nomatch h
    | cons b' bs' =>
      obtain ⟨hb, hbs⟩ := List.cons.inj h
      obtain ⟨horigin, hlines⟩ := Prod.mk.inj hb
      rw [printedLinesFrom, printedLinesFrom, blockLines, blockLines, horigin,
        hlines, ih hbs]

/-- All that printing shows can be read back. -/
theorem map_shown_eq (diff : List DiffBlock) :
    diff.map shown =
      (readPrinted (print diff)).map fun s => ((s.1.map (·.2)).getD .merged, s.2) := by
  rw [readPrinted_print, map_mapIdx]
  exact List.ext_getElem (by simp) (by simp [shown])

/-- A printed diff can be read. Of its lines those that start like a header are the
headers, with the numbers and the origins of the blocks. Between them stand the lines of
each block, all of them behind the mark of its origin, and no two origins have a mark in
common. So the number, the origin and the lines of every block are read back, and diffs
are printed alike exactly if they have the same origins and lines. -/
theorem print_readable (diff : List DiffBlock) :
    let printed := (print diff).splitOn '\n'
    printed.filter isHeading =
      diff.mapIdx (fun k b => s!"@@ {k} {b.origin.name} @@".toList) ∧
      sections printed = diff.mapIdx (fun k b =>
        (header k b.origin, (bareLines b.value).map (lineMark b.origin ++ ·))) ∧
      readPrinted (print diff) =
        diff.mapIdx (fun k b => (some (k, b.origin), bareLines b.value)) ∧
      (∀ o o' l l', lineMark o ++ l = lineMark o' ++ l' ↔ o = o' ∧ l = l') ∧
      ∀ diff', print diff' = print diff ↔ diff'.map shown = diff.map shown := by
  intro printed
  have hsections : sections printed = diff.mapIdx fun k b =>
      (header k b.origin, markedLines b) := sections_print diff
  refine ⟨?_, hsections, readPrinted_print diff, fun o o' l l' => lineMark_append_inj,
    fun diff' => ⟨fun h => ?_, ?_⟩⟩
  · rw [← map_fst_sections, hsections, map_mapIdx]
    rfl
  · rw [map_shown_eq, map_shown_eq, h]
  · intro h
    rw [print, print, printedLinesFrom_congr h]

end CodeWeave.Diff
