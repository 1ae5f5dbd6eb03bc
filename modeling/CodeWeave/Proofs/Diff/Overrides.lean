import CodeWeave.Proofs.Diff.Canonical

/-!
# Overrides and whole lines

A pinned diff is put together from blocks of both texts, so blocks can meet that never met
in one text. Most of them keep their lines then, since a block ends with a line, and only
the last line of a text may have no ending:

> `isChain_side`: in one text, a line ends between any two blocks.

> `eq_pair_of_open`: if a block does not end its last line and is not the last block,
> then it is what was removed at the very end of the old text, and the last block was
> added in its place.

> `overrides_keep_lines_iff`: the file has the lines of the kept blocks exactly if
> not both of these blocks are kept, and no carriage return at the end of a block
> meets a line feed.

`pinned_line_runs_on` has a text for each of the two ways to fail.
-/

namespace CodeWeave.Diff

open Text

/-! ## One side of a diff -/

/-- The lines of the blocks whose origin is not `o`. -/
def linesWithout (o : Origin) (diff : List DiffBlock) : List Text :=
  (diff.filter fun b => b.origin != o).flatMap fun b => lines b.value

theorem linesWithout_append (o : Origin) (ds es : List DiffBlock) :
    linesWithout o (ds ++ es) = linesWithout o ds ++ linesWithout o es := by
  unfold linesWithout
  rw [List.filter_append, List.flatMap_append]

theorem linesWithout_blockOf {ls : List Text} {t : Text} (h : ls <:+: lines t)
    (o origin : Origin) :
    linesWithout o (blockOf origin ls) = if origin = o then [] else ls := by
  by_cases hls : ls = []
  · rw [hls]
    split <;> rfl
  · have hlines := lines_flatten_stretch h
    rw [blockOf_of_ne_nil origin hls]
    unfold linesWithout
    by_cases ho : origin = o
    · simp [ho]
    · simp [ho, hlines]

/-- What holds of every stretch of an alignment holds of all its blocks. -/
theorem linesWithout_flatMap {o : Origin} (side : Hunk Text → List Text)
    {ks : List (Hunk Text)} (h : ∀ k ∈ ks, linesWithout o k.blocks = side k) :
    linesWithout o (ks.flatMap Hunk.blocks) = ks.flatMap side := by
  induction ks with
  | nil => rfl
  | cons k ks ih =>
    rw [List.flatMap_cons, List.flatMap_cons, linesWithout_append, h k List.mem_cons_self,
      ih fun k' hk' => h k' (List.mem_cons_of_mem k hk')]

/-- The blocks that are not local have the lines of the old text. -/
theorem linesWithout_local (before after : Text) :
    linesWithout .local (between before after) = lines before := by
  unfold between
  rw [linesWithout_flatMap Hunk.before, align_before]
  intro k hk
  obtain ⟨hbefore, hafter⟩ := infix_of_mem_align hk
  cases k with
  | kept run => exact linesWithout_blockOf hbefore _ _
  | changed removed added =>
    have hremoved : linesWithout .local (blockOf .cloud removed) = removed :=
      linesWithout_blockOf hbefore _ _
    have hadded : linesWithout .local (blockOf .local added) = [] :=
      linesWithout_blockOf hafter _ _
    unfold Hunk.blocks
    rw [linesWithout_append, hremoved, hadded]
    exact List.append_nil removed

/-- The blocks that are not the cloud's have the lines of the new text. -/
theorem linesWithout_cloud (before after : Text) :
    linesWithout .cloud (between before after) = lines after := by
  unfold between
  rw [linesWithout_flatMap Hunk.after, align_after]
  intro k hk
  obtain ⟨hbefore, hafter⟩ := infix_of_mem_align hk
  cases k with
  | kept run => exact linesWithout_blockOf hafter _ _
  | changed removed added =>
    have hremoved : linesWithout .cloud (blockOf .cloud removed) = [] :=
      linesWithout_blockOf hbefore _ _
    have hadded : linesWithout .cloud (blockOf .local added) = added :=
      linesWithout_blockOf hafter _ _
    unfold Hunk.blocks
    rw [linesWithout_append, hremoved, hadded]
    rfl

/-- Blocks that have the lines of one text meet where a line ends. -/
theorem isChain_of_lines {o : Origin} {diff : List DiffBlock} {t : Text}
    (hne : ∀ b ∈ diff, b.value ≠ []) (htext : without o diff = t)
    (hlines : linesWithout o diff = lines t) :
    (diff.filter fun b => b.origin != o).IsChain fun b b' =>
      EndsBetween b.value b'.value := by
  have hvalues :
      ∀ v ∈ (diff.filter fun b => b.origin != o).map DiffBlock.value, v ≠ [] := by
    intro v hv
    obtain ⟨b, hb, rfl⟩ := List.mem_map.mp hv
    exact hne b (List.mem_of_mem_filter hb)
  have hchain := (length_lines_flatten hvalues).2
  rw [← List.flatMap_def, List.flatMap_map] at hchain
  refine (List.isChain_map _).mp (hchain ?_)
  show (lines (without o diff)).length = (linesWithout o diff).length
  rw [htext, hlines]

/-- In one text, a line ends between any two blocks. -/
theorem isChain_side {o : Origin} (ho : o ≠ .merged) (before after : Text) :
    ((between before after).filter fun b => b.origin != o).IsChain
      fun b b' => EndsBetween b.value b'.value := by
  cases o with
  | merged => exact absurd rfl ho
  | cloud =>
    exact isChain_of_lines (fun b hb => value_ne_nil hb)
      (without_cloud_between before after)
      (linesWithout_cloud before after)
  | «local» =>
    exact isChain_of_lines (fun b hb => value_ne_nil hb)
      (without_local_between before after)
      (linesWithout_local before after)

/-! ## Blocks that do not end their last line -/

/-- The old text ends where the last removed block ends. -/
theorem endsLine_before_iff {before after : Text} {front : List DiffBlock}
    {b c : DiffBlock} (hdiff : between before after = front ++ [b, c])
    (hb : b.origin = .cloud) (hc : c.origin = .local) :
    EndsLine before ↔ EndsLine b.value := by
  have hne : b.value ≠ [] := value_ne_nil (by rw [hdiff]; simp)
  have hbefore : without .local front ++ b.value = before := by
    rw [← without_local_between before after, hdiff, without_append]
    simp [without, hb, hc]
  unfold EndsLine
  rw [← hbefore, List.getLast?_append_of_ne_nil _ hne]

section Open

variable {before after : Text} {front back : List DiffBlock} {b : DiffBlock}
  (hdiff : between before after = front ++ b :: back) (hopen : ¬ EndsLine b.value)

include hdiff hopen

/-- The text that such a block is in does not go on behind it. -/
theorem origin_behind_open {o : Origin} (ho : o ≠ .merged) (hb : b.origin ≠ o) :
    ∀ c ∈ back, c.origin = o := by
  intro c hc
  by_contra hco
  have hside := isChain_side ho before after
  rw [hdiff, List.filter_append, List.filter_cons_of_pos (by simpa using hb)] at hside
  have hmem : c ∈ back.filter fun b => b.origin != o :=
    List.mem_filter.mpr ⟨hc, by simpa using hco⟩
  obtain ⟨d, ds, hds⟩ := List.exists_cons_of_ne_nil (List.ne_nil_of_mem hmem)
  rw [hds] at hside
  exact hopen hside.right_of_append.rel.1

/-- Only one block can follow it: it was removed from the end of the old text, and that
block was added in its place. -/
theorem eq_pair_of_open (hback : back ≠ []) :
    b.origin = .cloud ∧ (∃ c, back = [c] ∧ c.origin = .local) ∧ ¬ EndsLine before := by
  obtain ⟨c, cs, rfl⟩ := List.exists_cons_of_ne_nil hback
  have hchain : (b :: c :: cs).IsChain fun b b' => b.origin.MayPrecede b'.origin := by
    have hall := isChain_blocks_align (lines before) (lines after)
    rw [← between, hdiff] at hall
    exact hall.right_of_append
  have hcloud : b.origin ≠ .cloud → ∀ d ∈ c :: cs, d.origin = .cloud :=
    origin_behind_open hdiff hopen (by decide)
  have hlocal : b.origin ≠ .local → ∀ d ∈ c :: cs, d.origin = .local :=
    origin_behind_open hdiff hopen (by decide)
  cases hb : b.origin with
  | merged =>
    -- both texts would go on with the next block, but it is not merged
    have hc := hcloud (by rw [hb]; decide) c List.mem_cons_self
    rw [hlocal (by rw [hb]; decide) c List.mem_cons_self] at hc
    exact nomatch hc
  | «local» =>
    have hc := hcloud (by rw [hb]; decide) c List.mem_cons_self
    exact absurd ⟨hb, hc⟩ hchain.rel.2
  | cloud =>
    have hall := hlocal (by rw [hb]; decide)
    have hc : c.origin = .local := hall c List.mem_cons_self
    obtain rfl : cs = [] := by
      cases cs with
      | nil => rfl
      | cons d ds =>
        have hd : d.origin = .local := hall d (List.mem_cons_of_mem c List.mem_cons_self)
        exact absurd (hc.trans hd.symm) hchain.tail.rel.1
    exact ⟨rfl, ⟨c, rfl, hc⟩, fun hends => hopen
      ((endsLine_before_iff hdiff hb hc).mp hends)⟩

end Open

/-! ## Kept blocks -/

theorem keptFrom_append (pins : List Int) (start : Nat) (ds es : List DiffBlock) :
    keptFrom pins start (ds ++ es) =
      keptFrom pins start ds ++ keptFrom pins (start + ds.length) es := by
  induction ds generalizing start with
  | nil => rfl
  | cons b bs ih =>
    have hstart : start + (bs.length + 1) = start + 1 + bs.length := by omega
    rw [List.cons_append, keptFrom, keptFrom, ih, List.length_cons, hstart]
    split <;> rfl

theorem mem_of_mem_keptFrom {pins : List Int} {start : Nat} {diff : List DiffBlock}
    {b : DiffBlock} (h : b ∈ keptFrom pins start diff) : b ∈ diff := by
  induction diff generalizing start with
  | nil => exact h
  | cons c cs ih =>
    unfold keptFrom at h
    split at h
    · cases List.mem_cons.mp h with
      | inl heq =>
        rw [heq]
        exact List.mem_cons_self
      | inr htail => exact List.mem_cons_of_mem c (ih htail)
    · exact List.mem_cons_of_mem c (ih h)

/-- A removed block is kept if it is pinned, and an added one if it is not. -/
theorem keptFrom_pair {pins : List Int} {start : Nat} {b c : DiffBlock}
    (hb : b.origin = .cloud) (hc : c.origin = .local) :
    keptFrom pins start [b, c] = [b, c] ↔
      (start : Int) ∈ pins ∧ ((start + 1 : Nat) : Int) ∉ pins := by
  have hfirst : keeps (pins.contains (start : Int)) b.origin = true ↔
      (start : Int) ∈ pins := by
    rw [hb]
    exact List.contains_iff_mem
  have hsecond : keeps (pins.contains ((start + 1 : Nat) : Int)) c.origin = true ↔
      ((start + 1 : Nat) : Int) ∉ pins := by
    rw [hc, ← List.contains_iff_mem, Bool.not_eq_true]
    show (!pins.contains ((start + 1 : Nat) : Int)) = true ↔ _
    rw [Bool.not_eq_true']
  rw [← hfirst, ← hsecond]
  unfold keptFrom keptFrom keptFrom
  cases keeps (pins.contains (start : Int)) b.origin <;>
    cases keeps (pins.contains ((start + 1 : Nat) : Int)) c.origin <;> simp

/-- The old text has no ending on its last line, and both the block that was removed there
and the one that was added in its place are kept. -/
def RunsOn (before after : Text) (pins : List Int) : Prop :=
  ¬ EndsLine before ∧ ∃ front b c, between before after = front ++ [b, c] ∧
    b.origin = .cloud ∧
    c.origin = .local ∧ (front.length : Int) ∈ pins ∧
      ((front.length + 1 : Nat) : Int) ∉ pins

/-- If these two are not both kept, a kept block with another one behind it
ends its last line. -/
theorem endsLine_of_kept {before after : Text} {pins : List Int}
    (hruns : ¬ RunsOn before after pins) {front back : List DiffBlock} {b : DiffBlock}
    (hdiff : between before after = front ++ b :: back)
    (hb : keeps (pins.contains (front.length : Int)) b.origin = true)
    (hback : keptFrom pins (front.length + 1) back ≠ []) : EndsLine b.value := by
  by_contra hopen
  have hne : back ≠ [] := by
    intro hnil
    rw [hnil] at hback
    exact hback rfl
  obtain ⟨hcloud, ⟨c, rfl, hlocal⟩, hend⟩ := eq_pair_of_open hdiff hopen hne
  have hc : keptFrom pins (front.length + 1) [c] = [c] := by
    unfold keptFrom keptFrom at hback ⊢
    split at hback
    next hkeeps => rw [if_pos hkeeps]
    next => exact absurd rfl hback
  have hpair : keptFrom pins front.length [b, c] = [b, c] := by
    rw [keptFrom, if_pos hb, hc]
  exact hruns ⟨hend, front, b, c, hdiff, hcloud, hlocal,
    (keptFrom_pair hcloud hlocal).mp hpair⟩

/-- So that is the only place where a kept block runs on into the next one. -/
theorem isChain_kept {before after : Text} {pins : List Int}
    (hruns : ¬ RunsOn before after pins) {front back : List DiffBlock}
    (hdiff : between before after = front ++ back)
    (hshares : (keptFrom pins front.length back).IsChain fun b b' => ¬ SharesEnding
      b.value b'.value) :
    (keptFrom pins front.length back).IsChain fun b b' =>
      EndsBetween b.value b'.value := by
  induction back generalizing front with
  | nil => exact .nil
  | cons b back ih =>
    have hnext : between before after = (front ++ [b]) ++ back := by
      rw [hdiff, List.append_assoc]
      rfl
    have hlength : (front ++ [b]).length = front.length + 1 := List.length_append
    have hrest := ih hnext
    rw [hlength] at hrest
    unfold keptFrom at hshares ⊢
    split at hshares
    next hb =>
      obtain ⟨hhead, htail⟩ := List.isChain_cons.mp hshares
      rw [if_pos hb]
      refine List.isChain_cons.mpr ⟨fun c hc => ⟨?_, hhead c hc⟩, hrest htail⟩
      refine endsLine_of_kept hruns hdiff hb fun hnil => ?_
      rw [hnil] at hc
      cases hc
    next hb =>
      rw [if_neg hb]
      exact hrest hshares

/-- A line ends between any two kept blocks exactly if none of them runs on and none
shares an ending. -/
theorem isChain_kept_iff (before after : Text) (pins : List Int) :
    ((kept (between before after) pins).IsChain fun b b' =>
      EndsBetween b.value b'.value) ↔
      ¬ RunsOn before after pins ∧
        (kept (between before after) pins).IsChain fun b b' =>
          ¬ SharesEnding b.value b'.value := by
  constructor
  · intro hchain
    refine ⟨?_, hchain.imp fun _ _ h => h.2⟩
    intro hruns
    obtain ⟨hopen, front, b, c, hdiff, hb, hc, hpins⟩ := hruns
    have hkept : kept (between before after) pins = keptFrom pins 0 front ++ [b, c] := by
      unfold kept
      rw [hdiff, keptFrom_append, Nat.zero_add, (keptFrom_pair hb hc).mpr hpins]
    rw [hkept] at hchain
    exact hopen ((endsLine_before_iff hdiff hb hc).mpr hchain.right_of_append.rel.1)
  · intro h
    have hall : between before after = [] ++ between before after := rfl
    exact isChain_kept h.1 hall h.2

/-! ## The main result -/

/-- Overrides keep source lines whole with one exception each for the end of the old text
and for carriage returns. The pinned diff is a file, and each block of the diff is whole
lines of one of the texts. The lines of the file are the lines of the kept blocks, block
after block, exactly if the last removed block does not run on into the block that was
added in its place, and no kept block that ends with a carriage return has one behind it
that starts with a line feed. Then each line of the file is a line of one of the texts. -/
theorem overrides_keep_lines_iff {before after : Text} {pins : List Int}
    (h : ∀ p ∈ pins, 0 ≤ p ∧ p < (between before after).length) :
    let diff := between before after
    let whole := ¬ RunsOn before after pins ∧
      (kept diff pins).IsChain fun b b' => ¬ SharesEnding b.value b'.value
    (∀ b ∈ diff, lines b.value <:+: lines before ∨ lines b.value <:+: lines after) ∧
      ∃ t, applyPins diff pins = .ok t ∧
        (bareLines t = ((kept diff pins).flatMap fun b => bareLines b.value) ↔ whole) ∧
        (lines t = ((kept diff pins).flatMap fun b => lines b.value) ↔ whole) ∧
        (whole → ∀ l ∈ lines t, l ∈ lines before ∨ l ∈ lines after) := by
  intro diff whole
  have hblocks :
      ∀ b ∈ diff, lines b.value <:+: lines before ∨ lines b.value <:+: lines after :=
    fun b hb => (lines_of_block hb).2
  have hvalues : ∀ v ∈ (kept diff pins).map DiffBlock.value, v ≠ [] := by
    intro v hv
    obtain ⟨b, hb, rfl⟩ := List.mem_map.mp hv
    exact value_ne_nil (mem_of_mem_keptFrom hb)
  have hwhole : ((kept diff pins).map DiffBlock.value).IsChain EndsBetween ↔ whole :=
    (List.isChain_map _).trans (isChain_kept_iff before after pins)
  have hbare := (bareLines_flatten_iff hvalues).trans hwhole
  have hlines := (lines_flatten_iff hvalues).trans hwhole
  rw [← List.flatMap_def, List.flatMap_map] at hbare hlines
  refine ⟨hblocks, _, applyPins_eq_ok h, hbare, hlines, fun hw l hl => ?_⟩
  rw [hlines.mpr hw] at hl
  obtain ⟨b, hb, hlb⟩ := List.mem_flatMap.mp hl
  cases hblocks b (mem_of_mem_keptFrom hb) with
  | inl hbefore => exact Or.inl (hbefore.subset hlb)
  | inr hafter => exact Or.inr (hafter.subset hlb)

/-- With both blocks of the last line pinned only one of them is kept, and the file
is the old text. -/
theorem overrides_keep_lines_both_pinned :
    let diff := between "a\nb".toList "a\nb\n".toList
    (∀ p ∈ ([1, 2] : List Int), 0 ≤ p ∧ p < diff.length) ∧
      ¬ RunsOn "a\nb".toList "a\nb\n".toList [1, 2] ∧
      ∃ t, applyPins diff [1, 2] = .ok t ∧
        lines t = ((kept diff [1, 2]).flatMap fun b => lines b.value) := by
  intro diff
  have hlength : diff.length = 3 := by decide +kernel
  have hpins : ∀ p ∈ ([1, 2] : List Int), 0 ≤ p ∧ p < diff.length := by
    rw [hlength]
    decide
  have hruns : ¬ RunsOn "a\nb".toList "a\nb\n".toList [1, 2] := by
    intro hruns
    obtain ⟨-, front, b, c, hdiff, -, -, -, hfree⟩ := hruns
    have hfront : diff.length = front.length + 2 :=
      (congrArg List.length hdiff).trans List.length_append
    rw [show front.length + 1 = 2 by omega] at hfree
    exact hfree (by decide)
  obtain ⟨-, t, ht, -, hlines, -⟩ := overrides_keep_lines_iff hpins
  exact ⟨hpins, hruns, t, ht, hlines.mpr ⟨hruns, by decide +kernel⟩⟩

/-- A removed last line without an ending runs on into the line that was added for it, and
makes a line of neither text. A carriage return takes the line feed of an empty line
behind it for its own. -/
theorem pinned_line_runs_on :
    let unended := between "a\nb".toList "a\nb\n".toList
    let shared := between "a\r".toList "\n".toList
    (applyPins unended [1] = .ok "a\nbb\n".toList ∧
        bareLines "a\nbb\n".toList ≠ ((kept unended [1]).flatMap fun b =>
          bareLines b.value) ∧
        "bb".toList ∉ bareLines "a\nb".toList ∧ "bb".toList ∉ bareLines "a\nb\n".toList) ∧
      applyPins shared [0] = .ok "a\r\n".toList ∧
      bareLines "a\r\n".toList ≠ ((kept shared [0]).flatMap fun b => bareLines b.value) ∧
      "a\r\n".toList ∉ lines "a\r".toList ∧ "a\r\n".toList ∉ lines "\n".toList := by
  decide +kernel

end CodeWeave.Diff
