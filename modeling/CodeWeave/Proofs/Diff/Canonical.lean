import CodeWeave.Proofs.Diff.LongestRun
import CodeWeave.Proofs.Diff.Lossless
import CodeWeave.Proofs.Text.Lines
import Mathlib.Data.List.Chain

/-!
# The shape of a diff

An alignment may have stretches without any lines, between runs that touch and at the
ends of the texts, and these make no blocks. So two merged blocks could stand next to
each other only where two common runs touch in both texts, and then they would have
been one longer run:

> `head?_of_merged`, `getLast?_of_merged`: if an alignment starts or ends with a merged
> block, then the two lists start or end alike.

> `isChain_blocks_align`: neighbours have different origins, and a removed
block comes first.

> `blocks_canonical`: so every block has text, and between merged blocks there is at most
> one removed block and behind it at most one added block.
-/

namespace CodeWeave

open Text

/-- Whether a block of the first origin may stand right in front of one of the second:
two blocks with the same origin would be one, and what was removed comes before what was
added in its place. -/
def Origin.MayPrecede (o p : Origin) : Prop := o ≠ p ∧ ¬ (o = .local ∧ p = .cloud)

instance : DecidableRel Origin.MayPrecede := fun o p =>
  inferInstanceAs (Decidable (o ≠ p ∧ ¬ (o = .local ∧ p = .cloud)))

namespace Diff

/-! ## The blocks of a stretch -/

theorem blockOf_of_ne_nil (o : Origin) {ls : List Text} (h : ls ≠ []) :
    blockOf o ls = [⟨ls.flatten, o⟩] := if_neg fun hnil => h (List.isEmpty_iff.mp hnil)

theorem mem_blockOf_iff {o : Origin} {ls : List Text} {b : DiffBlock} :
    b ∈ blockOf o ls ↔ ls ≠ [] ∧ b = ⟨ls.flatten, o⟩ := by
  by_cases hls : ls = []
  · rw [hls]
    exact iff_of_false List.not_mem_nil fun h => h.1 rfl
  · rw [blockOf_of_ne_nil o hls, List.mem_singleton]
    exact (and_iff_right hls).symm

/-- A merged block is made by a run that both lists have. -/
theorem Hunk.of_merged {k : Hunk Text} {b : DiffBlock} (h : b ∈ k.blocks)
    (hb : b.origin = .merged) :
    k.before ≠ [] ∧ k.before = k.after := by
  cases k with
  | kept run => exact ⟨(mem_blockOf_iff.mp h).1, rfl⟩
  | changed removed added =>
    cases List.mem_append.mp h with
    | inl h =>
      rw [(mem_blockOf_iff.mp h).2] at hb
      exact nomatch hb
    | inr h =>
      rw [(mem_blockOf_iff.mp h).2] at hb
      exact nomatch hb

/-- A stretch without blocks has no lines. -/
theorem Hunk.of_no_blocks {k : Hunk Text} (h : k.blocks = []) :
    k.before = [] ∧ k.after = [] := by
  have hlines : ∀ {o : Origin} {ls : List Text}, blockOf o ls = [] → ls = [] := by
    intro o ls hnil
    by_contra hls
    rw [blockOf_of_ne_nil o hls] at hnil
    exact nomatch hnil
  cases k with
  | kept run => exact ⟨hlines h, hlines h⟩
  | changed removed added =>
    obtain ⟨hremoved, hadded⟩ := List.append_eq_nil_iff.mp h
    exact ⟨hlines hremoved, hlines hadded⟩

/-! ## Merged blocks at the ends -/

/-- If the first block of an alignment is merged, the lists start alike. -/
theorem head?_of_merged {ks : List (Hunk Text)} {b : DiffBlock}
    (h : (ks.flatMap Hunk.blocks).head? = some b) (hb : b.origin = .merged) :
    ∃ x, (ks.flatMap Hunk.before).head? = some x ∧
      (ks.flatMap Hunk.after).head? = some x := by
  induction ks with
  | nil => exact nomatch h
  | cons k ks ih =>
    rw [List.flatMap_cons] at h
    rw [List.flatMap_cons, List.flatMap_cons]
    by_cases hk : k.blocks = []
    · obtain ⟨hbefore, hafter⟩ := Hunk.of_no_blocks hk
      rw [hk] at h
      rw [hbefore, hafter]
      exact ih h
    · rw [List.head?_append_of_ne_nil _ hk] at h
      obtain ⟨hne, hsame⟩ := Hunk.of_merged (List.mem_of_head? h) hb
      rw [← hsame, List.head?_append_of_ne_nil _ hne, List.head?_append_of_ne_nil _ hne]
      exact ⟨_, List.head?_eq_some_head hne, List.head?_eq_some_head hne⟩

/-- If the last block of an alignment is merged, the lists end alike. -/
theorem getLast?_of_merged {ks : List (Hunk Text)} {b : DiffBlock}
    (h : (ks.flatMap Hunk.blocks).getLast? = some b) (hb : b.origin = .merged) :
    ∃ x, (ks.flatMap Hunk.before).getLast? = some x ∧
      (ks.flatMap Hunk.after).getLast? = some x := by
  induction ks using List.reverseRecOn with
  | nil => exact nomatch h
  | append_singleton ks k ih =>
    rw [List.flatMap_append, List.flatMap_singleton] at h
    rw [List.flatMap_append, List.flatMap_append, List.flatMap_singleton,
      List.flatMap_singleton]
    by_cases hk : k.blocks = []
    · obtain ⟨hbefore, hafter⟩ := Hunk.of_no_blocks hk
      rw [hk, List.append_nil] at h
      rw [hbefore, hafter, List.append_nil, List.append_nil]
      exact ih h
    · rw [List.getLast?_append_of_ne_nil _ hk] at h
      obtain ⟨hne, hsame⟩ := Hunk.of_merged (List.mem_of_getLast? h) hb
      rw [← hsame, List.getLast?_append_of_ne_nil _ hne,
        List.getLast?_append_of_ne_nil _ hne]
      exact ⟨_, List.getLast?_eq_some_getLast hne, List.getLast?_eq_some_getLast hne⟩

/-! ## Neighbours -/

theorem isChain_blockOf (o : Origin) (ls : List Text) :
    (blockOf o ls).IsChain fun b b' => b.origin.MayPrecede b'.origin := by
  unfold blockOf
  split
  · exact .nil
  · exact .singleton _

theorem isChain_changed (removed added : List Text) :
    (Hunk.changed removed added).blocks.IsChain fun b b' =>
      b.origin.MayPrecede b'.origin := by
  refine (isChain_blockOf .cloud removed).append (isChain_blockOf .local added) ?_
  intro b hb b' hb'
  rw [(mem_blockOf_iff.mp (List.mem_of_getLast? hb)).2,
    (mem_blockOf_iff.mp (List.mem_of_head? hb')).2]
  show Origin.MayPrecede .cloud .local
  decide

/-- What is aligned in front of the longest run does not end with a merged block. -/
theorem not_merged_before_run {xs ys : List Text} {b : DiffBlock}
    (h :
      ((align (xs.take (longestRun xs ys).before)
        (ys.take (longestRun xs ys).after)).flatMap Hunk.blocks).getLast? = some b) :
    b.origin ≠ .merged := by
  intro hb
  obtain ⟨x, hx, hy⟩ := getLast?_of_merged h hb
  rw [align_before] at hx
  rw [align_after] at hy
  exact getLast?_before_run hx hy

/-- What is aligned behind the longest run does not start with a merged block. -/
theorem not_merged_behind_run {xs ys : List Text} {b : DiffBlock}
    (h : ((align (xs.drop ((longestRun xs ys).before + (longestRun xs ys).size))
      (ys.drop ((longestRun xs ys).after + (longestRun xs ys).size))).flatMap
      Hunk.blocks).head? = some b) : b.origin ≠ .merged := by
  intro hb
  obtain ⟨x, hx, hy⟩ := head?_of_merged h hb
  rw [align_before] at hx
  rw [align_after] at hy
  exact head?_behind_run hx hy

/-- In an alignment no two runs touch, and what was removed comes first. -/
theorem isChain_blocks_align (xs ys : List Text) :
    ((align xs ys).flatMap Hunk.blocks).IsChain fun b b' =>
      b.origin.MayPrecede b'.origin := by
  induction xs, ys using align.induct with
  | case1 xs ys r hpos ihleft ihright =>
    have hrun : Hunk.blocks (.kept (runOf xs ys)) =
        [⟨(runOf xs ys).flatten, .merged⟩] := by
      refine blockOf_of_ne_nil .merged fun hnil => ?_
      have hlength := length_runOf xs ys
      rw [hnil] at hlength
      exact absurd hlength.symm (Nat.ne_of_gt hpos)
    rw [align, if_pos hpos, List.flatMap_append, List.flatMap_cons]
    show (_ ++ (Hunk.blocks (.kept (runOf xs ys)) ++ _)).IsChain _
    rw [hrun]
    refine ihleft.append (List.IsChain.append (.singleton _) ihright ?_) ?_
    · intro b hb b' hb'
      obtain rfl : _ = b := Option.some.inj hb
      exact ⟨Ne.symm (not_merged_behind_run hb'), fun h => Origin.noConfusion h.1⟩
    · intro b hb b' hb'
      obtain rfl : _ = b' := Option.some.inj hb'
      exact ⟨not_merged_before_run hb, fun h => Origin.noConfusion h.2⟩
  | case2 xs ys r hpos =>
    rw [align, if_neg hpos, List.flatMap_singleton]
    exact isChain_changed xs ys

/-! ## Blocks are whole lines -/

/-- A stretch of an alignment is a stretch of both lists. -/
theorem infix_of_mem_align {xs ys : List Text} {k : Hunk Text} (h : k ∈ align xs ys) :
    k.before <:+: xs ∧ k.after <:+: ys := by
  constructor
  · have hstretch := List.infix_of_mem_flatten (List.mem_map_of_mem (f := Hunk.before) h)
    rwa [← List.flatMap_def, align_before] at hstretch
  · have hstretch := List.infix_of_mem_flatten (List.mem_map_of_mem (f := Hunk.after) h)
    rwa [← List.flatMap_def, align_after] at hstretch

/-- A block has lines, and they follow each other in one of the texts. -/
theorem lines_of_block {before after : Text} {b : DiffBlock}
    (h : b ∈ between before after) :
    lines b.value ≠ [] ∧
      (lines b.value <:+: lines before ∨ lines b.value <:+: lines after) := by
  obtain ⟨k, hk, hb⟩ := List.mem_flatMap.mp h
  obtain ⟨hbefore, hafter⟩ := infix_of_mem_align hk
  have hlines : ∀ {o : Origin} {ls : List Text} {t : Text}, b ∈ blockOf o ls →
      ls <:+: lines t →
      lines b.value = ls ∧ ls ≠ [] := by
    intro o ls t hmem hls
    obtain ⟨hne, rfl⟩ := mem_blockOf_iff.mp hmem
    exact ⟨lines_flatten_stretch hls, hne⟩
  cases k with
  | kept run =>
    obtain ⟨heq, hne⟩ := hlines hb hbefore
    rw [heq]
    exact ⟨hne, Or.inl hbefore⟩
  | changed removed added =>
    cases List.mem_append.mp hb with
    | inl hb =>
      obtain ⟨heq, hne⟩ := hlines hb hbefore
      rw [heq]
      exact ⟨hne, Or.inl hbefore⟩
    | inr hb =>
      obtain ⟨heq, hne⟩ := hlines hb hafter
      rw [heq]
      exact ⟨hne, Or.inr hafter⟩

/-- Every block has text. -/
theorem value_ne_nil {before after : Text} {b : DiffBlock}
    (h : b ∈ between before after) :
    b.value ≠ [] := fun hnil => (lines_of_block h).1 (lines_eq_nil_iff.mpr hnil)

/-! ## The main result -/

/-- Only a merged block can follow an added one. -/
theorem eq_nil_behind_local {os : List Origin}
    (h : (.local :: os).IsChain Origin.MayPrecede) (hmerged : .merged ∉ os) :
    os = [] := by
  cases os with
  | nil => rfl
  | cons o os =>
    have hfollows : Origin.MayPrecede .local o := h.rel
    have ho : o ≠ .merged := fun heq => hmerged (heq ▸ List.mem_cons_self)
    cases o with
    | cloud => exact absurd hfollows (by decide)
    | «local» => exact absurd hfollows (by decide)
    | merged => exact absurd rfl ho

/-- Between merged blocks there is room for one removed block and one added
block behind it. -/
theorem sublist_of_no_merged {os : List Origin} (h : os.IsChain Origin.MayPrecede)
    (hmerged : .merged ∉ os) : os.Sublist [.cloud, .local] := by
  cases os with
  | nil => exact List.nil_sublist _
  | cons o os =>
    obtain ⟨ho, hos⟩ := List.ne_and_not_mem_of_not_mem_cons hmerged
    cases o with
    | merged => exact absurd rfl ho
    | «local» =>
      rw [eq_nil_behind_local h hos]
      decide
    | cloud =>
      cases os with
      | nil => decide
      | cons p ps =>
        have hfollows : Origin.MayPrecede .cloud p := h.rel
        obtain ⟨hp, hps⟩ := List.ne_and_not_mem_of_not_mem_cons hos
        cases p with
        | merged => exact absurd rfl hp
        | cloud => exact absurd hfollows (by decide)
        | «local» =>
          rw [eq_nil_behind_local h.tail hps]

/-- A diff has its blocks in one shape: each has text, neighbours have different origins
and an added block does not stand right in front of a removed one. So what stands between
two merged blocks, or before the first or behind the last of them, is at most one removed
block and then at most one added block. -/
theorem blocks_canonical (before after : Text) :
    let diff := between before after
    (∀ b ∈ diff, b.value ≠ []) ∧
      (diff.IsChain fun b b' => b.origin ≠ b'.origin ∧
        ¬ (b.origin = .local ∧ b'.origin = .cloud)) ∧
      ∀ front gap back, diff = front ++ gap ++ back → (∀ b ∈ gap, b.origin ≠ .merged) →
        (gap.map DiffBlock.origin).Sublist [.cloud, .local] := by
  intro diff
  have hchain : diff.IsChain fun b b' => b.origin.MayPrecede b'.origin :=
    isChain_blocks_align (lines before) (lines after)
  refine ⟨fun b hb => value_ne_nil hb, hchain, fun front gap back hdiff hgap => ?_⟩
  rw [hdiff] at hchain
  refine sublist_of_no_merged ((List.isChain_map _).mpr
    hchain.left_of_append.right_of_append) ?_
  intro hmem
  obtain ⟨b, hb, horigin⟩ := List.mem_map.mp hmem
  exact hgap b hb horigin

/-- An added line between two merged blocks and a replaced line behind
the last of them. -/
theorem blocks_canonical_replaced_line :
    let diff := between "a\nb\nb\nc\n".toList "a\nx\nb\nb\nd".toList
    let gap : List DiffBlock := [⟨"c\n".toList, .cloud⟩, ⟨"d".toList, .local⟩]
    diff = [⟨"a\n".toList, .merged⟩, ⟨"x\n".toList, .local⟩,
      ⟨"b\nb\n".toList, .merged⟩] ++ gap ++ [] ∧
      (∀ b ∈ gap, b.origin ≠ .merged) ∧ (gap.map DiffBlock.origin).Sublist
        [.cloud, .local] := by
  intro diff gap
  have hdiff : diff = [⟨"a\n".toList, .merged⟩, ⟨"x\n".toList, .local⟩,
      ⟨"b\nb\n".toList, .merged⟩] ++ gap ++ [] := by
    decide +kernel
  have hgap : ∀ b ∈ gap, b.origin ≠ .merged := by decide
  exact ⟨hdiff, hgap, (blocks_canonical _ _).2.2 _ gap [] hdiff hgap⟩

end Diff

end CodeWeave
