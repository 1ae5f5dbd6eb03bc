import CodeWeave.Proofs.Diff.Canonical
import Mathlib.Data.List.MinMax
import Mathlib.Order.Nat

/-!
# What two texts share

The first run that an alignment looks for is the longest one, and it becomes a merged
block as a whole: the alignment goes on in front of it and behind it, and joins
nothing to it. So the longest merged block of a diff is the longest run of lines that
the two texts share:

> `exists_merged_of_run`: the longest common run is a merged block.

> `lines_of_merged`: a merged block is a common run.

> `between_self`: a text against itself is one merged block.

> `longest_run_merged`: so no common run is longer than the longest merged block, and
> the diff has merged blocks, or only merged blocks, exactly if the texts share a line,
> or are the same.
-/

namespace CodeWeave.Diff

open Text

/-- How many lines the longest merged block has, none if no block is merged. -/
def longestMerged (diff : List DiffBlock) : Nat :=
  ((diff.filter (·.origin = .merged)).map fun b => (lines b.value).length).foldr max 0

/-- No merged block is longer than the longest one. -/
theorem le_longestMerged {diff : List DiffBlock} {b : DiffBlock} (hb : b ∈ diff)
    (hmerged : b.origin = .merged) : (lines b.value).length ≤ longestMerged diff := by
  have hmem : b ∈ diff.filter (·.origin = .merged) :=
    List.mem_filter.mpr ⟨hb, decide_eq_true hmerged⟩
  exact List.le_max_of_le' 0 (List.mem_map_of_mem hmem) (Nat.le_refl _)

/-- A bound on all merged blocks is one on the longest. -/
theorem longestMerged_le {diff : List DiffBlock} {n : Nat}
    (h : ∀ b ∈ diff, b.origin = .merged → (lines b.value).length ≤ n) :
    longestMerged diff ≤ n := by
  refine List.max_le_of_forall_le _ n fun m hm => ?_
  obtain ⟨b, hb, rfl⟩ := List.mem_map.mp hm
  obtain ⟨hb, hmerged⟩ := List.mem_filter.mp hb
  exact h b hb (of_decide_eq_true hmerged)

/-! ## Merged blocks and common runs -/

section Runs

variable {before after : Text} {b : DiffBlock}

/-- A merged block is a run of lines that both texts have. -/
theorem lines_of_merged (h : b ∈ between before after) (hmerged : b.origin = .merged) :
    lines b.value <:+: lines before ∧ lines b.value <:+: lines after := by
  obtain ⟨k, hk, hb⟩ := List.mem_flatMap.mp h
  obtain ⟨hbefore, hafter⟩ := infix_of_mem_align hk
  cases k with
  | kept run =>
    have hlines : lines run.flatten = run := lines_flatten_stretch hbefore
    rw [(mem_blockOf_iff.mp hb).2, hlines]
    exact ⟨hbefore, hafter⟩
  | changed removed added =>
    -- the blocks of a changed stretch belong to one side
    cases List.mem_append.mp hb with
    | inl hb =>
      rw [(mem_blockOf_iff.mp hb).2] at hmerged
      exact nomatch hmerged
    | inr hb =>
      rw [(mem_blockOf_iff.mp hb).2] at hmerged
      exact nomatch hmerged

theorem runOf_infix_left {α : Type} [DecidableEq α] (xs ys : List α) :
    runOf xs ys <:+: xs :=
  ⟨_, _, (List.append_assoc ..).trans (take_run_drop xs _ _)⟩

theorem runOf_infix_right {α : Type} [DecidableEq α] (xs ys : List α) :
    runOf xs ys <:+: ys := by
  unfold runOf
  rw [longestRun_common]
  exact ⟨_, _, (List.append_assoc ..).trans (take_run_drop ys _ _)⟩

/-- The longest common run, if there is one, is kept whole by the alignment. -/
theorem kept_runOf_mem_align {α : Type} [DecidableEq α] {xs ys : List α}
    (h : 0 < (longestRun xs ys).size) : Hunk.kept (runOf xs ys) ∈ align xs ys := by
  rw [align, if_pos h]
  exact List.mem_append_right _ List.mem_cons_self

/-- The longest common run is a merged block. -/
theorem exists_merged_of_run (h : 0 < (longestRun (lines before) (lines after)).size) :
    ∃ b ∈ between before after, b.origin = .merged ∧ lines b.value =
      runOf (lines before) (lines after) := by
  have hne : runOf (lines before) (lines after) ≠ [] := by
    intro hnil
    rw [← length_runOf, hnil] at h
    exact Nat.lt_irrefl 0 h
  refine ⟨⟨(runOf (lines before) (lines after)).flatten, .merged⟩, ?_, rfl,
    lines_flatten_stretch (runOf_infix_left _ _)⟩
  exact List.mem_flatMap.mpr ⟨_, kept_runOf_mem_align h, mem_blockOf_iff.mpr ⟨hne, rfl⟩⟩

/-- The longest merged block is as long as the longest common run. -/
theorem longestMerged_between (before after : Text) :
    longestMerged (between before after) =
      (longestRun (lines before) (lines after)).size := by
  refine Nat.le_antisymm (longestMerged_le fun b hb hmerged => ?_) ?_
  · obtain ⟨hbefore, hafter⟩ := lines_of_merged hb hmerged
    exact length_le_longestRun hbefore hafter
  · cases hsize : (longestRun (lines before) (lines after)).size with
    | zero => exact Nat.zero_le _
    | succ n =>
      have hpos : 0 < (longestRun (lines before) (lines after)).size := by omega
      obtain ⟨b, hb, hmerged, hlines⟩ := exists_merged_of_run hpos
      have hle := le_longestMerged hb hmerged
      rwa [hlines, length_runOf, hsize] at hle

/-- There is a merged block exactly if the texts share a line. -/
theorem exists_merged_iff (before after : Text) :
    (∃ b ∈ between before after, b.origin = .merged) ↔
      ∃ l, l ∈ lines before ∧ l ∈ lines after := by
  constructor
  · intro h
    obtain ⟨b, hb, hmerged⟩ := h
    obtain ⟨hbefore, hafter⟩ := lines_of_merged hb hmerged
    obtain ⟨l, ls, hl⟩ := List.exists_cons_of_ne_nil (lines_of_block hb).1
    have hmem : l ∈ lines b.value := hl ▸ List.mem_cons_self
    exact ⟨l, hbefore.subset hmem, hafter.subset hmem⟩
  · intro h
    obtain ⟨l, hbefore, hafter⟩ := h
    have hshared : 1 ≤ (longestRun (lines before) (lines after)).size :=
      length_le_longestRun ((List.singleton_infix_iff l _).mpr hbefore)
        ((List.singleton_infix_iff l _).mpr hafter)
    obtain ⟨b, hb, hmerged, -⟩ := exists_merged_of_run hshared
    exact ⟨b, hb, hmerged⟩

end Runs

/-! ## A text against itself -/

/-- The longest common run of a list and itself is the whole of it. -/
theorem longestRun_self {α : Type} [DecidableEq α] {xs : List α} (h : xs ≠ []) :
    longestRun xs xs = ⟨0, 0, xs.length⟩ := by
  have hlength : xs.length ≤ (longestRun xs xs).size :=
    length_le_longestRun List.infix_rfl List.infix_rfl
  have hbefore := longestRun_le xs xs
  have hpos : 0 < xs.length := List.length_pos_iff.mpr h
  -- the run has its full length in the second list too, so it starts with it
  have hafter : (runOf xs xs).length =
      ((xs.drop (longestRun xs xs).after).take (longestRun xs xs).size).length :=
    congrArg List.length (longestRun_common xs xs)
  rw [length_runOf, List.length_take, List.length_drop] at hafter
  rcases hrun : longestRun xs xs with ⟨i, j, n⟩
  rw [hrun] at hlength hbefore hafter
  simp only at hlength hbefore hafter
  have hi : i = 0 := by omega
  have hj : j = 0 := by omega
  have hn : n = xs.length := by omega
  rw [hi, hj, hn]

theorem align_nil : align ([] : List Text) [] = [.changed [] []] := by
  have hnone : ¬ 0 < (longestRun ([] : List Text) []).size := Nat.lt_irrefl 0
  rw [align, if_neg hnone]

/-- A text against itself is one merged block, or none if it is empty. -/
theorem between_self (t : Text) :
    between t t = if t = [] then [] else [⟨t, .merged⟩] := by
  by_cases ht : t = []
  · rw [if_pos ht, ht]
    show (align ([] : List Text) []).flatMap Hunk.blocks = []
    rw [align_nil]
    rfl
  · have hlines : lines t ≠ [] := fun h => ht (lines_eq_nil_iff.mp h)
    have halign : align (lines t) (lines t) =
        [.changed [] [], .kept (lines t), .changed [] []] := by
      rw [align, longestRun_self hlines, if_pos (List.length_pos_iff.mpr hlines)]
      simp only [List.take_zero, List.drop_zero, Nat.zero_add, List.take_length,
        List.drop_length, align_nil]
      rfl
    have hblocks : (lines t).flatten = t := flatten_lines t
    unfold between
    rw [halign, if_neg ht]
    show blockOf .merged (lines t) ++ [] = _
    rw [List.append_nil, blockOf_of_ne_nil .merged hlines, hblocks]

/-- There are only merged blocks exactly if the texts are equal. -/
theorem forall_merged_iff (before after : Text) :
    (∀ b ∈ between before after, b.origin = .merged) ↔ before = after := by
  constructor
  · intro h
    -- with merged blocks only, either side is the text of all blocks
    have hwithout : ∀ o, o ≠ .merged →
        without o (between before after) = (between before after).flatMap (·.value) := by
      intro o ho
      unfold without
      rw [List.filter_eq_self.mpr]
      intro b hb
      rw [h b hb]
      exact bne_iff_ne.mpr ho.symm
    rw [← without_local_between before after, hwithout .local (by decide), ← hwithout
      .cloud (by decide),
      without_cloud_between]
  · intro h b hb
    rw [h, between_self] at hb
    by_cases hafter : after = []
    · rw [if_pos hafter] at hb
      exact absurd hb List.not_mem_nil
    · rw [if_neg hafter, List.mem_singleton] at hb
      rw [hb]

/-! ## The main result -/

/-- The longest merged block of a diff is the longest run of lines that occurs in both
texts. So there is a merged block exactly if the texts share a line, and there are no
others exactly if the texts are the same. The diff of a text and itself is the text as one
block, or nothing if it is empty. -/
theorem longest_run_merged (before after : Text) :
    let diff := between before after
    (∀ run, run <:+: lines before → run <:+: lines after →
      run.length ≤ longestMerged diff) ∧
      (∃ run, run <:+: lines before ∧ run <:+: lines after ∧
        run.length = longestMerged diff) ∧
      ((∃ b ∈ diff, b.origin = .merged) ↔ ∃ l, l ∈ lines before ∧ l ∈ lines after) ∧
      ((∀ b ∈ diff, b.origin ≠ .cloud ∧ b.origin ≠ .local) ↔ before = after) ∧
      between after after = if after = [] then [] else [⟨after, .merged⟩] := by
  intro diff
  have hlongest : longestMerged diff = _ := longestMerged_between before after
  refine ⟨fun run hbefore hafter => ?_, ⟨_, runOf_infix_left _ _,
    runOf_infix_right _ _, ?_⟩,
    exists_merged_iff before after, ?_, between_self after⟩
  · rw [hlongest]
    exact length_le_longestRun hbefore hafter
  · rw [hlongest, length_runOf]
  · rw [← forall_merged_iff]
    have hother : ∀ o : Origin, o ≠ .cloud ∧ o ≠ .local ↔ o = .merged := by
      intro o
      cases o <;> decide
    exact forall₂_congr fun b _ => hother b.origin

/-- A common run that is not merged itself, since another one of its length
starts earlier. -/
theorem longest_run_merged_repeated_lines :
    let before := "a\nb\na\na\n".toList
    let after := "a\na\nb\nb\na\n".toList
    let run := ["a\n".toList, "a\n".toList]
    (run <:+: lines before ∧ run <:+: lines after) ∧
      run.length ≤ longestMerged (between before after) := by
  intro before after run
  have hbefore : run <:+: lines before := by decide +kernel
  have hafter : run <:+: lines after := by decide +kernel
  exact ⟨⟨hbefore, hafter⟩, (longest_run_merged before after).1 run hbefore hafter⟩

end CodeWeave.Diff
