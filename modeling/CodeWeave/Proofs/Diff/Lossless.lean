import CodeWeave.Proofs.Diff.Alignment
import CodeWeave.Synthesis
import Mathlib.Data.List.Infix

/-!
# Diffs lose nothing

A diff is read on one side by leaving out the blocks of the other. Both texts come back,
whatever lines they share and however the lines end:

> `without_cloud_between`, `without_local_between`: the blocks that are not the cloud's
> are the new text, and the blocks that are not local are the old one.

> `diff_lossless`: so no pins make the new text and all pins the old one, and the diff of
> a synthesis holds both its file and the redacted cloud candidate.
-/

namespace CodeWeave.Diff

open Text

/-! ## One side of a diff -/

/-- The text of the blocks whose origin is not `o`. -/
def without (o : Origin) (diff : List DiffBlock) : Text :=
  (diff.filter fun b => b.origin != o).flatMap (·.value)

theorem without_append (o : Origin) (ds es : List DiffBlock) :
    without o (ds ++ es) = without o ds ++ without o es := by
  unfold without
  rw [List.filter_append, List.flatMap_append]

theorem without_blockOf (o origin : Origin) (ls : List Text) :
    without o (blockOf origin ls) = if origin = o then [] else ls.flatten := by
  unfold blockOf without
  by_cases hls : ls.isEmpty = true
  · rw [if_pos hls, List.isEmpty_iff.mp hls]
    split <;> rfl
  · rw [if_neg hls]
    by_cases ho : origin = o
    · simp [ho]
    · simp [ho]

/-- The blocks of a stretch hold its lines on either side. -/
theorem without_blocks (h : Hunk Text) :
    without .cloud h.blocks = h.after.flatten ∧
      without .local h.blocks = h.before.flatten := by
  cases h with
  | kept run =>
    show without .cloud (blockOf .merged run) = run.flatten ∧
      without .local (blockOf .merged run) = run.flatten
    rw [without_blockOf, without_blockOf]
    exact ⟨rfl, rfl⟩
  | changed removed added =>
    show without .cloud (blockOf .cloud removed ++ blockOf .local added) = added.flatten ∧
      without .local (blockOf .cloud removed ++ blockOf .local added) = removed.flatten
    rw [without_append, without_append, without_blockOf, without_blockOf, without_blockOf,
      without_blockOf]
    exact ⟨rfl, List.append_nil _⟩

/-- What holds of every stretch holds of the alignment: a side of the blocks is that
side of the lines. -/
theorem without_flatMap_blocks {o : Origin} {side : Hunk Text → List Text}
    (h : ∀ k : Hunk Text, without o k.blocks = (side k).flatten) (ks : List (Hunk Text)) :
    without o (ks.flatMap Hunk.blocks) = (ks.flatMap side).flatten := by
  induction ks with
  | nil => rfl
  | cons k ks ih =>
    rw [List.flatMap_cons, List.flatMap_cons, without_append, List.flatten_append, h, ih]

/-- The blocks that are not the cloud's are the new text. -/
theorem without_cloud_between (before after : Text) :
    without .cloud (between before after) = after := by
  unfold between
  rw [without_flatMap_blocks fun k => (without_blocks k).1, align_after, flatten_lines]

/-- The blocks that are not local are the old text. -/
theorem without_local_between (before after : Text) :
    without .local (between before after) = before := by
  unfold between
  rw [without_flatMap_blocks fun k => (without_blocks k).2, align_before, flatten_lines]

/-! ## Blocks -/

theorem value_of_mem_blockOf {o : Origin} {ls : List Text} {b : DiffBlock}
    (h : b ∈ blockOf o ls) :
    b.value = ls.flatten := by
  unfold blockOf at h
  split at h
  · exact absurd h List.not_mem_nil
  · rw [List.mem_singleton.mp h]

/-- What stands on one side of a stretch stands together in the text of that side. -/
theorem infix_flatten (side : Hunk Text → List Text) {ks : List (Hunk Text)}
    {k : Hunk Text} (h : k ∈ ks) : (side k).flatten <:+: (ks.flatMap side).flatten :=
  (List.infix_of_mem_flatten (List.mem_map_of_mem h)).flatten

/-- A block is a stretch of the old text or of the new one. -/
theorem infix_of_block {before after : Text} {b : DiffBlock}
    (h : b ∈ between before after) :
    b.value <:+: before ∨ b.value <:+: after := by
  obtain ⟨k, hk, hb⟩ := List.mem_flatMap.mp h
  have hbefore : k.before.flatten <:+: before := by
    have hstretch := infix_flatten Hunk.before hk
    rwa [align_before, flatten_lines] at hstretch
  have hafter : k.after.flatten <:+: after := by
    have hstretch := infix_flatten Hunk.after hk
    rwa [align_after, flatten_lines] at hstretch
  cases k with
  | kept run =>
    rw [value_of_mem_blockOf hb]
    exact Or.inl hbefore
  | changed removed added =>
    rcases List.mem_append.mp hb with hb | hb
    · rw [value_of_mem_blockOf hb]
      exact Or.inl hbefore
    · rw [value_of_mem_blockOf hb]
      exact Or.inr hafter

/-! ## Pins -/

theorem applyPins_eq_ok {diff : List DiffBlock} {pins : List Int}
    (h : ∀ p ∈ pins, 0 ≤ p ∧ p < diff.length) :
    applyPins diff pins = .ok ((kept diff pins).flatMap (·.value)) := by
  have hnone : pins.find? (fun p => p < 0 || (diff.length : Int) ≤ p) = none := by
    rw [List.find?_eq_none]
    intro p hp
    obtain ⟨hlow, hhigh⟩ := h p hp
    simp only [Bool.or_eq_true, decide_eq_true_eq]
    omega
  unfold applyPins
  rw [hnone]

/-- If the pins decide alike about all blocks, what stays is one side of the diff. -/
theorem keptFrom_eq_filter {pins : List Int} {o : Origin} {start : Nat}
    {diff : List DiffBlock} (h : ∀ i, start ≤ i → i < start + diff.length →
      ∀ origin : Origin,
      keeps (pins.contains (i : Int)) origin = (origin != o)) :
    keptFrom pins start diff = diff.filter fun b => b.origin != o := by
  induction diff generalizing start with
  | nil => rfl
  | cons b bs ih =>
    have hhead := h start (Nat.le_refl start) (by rw [List.length_cons]; omega) b.origin
    have htail : keptFrom pins (start + 1) bs = _ := ih fun i hlow hhigh =>
      h i (by omega) (by rw [List.length_cons]; omega)
    unfold keptFrom
    rw [hhead, htail, List.filter_cons]

/-- Without pins, what stays are the blocks that are not the cloud's. -/
theorem applyPins_nil (diff : List DiffBlock) :
    applyPins diff [] = .ok (without .cloud diff) := by
  rw [applyPins_eq_ok (by simp)]
  unfold kept without
  rw [keptFrom_eq_filter (o := .cloud)]
  intro i _ _ origin
  cases origin <;> rfl

/-- With all blocks pinned, what stays are the blocks that are not local. -/
theorem applyPins_all {diff : List DiffBlock} {pins : List Int}
    (h : ∀ p, p ∈ pins ↔ 0 ≤ p ∧ p < diff.length) :
    applyPins diff pins = .ok (without .local diff) := by
  rw [applyPins_eq_ok fun p hp => (h p).mp hp]
  unfold kept without
  rw [keptFrom_eq_filter (o := .local)]
  intro i _ hi origin
  have hpinned : pins.contains (i : Int) = true := by
    rw [List.contains_iff_mem, h]
    omega
  rw [hpinned]
  cases origin <;> rfl

/-! ## The main result -/

/-- Diffs lose nothing: the blocks give back the new text and the old one, so do no
pins and all pins, and the diff of a synthesis gives back its file and the redacted
cloud candidate. -/
theorem diff_lossless :
    (∀ before after : Text,
      without .cloud (between before after) = after ∧
      without .local (between before after) = before ∧
      applyPins (between before after) [] = .ok after ∧
      ∀ pins : List Int, (∀ p, p ∈ pins ↔ 0 ≤ p ∧ p < (between before after).length) →
        applyPins (between before after) pins = .ok before) ∧
    ∀ cloud loc : Option Text,
      without .cloud (synthesize cloud loc).diff = (synthesize cloud loc).code ∧
      without .local (synthesize cloud loc).diff = redact (cloud.getD []) := by
  refine ⟨fun before after => ⟨without_cloud_between before after,
    without_local_between before after, ?_, fun pins hpins => ?_⟩,
      fun cloud loc => ⟨?_, ?_⟩⟩
  · rw [applyPins_nil, without_cloud_between]
  · rw [applyPins_all hpins, without_local_between]
  · exact without_cloud_between (redact (cloud.getD [])) _
  · exact without_local_between (redact (cloud.getD [])) _

/-- A changed second line comes back from both of its blocks pinned. -/
theorem applyPins_second_line :
    (∀ p : Int, p ∈ [0, 1, 2] ↔ 0 ≤ p ∧
      p < (between "a\r\nb\n".toList "a\r\nc".toList).length) ∧
      applyPins (between "a\r\nb\n".toList "a\r\nc".toList) [0, 1, 2] =
        .ok "a\r\nb\n".toList := by
  have hlength : (between "a\r\nb\n".toList "a\r\nc".toList).length = 3 := by
    decide +kernel
  have hpins : ∀ p : Int, p ∈ [0, 1, 2] ↔
      0 ≤ p ∧ p < (between "a\r\nb\n".toList "a\r\nc".toList).length := by
    intro p
    rw [hlength]
    simp only [List.mem_cons, List.not_mem_nil, or_false]
    omega
  exact ⟨hpins, (diff_lossless.1 _ _).2.2.2 _ hpins⟩

end CodeWeave.Diff
