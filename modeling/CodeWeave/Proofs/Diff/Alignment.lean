import CodeWeave.Diff.Align

/-!
# What an alignment aligns

The search for the longest common run keeps rows of numbers, and the alignment
recurses around what it finds. This file says what the rows mean and what the
recursion makes of them:

> `search_row`: a row is the list of common beginnings with each suffix.

> `longestRun_common`: the run that is found stands in both lists.

> `align_before`, `align_after`: read on either side, the alignment is the
list of that side.
-/

namespace CodeWeave.Diff

variable {α : Type}

/-- A list is what stands before a run, the run, and what stands behind it. -/
theorem take_run_drop (xs : List α) (i n : Nat) :
    xs.take i ++ ((xs.drop i).take n ++ xs.drop (i + n)) = xs := by
  rw [← List.drop_drop, List.take_append_drop, List.take_append_drop]

variable [DecidableEq α]

/-! ## Common beginnings -/

/-- How many elements two lists have in common at their start. -/
def commonLength : List α → List α → Nat
  | x :: xs, y :: ys => if x = y then commonLength xs ys + 1 else 0
  | _, _ => 0

@[simp] theorem commonLength_nil_left (ys : List α) : commonLength [] ys = 0 := rfl

@[simp] theorem commonLength_nil_right (xs : List α) : commonLength xs [] = 0 := by
  cases xs <;> rfl

theorem take_commonLength (xs ys : List α) :
    xs.take (commonLength xs ys) = ys.take (commonLength xs ys) := by
  induction xs generalizing ys with
  | nil => rw [commonLength_nil_left, List.take_zero, List.take_zero]
  | cons x xs ih =>
    cases ys with
    | nil => rw [commonLength_nil_right, List.take_zero, List.take_zero]
    | cons y ys =>
      unfold commonLength
      by_cases hxy : x = y
      · rw [if_pos hxy, hxy, List.take_succ_cons, List.take_succ_cons, ih]
      · rw [if_neg hxy, List.take_zero, List.take_zero]

/-! ## Rows -/

/-- The lengths of what `xs` has in common with each suffix of a list. -/
def commonLengths (xs : List α) : List α → List Nat
  | [] => []
  | y :: ys => commonLength xs (y :: ys) :: commonLengths xs ys

theorem headD_commonLengths (xs ys : List α) :
    (commonLengths xs ys).headD 0 = commonLength xs ys := by
  cases ys with
  | nil => rw [commonLength_nil_right]; rfl
  | cons y ys => rfl

/-- One row follows from the row before it. -/
theorem agreements_commonLengths (x : α) (xs ys : List α) :
    agreements x ys (commonLengths xs ys) = commonLengths (x :: xs) ys := by
  induction ys with
  | nil => rfl
  | cons y ys ih =>
    show (if x = y then (commonLengths xs ys).headD 0 + 1 else 0) ::
      agreements x ys (commonLengths xs ys) = _
    rw [ih, headD_commonLengths]
    rfl

/-- The row of the search is the list of common beginnings. -/
theorem search_row (xs ys : List α) : (search ys xs).1 = commonLengths xs ys := by
  induction xs with
  | nil =>
    show (ys.map fun _ => 0) = commonLengths [] ys
    induction ys with
    | nil => rfl
    | cons y ys ih => rw [List.map_cons, ih]; rfl
  | cons x xs ih =>
    show agreements x ys (search ys xs).1 = _
    rw [ih, agreements_commonLengths]

/-- A row, read at a place, tells what is in common from there on. -/
theorem getD_commonLengths (xs ys : List α) (j : Nat) :
    (commonLengths xs ys)[j]?.getD 0 = commonLength xs (ys.drop j) := by
  induction ys generalizing j with
  | nil => rw [List.drop_nil, commonLength_nil_right]; rfl
  | cons y ys ih =>
    cases j with
    | zero => rfl
    | succ j =>
      show (commonLengths xs ys)[j]?.getD 0 = _
      rw [ih, List.drop_succ_cons]

/-- The greatest number stands where it is said to stand. -/
theorem getD_firstGreatest (ns : List Nat) :
    ns[(firstGreatest ns).1]?.getD 0 = (firstGreatest ns).2 := by
  induction ns with
  | nil => rfl
  | cons n ns ih =>
    unfold firstGreatest
    by_cases hn : (firstGreatest ns).2 ≤ n
    · simp [hn]
    · simp [hn, ih]

/-! ## The run that is found -/

/-- What the search finds has the length of what the lists have in common at its place. -/
theorem search_size (xs ys : List α) :
    (search ys xs).2.size =
      commonLength (xs.drop (search ys xs).2.before)
        (ys.drop (search ys xs).2.after) := by
  induction xs with
  | nil => rfl
  | cons x xs ih =>
    have hrow : agreements x ys (search ys xs).1 = commonLengths (x :: xs) ys := by
      rw [search_row, agreements_commonLengths]
    simp only [search, hrow]
    -- the best place of this row, or the best one of the rows before
    by_cases hbest : (search ys xs).2.size ≤
      (firstGreatest (commonLengths (x :: xs) ys)).2
    · rw [if_pos hbest, List.drop_zero, ← getD_commonLengths, getD_firstGreatest]
    · rw [if_neg hbest, List.drop_succ_cons]
      exact ih

/-- The longest common run stands in both lists. -/
theorem longestRun_common (xs ys : List α) :
    (xs.drop (longestRun xs ys).before).take (longestRun xs ys).size =
      (ys.drop (longestRun xs ys).after).take (longestRun xs ys).size := by
  unfold longestRun
  rw [search_size]
  exact take_commonLength _ _

/-! ## The two sides of an alignment -/

/-- The elements of the first list in a stretch of the alignment. -/
def Hunk.before : Hunk α → List α
  | .kept run => run
  | .changed removed _ => removed

/-- The elements of the second list in a stretch of the alignment. -/
def Hunk.after : Hunk α → List α
  | .kept run => run
  | .changed _ added => added

/-- Read on the first side, the alignment is the first list. -/
theorem align_before (xs ys : List α) : (align xs ys).flatMap Hunk.before = xs := by
  induction xs, ys using align.induct with
  | case1 xs ys r hpos ihleft ihright =>
    rw [align, if_pos hpos, List.flatMap_append, List.flatMap_cons, ihleft, ihright]
    exact take_run_drop xs r.before r.size
  | case2 xs ys r hpos =>
    rw [align, if_neg hpos, List.flatMap_singleton]
    rfl

/-- Read on the second side, the alignment is the second list: a kept run is
the same there. -/
theorem align_after (xs ys : List α) : (align xs ys).flatMap Hunk.after = ys := by
  induction xs, ys using align.induct with
  | case1 xs ys r hpos ihleft ihright =>
    rw [align, if_pos hpos, List.flatMap_append, List.flatMap_cons, ihleft, ihright]
    show ys.take r.after ++ ((xs.drop r.before).take r.size ++
      ys.drop (r.after + r.size)) = ys
    rw [longestRun_common]
    exact take_run_drop ys r.after r.size
  | case2 xs ys r hpos =>
    rw [align, if_neg hpos, List.flatMap_singleton]
    rfl

end CodeWeave.Diff
