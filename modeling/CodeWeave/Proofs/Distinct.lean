import CodeWeave.Distinct
import Mathlib.Data.List.Induction
import Mathlib.Data.List.Nodup
import Mathlib.Data.List.Perm.Subperm

/-!
# Each element once

Elements are added one after the other, each unless it is there. The elements so far stay
where they are, and the new ones stand behind them in the order in which they came:

> `foldl_addNew`: what is added behind the elements so far, as a function of the library.

> `pairwise_distinct`: the elements stand in the order of their first occurrence.

> `distinct_distinct_append`, `distinct_append_distinct`: either part of a list may be
made distinct first.
-/

namespace CodeWeave

variable {α : Type} [DecidableEq α]

/-! ## Adding one element -/

theorem addNew_of_mem {seen : List α} {x : α} (h : x ∈ seen) : addNew seen x = seen :=
  if_pos h

theorem addNew_of_not_mem {seen : List α} {x : α} (h : x ∉ seen) :
    addNew seen x = seen ++ [x] := if_neg h

/-! ## Adding the elements of a list -/

/-- What is added behind the elements seen so far: the others, each where
it comes first. -/
theorem foldl_addNew [BEq α] [LawfulBEq α] (xs seen : List α) :
    xs.foldl addNew seen = seen ++ (xs.filter fun x => decide (x ∉ seen)).eraseDups := by
  induction xs generalizing seen with
  | nil => exact (List.append_nil seen).symm
  | cons x xs ih =>
    rw [List.foldl_cons, ih, addNew]
    by_cases hx : x ∈ seen
    · rw [if_pos hx, List.filter_cons_of_neg (by simpa using hx)]
    · have hfilter : (xs.filter fun y => decide (y ∉ seen ++ [x])) =
          xs.filter fun y => (!y == x) && decide (y ∉ seen) := by
        refine List.filter_congr fun y _ => Bool.eq_iff_iff.mpr ?_
        simp [not_or, and_comm]
      rw [if_neg hx, List.filter_cons_of_pos (by simpa using hx), List.eraseDups_cons,
        List.filter_filter, hfilter,
        List.append_assoc]
      rfl

/-- Elements that are there add nothing. -/
theorem foldl_addNew_of_subset {xs seen : List α} (h : xs ⊆ seen) :
    xs.foldl addNew seen = seen := by
  induction xs with
  | nil => rfl
  | cons x xs ih =>
    obtain ⟨hx, hxs⟩ := List.cons_subset.mp h
    rw [List.foldl_cons, addNew_of_mem hx, ih hxs]

/-! ## Distinct elements -/

/-- A list behind another one is added to it element by element. -/
theorem distinct_append (xs ys : List α) :
    distinct (xs ++ ys) = ys.foldl addNew (distinct xs) :=
  List.foldl_append

theorem distinct_concat (xs : List α) (x : α) :
    distinct (xs ++ [x]) = addNew (distinct xs) x :=
  distinct_append xs [x]

/-- The elements stand in the order of their first occurrence. -/
theorem pairwise_distinct [BEq α] [LawfulBEq α] (xs : List α) :
    (distinct xs).Pairwise fun x y => xs.idxOf x < xs.idxOf y := by
  -- from the last element: it comes behind all others, whose first occurrences
  -- stay where they are
  induction xs using List.reverseRecOn with
  | nil => exact .nil
  | append_singleton xs x ih =>
    have hidx : ∀ y ∈ distinct xs, (xs ++ [x]).idxOf y = xs.idxOf y := fun y hy =>
      List.idxOf_append_of_mem (mem_distinct.mp hy)
    have hbefore : (distinct xs).Pairwise fun y z => (xs ++ [x]).idxOf y <
        (xs ++ [x]).idxOf z := by
      refine ih.imp_of_mem fun {y z} hy hz hlt => ?_
      rw [hidx y hy, hidx z hz]
      exact hlt
    rw [distinct_concat]
    by_cases hx : x ∈ distinct xs
    · rw [addNew_of_mem hx]
      exact hbefore
    · rw [addNew_of_not_mem hx]
      refine List.pairwise_append.mpr ⟨hbefore, List.pairwise_singleton _ x,
        fun y hy z hz => ?_⟩
      rw [List.mem_singleton.mp hz, hidx y hy,
        List.idxOf_append_of_notMem fun hmem => hx (mem_distinct.mpr hmem)]
      exact Nat.lt_add_right _ (List.idxOf_lt_length_of_mem (mem_distinct.mp hy))

/-- No element comes twice. -/
theorem nodup_distinct (xs : List α) : (distinct xs).Nodup :=
  (pairwise_distinct xs).imp fun hlt heq => absurd (heq ▸ hlt) (Nat.lt_irrefl _)

/-- Each element where it occurs first: the library's own function. -/
theorem distinct_eq_eraseDups [BEq α] [LawfulBEq α] (xs : List α) :
    distinct xs = xs.eraseDups := by
  rw [distinct, foldl_addNew]
  simp

/-- Nothing is added to a list by making it distinct. -/
theorem length_distinct_le (xs : List α) : (distinct xs).length ≤ xs.length :=
  (List.subperm_of_subset (nodup_distinct xs) fun _ hx => mem_distinct.mp hx).length_le

/-- A list of distinct elements stays as it is. -/
theorem distinct_of_nodup {xs : List α} (h : xs.Nodup) : distinct xs = xs := by
  rw [distinct_eq_eraseDups]
  induction xs with
  | nil => rfl
  | cons x xs ih =>
    obtain ⟨hx, hxs⟩ := List.nodup_cons.mp h
    have hfilter : (xs.filter fun y => !y == x) = xs := by
      refine List.filter_eq_self.mpr fun y hy => ?_
      have hne : y ≠ x := fun heq => hx (heq ▸ hy)
      simp [hne]
    rw [List.eraseDups_cons, hfilter, ih hxs]

/-- Elements that are there already add nothing. -/
theorem distinct_append_of_subset {xs ys : List α} (h : ys ⊆ xs) :
    distinct (xs ++ ys) = distinct xs := by
  rw [distinct_append]
  exact foldl_addNew_of_subset fun _ hy => mem_distinct.mpr (h hy)

/-- Making the first part distinct beforehand changes nothing. -/
theorem distinct_distinct_append (xs ys : List α) :
    distinct (distinct xs ++ ys) = distinct (xs ++ ys) := by
  rw [distinct_append, distinct_append, distinct_of_nodup (nodup_distinct xs)]

/-- Nor does making the second part distinct. -/
theorem distinct_append_distinct (xs ys : List α) :
    distinct (xs ++ distinct ys) = distinct (xs ++ ys) := by
  induction ys using List.reverseRecOn with
  | nil => rfl
  | append_singleton ys y ih =>
    rw [distinct_concat, ← List.append_assoc, distinct_concat, ← ih]
    by_cases hy : y ∈ distinct ys
    · have hall : y ∈ distinct (xs ++ distinct ys) :=
        mem_distinct.mpr (List.mem_append_right xs hy)
      rw [addNew_of_mem hy, addNew_of_mem hall]
    · rw [addNew_of_not_mem hy, ← List.append_assoc, distinct_concat]

end CodeWeave
