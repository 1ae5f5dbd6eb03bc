import CodeWeave.Proofs.Diff.Alignment
import Mathlib.Data.List.Infix

/-!
# The longest run is longest

The search keeps one run and replaces it by one of an earlier row that is at least as
long. So the run that is left in the end is no shorter than what the lists have in common
at any two places:

> `commonLength_le_search`: no two places have more in common than the size of the
run that is found.

> `length_le_longestRun`: a list that stands in both lists is no longer than their
longest common run.

So nothing can be added to that run at either end. What stands in front of it in the two
lists does not end alike, and what stands behind it does not start alike:
`getLast?_before_run`, `head?_behind_run`.
-/

namespace CodeWeave.Diff

/-- The greatest number of a list is no less than any of them. -/
theorem le_firstGreatest {n : Nat} {ns : List Nat} (h : n ∈ ns) :
    n ≤ (firstGreatest ns).2 := by
  induction ns with
  | nil => exact absurd h List.not_mem_nil
  | cons m ms ih =>
    have hmax : (firstGreatest (m :: ms)).2 = max m (firstGreatest ms).2 := by
      simp only [firstGreatest]
      split <;> simp only <;> omega
    rw [hmax]
    cases List.mem_cons.mp h with
    | inl hhead => omega
    | inr htail =>
      have hle := ih htail
      omega

variable {α : Type} [DecidableEq α]

/-! ## No common beginning is longer -/

/-- What a row has at any place is no more than its greatest number. -/
theorem commonLength_le_firstGreatest (xs ys : List α) (j : Nat) :
    commonLength xs (ys.drop j) ≤ (firstGreatest (commonLengths xs ys)).2 := by
  rw [← getD_commonLengths]
  cases hj : (commonLengths xs ys)[j]? with
  | none => exact Nat.zero_le _
  | some n => exact le_firstGreatest (List.mem_of_getElem? hj)

/-- What the lists have in common at two places is no longer than the
run that is found. -/
theorem commonLength_le_search (xs ys : List α) (i j : Nat) :
    commonLength (xs.drop i) (ys.drop j) ≤ (search ys xs).2.size := by
  induction xs generalizing i with
  | nil =>
    rw [List.drop_nil, commonLength_nil_left]
    exact Nat.zero_le _
  | cons x xs ih =>
    have hrow : agreements x ys (search ys xs).1 = commonLengths (x :: xs) ys := by
      rw [search_row, agreements_commonLengths]
    have hsize : (search ys (x :: xs)).2.size =
        max (search ys xs).2.size (firstGreatest (commonLengths (x :: xs) ys)).2 := by
      simp only [search, hrow]
      split <;> simp only <;> omega
    rw [hsize]
    cases i with
    | zero =>
      have hrow := commonLength_le_firstGreatest (x :: xs) ys j
      rw [List.drop_zero]
      omega
    | succ i =>
      have hbelow := ih i
      rw [List.drop_succ_cons]
      omega

/-- A common beginning is counted as a whole. -/
theorem length_le_commonLength (w a b : List α) :
    w.length ≤ commonLength (w ++ a) (w ++ b) := by
  induction w with
  | nil => exact Nat.zero_le _
  | cons c w ih =>
    show w.length + 1 ≤ if c = c then commonLength (w ++ a) (w ++ b) + 1 else 0
    rw [if_pos rfl]
    omega

/-- What stands in both lists is no longer than their longest common run. -/
theorem length_le_longestRun {w xs ys : List α} (hx : w <:+: xs) (hy : w <:+: ys) :
    w.length ≤ (longestRun xs ys).size := by
  obtain ⟨a, b, rfl⟩ := hx
  obtain ⟨c, d, rfl⟩ := hy
  have hplace := commonLength_le_search (a ++ (w ++ b)) (c ++ (w ++ d)) a.length c.length
  rw [List.drop_left, List.drop_left] at hplace
  rw [List.append_assoc, List.append_assoc]
  exact Nat.le_trans (length_le_commonLength w b d) hplace

/-! ## Nothing can be added to the run -/

/-- The longest common run as a list. -/
def runOf (xs ys : List α) : List α :=
  (xs.drop (longestRun xs ys).before).take (longestRun xs ys).size

theorem length_runOf (xs ys : List α) :
    (runOf xs ys).length = (longestRun xs ys).size := by
  have hle := longestRun_le xs ys
  unfold runOf
  rw [List.length_take, List.length_drop]
  omega

/-- What stands in front of the longest run does not end alike in the two lists. -/
theorem getLast?_before_run {xs ys : List α} {x : α}
    (hx : (xs.take (longestRun xs ys).before).getLast? = some x) :
    (ys.take (longestRun xs ys).after).getLast? ≠ some x := by
  intro hy
  obtain ⟨u, hu⟩ := List.getLast?_eq_some_iff.mp hx
  obtain ⟨v, hv⟩ := List.getLast?_eq_some_iff.mp hy
  -- otherwise the run with that element in front would be a longer one
  have hbefore : x :: runOf xs ys <:+: xs := by
    refine ⟨u, xs.drop ((longestRun xs ys).before + (longestRun xs ys).size), ?_⟩
    have hsplit := take_run_drop xs (longestRun xs ys).before (longestRun xs ys).size
    rw [hu, List.append_assoc, List.singleton_append] at hsplit
    rw [List.append_assoc]
    exact hsplit
  have hafter : x :: runOf xs ys <:+: ys := by
    refine ⟨v, ys.drop ((longestRun xs ys).after + (longestRun xs ys).size), ?_⟩
    have hsplit := take_run_drop ys (longestRun xs ys).after (longestRun xs ys).size
    rw [hv, ← longestRun_common, List.append_assoc, List.singleton_append] at hsplit
    rw [List.append_assoc]
    exact hsplit
  have hlonger := length_le_longestRun hbefore hafter
  rw [List.length_cons, length_runOf] at hlonger
  omega

/-- What stands behind the longest run does not start alike in the two lists. -/
theorem head?_behind_run {xs ys : List α} {x : α}
    (hx :
      (xs.drop ((longestRun xs ys).before + (longestRun xs ys).size)).head? = some x) :
    (ys.drop ((longestRun xs ys).after + (longestRun xs ys).size)).head? ≠ some x := by
  intro hy
  obtain ⟨u, hu⟩ := List.head?_eq_some_iff.mp hx
  obtain ⟨v, hv⟩ := List.head?_eq_some_iff.mp hy
  have hbefore : runOf xs ys ++ [x] <:+: xs := by
    refine ⟨xs.take (longestRun xs ys).before, u, ?_⟩
    have hsplit := take_run_drop xs (longestRun xs ys).before (longestRun xs ys).size
    rw [hu] at hsplit
    rw [List.append_assoc, List.append_assoc]
    exact hsplit
  have hafter : runOf xs ys ++ [x] <:+: ys := by
    refine ⟨ys.take (longestRun xs ys).after, v, ?_⟩
    have hsplit := take_run_drop ys (longestRun xs ys).after (longestRun xs ys).size
    rw [hv, ← longestRun_common] at hsplit
    rw [List.append_assoc, List.append_assoc]
    exact hsplit
  have hlonger := length_le_longestRun hbefore hafter
  rw [List.length_append, List.length_singleton, length_runOf] at hlonger
  omega

end CodeWeave.Diff
