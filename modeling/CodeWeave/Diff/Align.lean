/-!
# Aligning two lists

Two lists are aligned by their longest common run: of the longest runs the one that starts
earliest in the first list, and of those the one that starts earliest in the second. What
lies before the run and what lies behind it is aligned in the same way.

The search keeps one row of numbers: for a suffix of the first list, how far it agrees
with each suffix of the second (`agreements`). Rows are computed from the end, so that
each follows from the one before it, and the best run is replaced by an equally long one
that starts earlier.
-/

namespace CodeWeave.Diff

variable {α : Type} [DecidableEq α]

/-! ## The longest common run -/

/-- A common run of two lists: where it starts in each, and its length. -/
structure Run where
  before : Nat
  after : Nat
  size : Nat
  deriving DecidableEq, Repr

/-- How far `x :: xs` agrees with each suffix of `ys`, from the same numbers for `xs`. -/
def agreements (x : α) : List α → List Nat → List Nat
  | y :: ys, _ :: ns => (if x = y then ns.headD 0 + 1 else 0) :: agreements x ys ns
  | _, _ => []

/-- The greatest number of a list, and where it stands first. -/
def firstGreatest : List Nat → Nat × Nat
  | [] => (0, 0)
  | n :: ns =>
    let (i, m) := firstGreatest ns
    if m ≤ n then (0, n) else (i + 1, m)

/-- The row of agreements of `xs` with each suffix of `ys`, and the best common
run of the two. -/
def search (ys : List α) : List α → List Nat × Run
  | [] => (ys.map fun _ => 0, ⟨0, 0, 0⟩)
  | x :: xs =>
    let (row, best) := search ys xs
    let row := agreements x ys row
    let (j, m) := firstGreatest row
    (row, if best.size ≤ m then ⟨0, j, m⟩ else ⟨best.before + 1, best.after, best.size⟩)

/-- The longest common run of two lists, the earliest of several. -/
def longestRun (xs ys : List α) : Run := (search ys xs).2

theorem firstGreatest_snd_le {k : Nat} {ns : List Nat} (h : ∀ n ∈ ns, n ≤ k) :
    (firstGreatest ns).2 ≤ k := by
  induction ns with
  | nil => exact Nat.zero_le k
  | cons n ns ih =>
    have hn : n ≤ k := h n List.mem_cons_self
    have htail := ih fun m hm => h m (List.mem_cons_of_mem n hm)
    simp only [firstGreatest]
    split <;> assumption

theorem agreements_le {k : Nat} {x : α} {ys : List α} {row : List Nat}
    (h : ∀ n ∈ row, n ≤ k) :
    ∀ n ∈ agreements x ys row, n ≤ k + 1 := by
  fun_induction agreements x ys row with
  | case1 y ys m ns ih =>
    have htail : ∀ n ∈ ns, n ≤ k := fun n hn => h n (List.mem_cons_of_mem m hn)
    have hhead : ns.headD 0 ≤ k := by
      cases ns with
      | nil => exact Nat.zero_le k
      | cons a _ => exact htail a List.mem_cons_self
    intro n hn
    rcases List.mem_cons.1 hn with rfl | hn
    · split <;> omega
    · exact ih htail n hn
  | case2 => simp

/-- Neither an agreement nor the best run reaches beyond the first list. -/
theorem search_le (xs ys : List α) :
    (∀ n ∈ (search ys xs).1, n ≤ xs.length) ∧
      (search ys xs).2.before + (search ys xs).2.size ≤ xs.length := by
  induction xs with
  | nil => simp [search]
  | cons x xs ih =>
    obtain ⟨hrow, hbest⟩ := ih
    have hnew : ∀ n ∈ agreements x ys (search ys xs).1, n ≤ xs.length + 1 :=
      agreements_le hrow
    have hmax := firstGreatest_snd_le hnew
    refine ⟨by simpa [search] using hnew, ?_⟩
    simp only [search, List.length_cons]
    split <;> simp only <;> omega

/-- The longest common run lies within the first list. -/
theorem longestRun_le (xs ys : List α) :
    (longestRun xs ys).before + (longestRun xs ys).size ≤ xs.length := (search_le xs ys).2

/-! ## The alignment -/

/-- A stretch of the alignment: elements that both lists have, or those that only
one of them has. -/
inductive Hunk (α : Type) where
  | kept (run : List α)
  | changed (removed added : List α)
  deriving DecidableEq, Repr

/-- Aligns two lists around their longest common runs. -/
def align (xs ys : List α) : List (Hunk α) :=
  let r := longestRun xs ys
  if 0 < r.size then
    align (xs.take r.before) (ys.take r.after) ++
      .kept ((xs.drop r.before).take r.size) ::
      align (xs.drop (r.before + r.size)) (ys.drop (r.after + r.size))
  else [.changed xs ys]
termination_by xs.length
decreasing_by
  all_goals
    have hle := longestRun_le xs ys
    have hpos : 0 < (longestRun xs ys).size := by assumption
    simp only [List.length_take, List.length_drop]
    omega

end CodeWeave.Diff
