/-!
# Distinct elements

The elements of a list, each once, in the order in which they occur first.
-/

namespace CodeWeave

/-- Adds an element at the end, unless it is there. -/
def addNew {α : Type} [DecidableEq α] (seen : List α) (x : α) : List α :=
  if x ∈ seen then seen else seen ++ [x]

/-- Each element once, where it occurs first. -/
def distinct {α : Type} [DecidableEq α] (xs : List α) : List α := xs.foldl addNew []

theorem mem_addNew {α : Type} [DecidableEq α] {seen : List α} {x y : α} :
    y ∈ addNew seen x ↔ y ∈ seen ∨ y = x := by
  unfold addNew
  split
  next h => exact ⟨Or.inl, fun hy => hy.elim id fun hyx => hyx ▸ h⟩
  next => rw [List.mem_append, List.mem_singleton]

/-- No element is lost, and none comes in. -/
theorem mem_distinct {α : Type} [DecidableEq α] {xs : List α} {y : α} :
    y ∈ distinct xs ↔ y ∈ xs := by
  have hfold : ∀ seen : List α, y ∈ xs.foldl addNew seen ↔ y ∈ seen ∨ y ∈ xs := by
    induction xs with
    | nil => intro seen; simp
    | cons x xs ih =>
      intro seen
      rw [List.foldl_cons, ih, mem_addNew, List.mem_cons, or_assoc]
  unfold distinct
  rw [hfold]
  simp

end CodeWeave
