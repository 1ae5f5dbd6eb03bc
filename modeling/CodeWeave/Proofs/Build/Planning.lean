import CodeWeave.Proofs.Distinct
import CodeWeave.Proofs.Remote.Ordinary

/-!
# The plans of the planner

Whatever the client answers, a plan lists distinct paths, and not too many of them. A
build relies on the first where it looks for the files that are missing, and on the second
where it counts its steps:

> `proper_of_generate`: a plan is `Proper`.
-/

namespace CodeWeave

/-! ## Results of an action -/

/-- Every result of the action has the property, whatever the outside answers. -/
def Yields {α : Type} (q : α → Prop) (x : Run α) : Prop := ∀ o a, (x o).1 = .ok a → q a

section Results

variable {α β : Type} {q : β → Prop}

theorem Yields.bind {x : Run α} {f : α → Run β} (h : ∀ a, Yields q (f a)) :
    Yields q (x >>= f) := by
  intro o b hb
  rcases hx : x o with ⟨r, o'⟩
  cases r with
  | ok a =>
    rw [Run.bind_ok hx] at hb
    exact h a o' b hb
  | error e =>
    rw [Run.bind_error hx] at hb
    exact nomatch hb

theorem yields_pure {b : β} (h : q b) : Yields q (pure b) := by
  intro o a ha
  cases ha
  exact h

theorem yields_throw {f : Failure} : Yields q (throw f) := by
  intro o a ha
  exact nomatch ha

end Results

/-! ## Plans -/

namespace Plan

/-- The paths of a plan are distinct, and there are not too many. -/
structure Proper {α : Type} (plan : List α) : Prop where
  nodup : plan.Nodup
  length_le : plan.length ≤ maxFiles

/-- Cleaning leaves distinct paths, and cuts the list off at its limit. -/
theorem proper_clean (paths : List WideText) : Proper (clean paths) where
  nodup := (nodup_distinct _).sublist (List.take_sublist _ _)
  length_le := List.length_take_le _ _

theorem proper_standard : Proper standard := ⟨by decide, by decide⟩

theorem proper_fallback : Proper (fallback.map WideText.ofString) :=
  ⟨by decide, by decide⟩

/-- Paths are named apart, and there are not more names than paths. -/
theorem Proper.names {ps : List WideText} (h : Proper ps) : Proper (names ps) where
  nodup := nodup_distinct _
  length_le := by
    have hle := length_distinct_le (ps.map WideText.shown)
    rw [List.length_map] at hle
    exact Nat.le_trans hle h.length_le

/-- Whatever an answer is, its plan is proper: it was cleaned, or it is the fallback. -/
theorem yields_parse (raw : Text) : Yields Proper (parse raw) := by
  intro o plan hplan
  unfold parse at hplan
  cases hanswer : readAnswer raw with
  | error f =>
    rw [hanswer] at hplan
    exact nomatch hplan
  | ok answer =>
    rw [hanswer] at hplan
    cases answer with
    | paths ps =>
      -- the paths of an answer have been cleaned when it was read
      have hps : plan = ps := by cases hplan; rfl
      have hclean : ∃ qs, ps = clean qs := by
        unfold readAnswer at hanswer
        dsimp only at hanswer
        split at hanswer
        · exact nomatch hanswer
        · exact nomatch hanswer
        · split at hanswer
          · cases hanswer
            exact ⟨_, rfl⟩
          · exact nomatch hanswer
      obtain ⟨qs, hqs⟩ := hclean
      rw [hps, hqs]
      exact proper_clean qs
    | notJson =>
      cases hplan
      exact proper_fallback
    | notPaths =>
      cases hplan
      exact proper_fallback

/-- Naming a plan keeps it proper. -/
theorem yields_ofAnswer (raw : Text) : Yields Proper (ofAnswer raw) := by
  intro o plan hplan
  unfold ofAnswer at hplan
  rcases hparse : parse raw o with ⟨r, o'⟩
  cases r with
  | error f =>
    rw [Run.bind_error hparse] at hplan
    exact nomatch hplan
  | ok ps =>
    rw [Run.bind_ok hparse] at hplan
    cases hplan
    exact (yields_parse raw o ps (congrArg Prod.fst hparse)).names

/-- Asking gives a proper plan also where nobody can be asked. -/
theorem yields_asked (client : Option Client) (prompt : String) :
    Yields Proper (asked client prompt) := by
  cases client with
  | none => exact yields_pure proper_standard
  | some c =>
    refine Yields.bind fun r => ?_
    cases r with
    | ok raw => exact yields_ofAnswer raw.toList
    | error f =>
      show Yields Proper (if f.isA .generation = true then _ else _)
      split <;> exact yields_throw

/-- A prompt that is refused has no plan, and any other one has a proper plan or none. -/
theorem proper_of_generate {client : Option Client} {prompt : String} {o : Outside}
    {plan : List String} (h : (generate client prompt o).1 = .ok plan) : Proper plan := by
  rw [generate_eq] at h
  split at h
  · exact nomatch h
  · split at h
    · exact nomatch h
    · exact yields_asked client prompt o plan h

end Plan

end CodeWeave
