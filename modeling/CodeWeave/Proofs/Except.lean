/-!
# Failing in between

Of two parts in a row the second runs on the result of the first, unless
the first has failed.
-/

namespace CodeWeave

variable {ε α β : Type} {e : Except ε α} {f : α → Except ε β}

@[simp] theorem ok_bind (a : α) : (Except.ok a : Except ε α) >>= f = f a := rfl

@[simp] theorem error_bind (x : ε) : (Except.error x : Except ε α) >>= f = .error x := rfl

/-- Two steps succeed if the first does, and the second does with what the first gave. -/
theorem bind_eq_ok_iff {b : β} : e >>= f = .ok b ↔ ∃ a, e = .ok a ∧ f a = .ok b := by
  cases e with
  | error x => exact iff_of_false (fun h => nomatch h) fun ⟨_, h, _⟩ => nomatch h
  | ok a =>
    constructor
    · exact fun h => ⟨a, rfl, h⟩
    · intro h
      obtain ⟨a', heq, h⟩ := h
      cases heq
      exact h

/-- Two steps fail with the failure of the first, or with that of the second. -/
theorem bind_eq_error_iff {x : ε} :
    e >>= f = .error x ↔ e = .error x ∨ ∃ a, e = .ok a ∧ f a = .error x := by
  cases e with
  | error y =>
    constructor
    · exact fun h => Or.inl (congrArg Except.error (Except.error.inj h))
    · intro h
      cases h with
      | inl h => exact congrArg Except.error (Except.error.inj h)
      | inr h =>
        obtain ⟨_, h, _⟩ := h
        exact nomatch h
  | ok a =>
    constructor
    · exact fun h => Or.inr ⟨a, rfl, h⟩
    · intro h
      cases h with
      | inl h => exact nomatch h
      | inr h =>
        obtain ⟨a', heq, h⟩ := h
        cases heq
        exact h

end CodeWeave
