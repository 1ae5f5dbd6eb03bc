import CodeWeave.Merge
import CodeWeave.Proofs.Redaction.Words
import CodeWeave.Proofs.Text.Stretch

/-!
# Where the segments of a candidate come from

Import and export lines are stretches of the candidate, and so is the body if there is a
default component. Without one the body is the candidate with its statements emptied, and
then it can bring together what stood on either side of a statement, but nothing across
the end of a line:

> `infix_of_statement`, `infix_of_component`: statements and the interior of a
component are stretches.

> `component_sound`: in front of that interior is a header, and no closing brace comes
after the one behind it.

> `not_occurs_body`: words that stay on one line are in a body only if they
are in the candidate.
-/

namespace CodeWeave

open Text Sensitive

/-! ## Readers give stretches -/

namespace Text

/-- At least one white space is skipped, and nothing else. -/
theorem exists_of_skipBlanks {t r : Text} (h : skipBlanks t = some r) :
    ∃ s, s ≠ [] ∧ (∀ c ∈ s, isBlank c = true) ∧ t = s ++ r := by
  unfold skipBlanks at h
  split at h
  next c cs =>
    split at h
    next hc =>
      obtain rfl : trimStart cs = r := Option.some.inj h
      obtain ⟨s, hs, hcs⟩ := exists_eq_append_trimStart cs
      refine ⟨c :: s, List.cons_ne_nil c s, fun d hd =>
        ?_, by rw [List.cons_append, ← hcs]⟩
      rcases List.mem_cons.mp hd with rfl | hd
      · exact hc
      · exact hs d hd
    next => exact absurd h (by simp)
  next => exact absurd h (by simp)

theorem beforeLast_eq_none_iff {c : Char} {t : Text} : beforeLast c t = none ↔ c ∉ t := by
  induction t with
  | nil => exact iff_of_true rfl List.not_mem_nil
  | cons d ds ih =>
    unfold beforeLast
    rw [List.mem_cons, not_or, ← ih]
    cases beforeLast c ds with
    | some u => simp
    | none =>
      by_cases hd : d = c
      · simp [hd]
      · simp [hd, Ne.symm hd]

/-- The character is the last of its kind. -/
theorem exists_of_beforeLast {c : Char} {t r : Text} (h : beforeLast c t = some r) :
    ∃ z, t = r ++ c :: z ∧ c ∉ z := by
  induction t generalizing r with
  | nil => exact absurd h (by simp [beforeLast])
  | cons d ds ih =>
    unfold beforeLast at h
    split at h
    next u hu =>
      obtain rfl : d :: u = r := Option.some.inj h
      obtain ⟨z, hz, hnot⟩ := ih hu
      exact ⟨z, by rw [hz]; rfl, hnot⟩
    next hnone =>
      split at h
      next hd =>
        obtain rfl : [] = r := Option.some.inj h
        exact ⟨ds, by rw [hd]; rfl, beforeLast_eq_none_iff.mp hnone⟩
      next => exact absurd h (by simp)

/-- The first place where a reader succeeds splits the text. -/
theorem shortest_sound {α : Type} {next : Text → Option α} {t l : Text} {a : α}
    (h : shortest next t = some (l, a)) : ∃ m, t = l ++ m ∧ next m = some a := by
  induction t generalizing l with
  | nil =>
    obtain ⟨b, hb, heq⟩ := Option.map_eq_some_iff.mp h
    obtain ⟨rfl, rfl⟩ := Prod.mk.inj heq
    exact ⟨[], rfl, hb⟩
  | cons c cs ih =>
    unfold shortest at h
    split at h
    next b hb =>
      obtain ⟨rfl, rfl⟩ := Prod.mk.inj (Option.some.inj h)
      exact ⟨c :: cs, rfl, hb⟩
    next =>
      obtain ⟨⟨l', b⟩, hb, heq⟩ := Option.map_eq_some_iff.mp h
      obtain ⟨rfl, rfl⟩ := Prod.mk.inj heq
      obtain ⟨m, hcs, hm⟩ := ih hb
      exact ⟨m, by rw [hcs]; rfl, hm⟩

/-- A reader succeeds no later than at any place where it does. -/
theorem exists_shortest_le {α : Type} {next : Text → Option α} (l : Text) {m : Text}
    (h : (next m).isSome = true) :
    ∃ l' a, shortest next (l ++ m) = some (l', a) ∧ l'.length ≤ l.length := by
  obtain ⟨a, ha⟩ := Option.isSome_iff_exists.mp h
  induction l with
  | nil =>
    refine ⟨[], a, ?_, Nat.le_refl 0⟩
    cases m with
    | nil =>
      rw [List.nil_append, shortest, ha]
      rfl
    | cons c cs => rw [List.nil_append, shortest, ha]
  | cons c l ih =>
    rw [List.cons_append, shortest]
    cases next (c :: (l ++ m)) with
    | some b => exact ⟨[], b, rfl, Nat.zero_le _⟩
    | none =>
      obtain ⟨l', b, hl', hle⟩ := ih
      exact ⟨c :: l', b, by rw [hl']; rfl, Nat.succ_le_succ hle⟩

end Text

namespace Segment

/-! ## Lines and statements -/

/-- A line stands in the text that it is a line of. -/
theorem infix_of_physicalLine {t l : Text} (h : l ∈ physicalLines t) : l <:+: t := by
  have hmem : l <:+: ['\n'].intercalate (physicalLines t) := infix_intercalate h
  rwa [physicalLines, List.intercalate_splitOn] at hmem

theorem prefix_dropReturn (line : Text) : dropReturn line <+: line := by
  unfold dropReturn
  split
  · exact line.dropLast_prefix
  · exact List.prefix_rfl

/-- A statement starts its line and ends with a semicolon. -/
theorem prefix_of_statement {keyword line s : Text}
    (h : statement? keyword line = some s) :
    s <+: line ∧ s.getLast? = some ';' := by
  unfold statement? at h
  dsimp only at h
  split at h
  next hs =>
    obtain rfl : dropReturn line = s := Option.some.inj h
    exact ⟨prefix_dropReturn line, hs.2.1⟩
  next => exact absurd h (by simp)

/-- A statement is part of a line, up to a semicolon. -/
theorem infix_of_statement {keyword t s : Text} (h : s ∈ statements keyword t) :
    s <:+: t ∧ s.getLast? = some ';' := by
  obtain ⟨line, hline, hs⟩ := List.mem_filterMap.mp h
  obtain ⟨hstart, hlast⟩ := prefix_of_statement hs
  exact ⟨hstart.isInfix.trans (infix_of_physicalLine hline), hlast⟩

/-- What does not occur in a text occurs in none of its statements. -/
theorem not_occurs_statements {L : Text → Prop} {keyword t : Text} (h : ¬ Occurs L t) :
    ∀ s ∈ statements keyword t, ¬ Occurs L s :=
  fun _ hs hoccurs => h (hoccurs.mono (infix_of_statement hs).1)

/-- Clearing a line takes away its front. -/
theorem suffix_clearLine (keyword line : Text) : clearLine keyword line <:+ line := by
  unfold clearLine
  split
  · exact List.drop_suffix _ _
  · exact List.suffix_rfl

/-- Emptying statements makes no word that stays on one line. -/
theorem not_occurs_clearStatements {L : Text → Prop} (hne : ∀ w, L w → w ≠ [])
    (hline : ∀ w, L w → '\n' ∉ w) (keyword : Text) {t : Text} (h : ¬ Occurs L t) :
    ¬ Occurs L (clearStatements keyword t) := by
  refine not_occurs_intercalate hne hline fun u hu hoccurs => h ?_
  obtain ⟨line, hmem, rfl⟩ := List.mem_map.mp hu
  exact hoccurs.mono ((suffix_clearLine keyword line).isInfix.trans
    (infix_of_physicalLine hmem))

/-! ## The default component -/

/-- What stands in front of the interior of a default component. The parameters stay on
one line, and white space may be broken into lines. -/
inductive IsHeader : Text → Prop where
  | mk (s₁ s₂ s₃ name s₄ parameters s₅ : Text) (nonempty₁ : s₁ ≠ [])
      (blanks₁ : ∀ c ∈ s₁, isBlank c = true) (nonempty₂ : s₂ ≠ [])
      (blanks₂ : ∀ c ∈ s₂, isBlank c = true) (nonempty₃ : s₃ ≠ [])
      (blanks₃ : ∀ c ∈ s₃, isBlank c = true) (named : name ≠ [])
      (word : ∀ c ∈ name, isWord c = true)
      (blanks₄ : ∀ c ∈ s₄, isBlank c = true) (line : '\n' ∉ parameters)
      (blanks₅ : ∀ c ∈ s₅, isBlank c = true) :
      IsHeader ("export".toList ++ s₁ ++ "default".toList ++ s₂ ++ "function".toList ++
        s₃ ++ name ++ s₄ ++
        "(".toList ++ (parameters ++ (")".toList ++ s₅ ++ "\x7b".toList)))

/-- The interior of a component reaches from its header to the last closing brace. -/
theorem component_sound {t i : Text} (h : componentInterior? t = some i) :
    ∃ head rest, t = head ++ (i ++ '\x7d' :: rest) ∧ IsHeader head ∧ '\x7d' ∉ rest := by
  unfold componentInterior? at h
  obtain ⟨t₁, h₁, h⟩ := Option.bind_eq_some_iff.mp h
  obtain ⟨t₂, h₂, h⟩ := Option.bind_eq_some_iff.mp h
  obtain ⟨t₃, h₃, h⟩ := Option.bind_eq_some_iff.mp h
  obtain ⟨t₄, h₄, h⟩ := Option.bind_eq_some_iff.mp h
  obtain ⟨t₅, h₅, h⟩ := Option.bind_eq_some_iff.mp h
  obtain ⟨t₆, h₆, h⟩ := Option.bind_eq_some_iff.mp h
  obtain ⟨s₁, hne₁, hs₁, ht₁⟩ := exists_of_skipBlanks h₂
  obtain ⟨s₂, hne₂, hs₂, ht₃⟩ := exists_of_skipBlanks h₄
  obtain ⟨s₃, hne₃, hs₃, ht₅⟩ := exists_of_skipBlanks h₆
  split at h
  next => exact absurd h (by simp)
  next hname =>
    obtain ⟨t₇, h₇, h⟩ := Option.bind_eq_some_iff.mp h
    obtain ⟨parameters, m, ht₇, hline, h⟩ := longest_sound h
    obtain ⟨t₈, h₈, h⟩ := Option.bind_eq_some_iff.mp h
    obtain ⟨t₉, h₉, h⟩ := Option.bind_eq_some_iff.mp h
    obtain ⟨rest, ht₉, hrest⟩ := exists_of_beforeLast h
    obtain ⟨s₄, hs₄, ht₆⟩ := exists_eq_append_trimStart (t₆.dropWhile isWord)
    obtain ⟨s₅, hs₅, ht₈⟩ := exists_eq_append_trimStart t₈
    obtain ⟨name, hnamed, hword, ht₆'⟩ : ∃ name : Text, name ≠ [] ∧
        (∀ c ∈ name, isWord c = true) ∧
        t₆ = name ++ (s₄ ++ ("(".toList ++ t₇)) := by
      refine ⟨t₆.takeWhile isWord, fun hnil => hname (by rw [hnil]; rfl),
        fun c hc => List.mem_takeWhile_imp hc, ?_⟩
      rw [← skip_eq_some_iff.mp h₇, ← ht₆, List.takeWhile_append_dropWhile]
    refine ⟨_, rest, ?_, .mk s₁ s₂ s₃ name s₄ parameters s₅ hne₁ hs₁ hne₂ hs₂ hne₃ hs₃
      hnamed hword hs₄
      (fun hmem => absurd (hline _ hmem) (by decide)) hs₅, hrest⟩
    rw [skip_eq_some_iff.mp h₁, ht₁, skip_eq_some_iff.mp h₃, ht₃, skip_eq_some_iff.mp h₅,
      ht₅, ht₆', ht₇, skip_eq_some_iff.mp h₈, ht₈, skip_eq_some_iff.mp h₉, ht₉]
    simp only [List.append_assoc]

theorem infix_of_componentInterior {t i : Text} (h : componentInterior? t = some i) :
    i <:+: t := by
  obtain ⟨head, rest, ht, _⟩ := component_sound h
  exact ⟨head, '\x7d' :: rest, by rw [ht, List.append_assoc]⟩

/-- The body of a component is part of the text. -/
theorem infix_of_component {t i : Text} (h : component? t = some i) : i <:+: t := by
  obtain ⟨⟨l, j⟩, hfirst, rfl⟩ := Option.map_eq_some_iff.mp h
  obtain ⟨m, ht, hm⟩ := shortest_sound hfirst
  exact (infix_of_componentInterior hm).trans ⟨l, [], by rw [ht, List.append_nil]⟩

/-! ## The body -/

/-- A body has only those words of one line that the candidate has. -/
theorem not_occurs_body {L : Text → Prop} (hne : ∀ w, L w → w ≠ [])
    (hline : ∀ w, L w → '\n' ∉ w) {t : Text} (h : ¬ Occurs L t) :
    ¬ Occurs L (body t) := by
  intro hbody
  unfold body at hbody
  split at hbody
  next i hi => exact h (hbody.mono ((infix_strip i).trans (infix_of_component hi)))
  next =>
    have himports := not_occurs_clearStatements hne hline importWord h
    have hexports := not_occurs_clearStatements hne hline exportWord himports
    exact hexports (hbody.mono (infix_strip _))

end Segment

end CodeWeave
