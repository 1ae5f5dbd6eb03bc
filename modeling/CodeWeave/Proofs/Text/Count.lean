import CodeWeave.Proofs.Text.Cut
import Mathlib.Data.List.Infix
import Mathlib.Logic.Function.Iterate

/-!
# Counting the occurrences of a word

`occurrences w t` counts the places of `t` where the word `w` starts. Replacing removes
the occurrences that it passes over, and it can make new ones inside what it puts in or at
the edges of it. A replacement that does neither is `Neutral`:

> `occurrences_render_le`: neutral exchanges do not add to the occurrences of a word, and
> each one whose text started with the word takes one away.
-/

namespace CodeWeave.Text

/-- The number of places where the word starts. -/
def occurrences (w t : Text) : Nat := t.tails.countP fun u => decide (w <+: u)

variable {w : Text}

theorem occurrences_cons (c : Char) (t : Text) :
    occurrences w (c :: t) = occurrences w t + if w <+: c :: t then 1 else 0 := by
  unfold occurrences
  rw [List.tails_cons, List.countP_cons]
  simp only [decide_eq_true_eq]

/-- A text in front of another keeps the occurrences of that one, and has one more if it
starts with the word. -/
theorem occurrences_add_le_append (hw : w ≠ []) (a b : Text) :
    (occurrences w b + if w <+: a then 1 else 0) ≤ occurrences w (a ++ b) := by
  induction a with
  | nil =>
    rw [if_neg fun h => hw (List.prefix_nil.mp h)]
    exact Nat.le_refl _
  | cons c a ih =>
    have htail : occurrences w b ≤ occurrences w (a ++ b) :=
      (Nat.le_add_right _ _).trans ih
    rw [List.cons_append, occurrences_cons]
    by_cases hstart : w <+: c :: a
    · have hlonger : w <+: c :: (a ++ b) := hstart.trans (List.prefix_append (c :: a) b)
      rw [if_pos hstart, if_pos hlonger]
      omega
    · rw [if_neg hstart]
      omega

/-- A text in which no occurrence starts adds none. -/
theorem occurrences_append_of_apart {a : Text}
    (h : ∀ u ∈ a.tails, u ≠ [] → ∀ r z, w ++ r ≠ u ++ z) (b : Text) :
    occurrences w (a ++ b) = occurrences w b := by
  induction a with
  | nil => rfl
  | cons c a ih =>
    have hhead :=
      h (c :: a) (List.mem_tails _ _ |>.mpr List.suffix_rfl) (List.cons_ne_nil c a)
    have htail := ih fun u hu => h u (by
      rw [List.tails_cons]
      exact List.mem_cons_of_mem _ hu)
    have hstart : ¬ w <+: c :: (a ++ b) := by
      intro hstart
      obtain ⟨r, hr⟩ := hstart
      exact hhead r b hr
    rw [List.cons_append, occurrences_cons, htail, if_neg hstart]
    exact Nat.add_zero _

/-! ## Exchanges -/

/-- In the place of `x`, the text `y` makes no new occurrence of the word: none starts
inside it, and one that runs into it ran into `x` alike. -/
structure Neutral (w x y : Text) : Prop where
  starts : ∀ u ∈ y.tails, u ≠ [] → ∀ r z, w ++ r ≠ u ++ z
  enters : ∀ run s r z, w = run ++ s → s ≠ [] → s ++ r = y ++ z → s <+: x

/-- A text whose first character is not in the word is not entered by it. -/
theorem Neutral.of_head {x y : Text} {d : Char}
    (starts : ∀ u ∈ (d :: y).tails, u ≠ [] → ∀ r z, w ++ r ≠ u ++ z) (hd : d ∉ w) :
    Neutral w x (d :: y) where
  starts := starts
  enters := by
    intro run s r z hw hs hoverlap
    obtain ⟨e, s, rfl⟩ := List.exists_cons_of_ne_nil hs
    obtain rfl : e = d := (List.cons.inj hoverlap).1
    exact absurd (by rw [hw]; exact List.mem_append_right run List.mem_cons_self) hd

section Render

variable {new : Text → Text} {ps : List Piece}

/-- Where the word starts behind neutral exchanges, it started before them. -/
theorem prefix_render_of_neutral (h : ∀ x, .hit x ∈ ps → Neutral w x (new x))
    (hstart : w <+: render new ps) : w <+: render id ps := by
  obtain ⟨r, hr⟩ := hstart
  rcases render_eq_append_left hr.symm with ⟨back, hsplit, _⟩ |
    ⟨run, x, back, s, hsplit, hword, hs, hr⟩
  · rw [hsplit, render_append, render_map_plain]
    exact List.prefix_append w _
  · obtain ⟨z, hx⟩ :=
      (h x (by rw [hsplit]; exact List.mem_append_right _ List.mem_cons_self)).enters
      run s r _ hword hs hr
    refine ⟨z ++ render id back, ?_⟩
    rw [hsplit, render_append, render_map_plain, render_hit, id_eq, ← hx, hword]
    simp only [List.append_assoc]

/-- How many of the exchanged occurrences start with the word. -/
def hitsFrom (w : Text) (ps : List Piece) : Nat :=
  ps.countP fun
    | .plain _ => false
    | .hit x => decide (w <+: x)

theorem hitsFrom_pos {x : Text} (hx : .hit x ∈ ps) (hstart : w <+: x) :
    0 < hitsFrom w ps :=
  List.countP_pos_iff.mpr ⟨.hit x, hx, decide_eq_true hstart⟩

/-- Neutral exchanges do not add to the occurrences of a word, and each one whose text
started with the word takes one away. -/
theorem occurrences_render_le (hw : w ≠ []) (h : ∀ x, .hit x ∈ ps → Neutral w x (new x)) :
    occurrences w (render new ps) + hitsFrom w ps ≤ occurrences w (render id ps) := by
  induction ps with
  | nil => exact Nat.le_refl _
  | cons p ps ih =>
    have htail := ih fun x hx => h x (List.mem_cons_of_mem p hx)
    cases p with
    | plain c =>
      have hfrom : hitsFrom w (.plain c :: ps) = hitsFrom w ps :=
        List.countP_cons_of_neg Bool.false_ne_true
      have hhead : w <+: c :: render new ps → w <+: c :: render id ps := fun hstart =>
        prefix_render_of_neutral h hstart
      rw [render_plain, render_plain, occurrences_cons, occurrences_cons, hfrom]
      by_cases hstart : w <+: c :: render new ps
      · rw [if_pos hstart, if_pos (hhead hstart)]
        omega
      · rw [if_neg hstart]
        omega
    | hit x =>
      have hfrom :
          hitsFrom w (.hit x :: ps) = hitsFrom w ps + if w <+: x then 1 else 0 := by
        unfold hitsFrom
        rw [List.countP_cons]
        simp only [decide_eq_true_eq]
      have hx := occurrences_add_le_append hw x (render id ps)
      rw [render_hit, render_hit, id_eq,
        occurrences_append_of_apart (h x List.mem_cons_self).starts, hfrom]
      omega

end Render

/-! ## Passes that lower a measure -/

/-- The pass leaves a text alone or lowers the measure. -/
def Lowers (μ : Text → Nat) (f : Text → Text) : Prop := ∀ t, f t = t ∨ μ (f t) < μ t

namespace Lowers

variable {μ : Text → Nat} {f g : Text → Text}

/-- One pass after another lowers the measure if both do. -/
theorem comp (hg : Lowers μ g) (hf : Lowers μ f) : Lowers μ fun t => g (f t) := by
  intro t
  show g (f t) = t ∨ μ (g (f t)) < μ t
  rcases hf t with hsame | hless
  · rw [hsame]
    exact hg t
  · refine Or.inr ?_
    rcases hg (f t) with hsame | hless'
    · rw [hsame]
      exact hless
    · exact hless'.trans hless

/-- Repeated, such a pass comes to a text that it leaves alone, after no more rounds than
the measure allows. -/
theorem exists_iterate_fixed (hf : Lowers μ f) (t : Text) :
    ∃ n ≤ μ t, f (f^[n] t) = f^[n] t := by
  -- on the measure, which every round that changes the text lowers
  induction hm : μ t using Nat.strongRecOn generalizing t with
  | ind m ih =>
    rcases hf t with hsame | hless
    · exact ⟨0, Nat.zero_le _, hsame⟩
    · obtain ⟨n, hn, hfixed⟩ := ih (μ (f t)) (hm ▸ hless) (f t) rfl
      exact ⟨n + 1, by omega, hfixed⟩

end Lowers

end CodeWeave.Text
