import CodeWeave.Text.Lines
import Mathlib.Data.List.Chain
import Mathlib.Data.List.Flatten

/-!
# Where lines end

A text is cut into lines behind each line end, and a carriage return with a line feed
behind it is one end. So whether a line ends between two texts is seen at their seam,
`EndsBetween`, and `lines_cons_cases` says what a character does to the lines of the text
behind it. From there on nobody opens `lines` again:

> `lines_append_cases`: if a line ends between two texts, the lines of both are the lines
> of the whole. If not, the last line of the first and the first line of the second are
> one line of the whole.

> `lines_flatten_iff`, `bareLines_flatten_iff`: texts in a row keep their lines exactly if
> a line ends between any two neighbours.

> `isChain_lines`: a line ends between any two neighbours among the lines of a text.
-/

namespace CodeWeave.Text

/-! ## The seam of two texts -/

/-- The last line of the text has its ending. -/
def EndsLine (t : Text) : Prop := ∃ c, t.getLast? = some c ∧ isLineEnd c = true

/-- A carriage return at the end of the first text and a line feed at the start of the
second are one ending. -/
def SharesEnding (s t : Text) : Prop := s.getLast? = some '\r' ∧ t.head? = some '\n'

/-- A line ends where the two texts meet. -/
def EndsBetween (s t : Text) : Prop := EndsLine s ∧ ¬ SharesEnding s t

instance (t : Text) : Decidable (EndsLine t) :=
  decidable_of_iff (t.getLast?.any isLineEnd = true) (by
    unfold EndsLine
    cases t.getLast? with
    | none => simp
    | some c => simp)

instance (s t : Text) : Decidable (SharesEnding s t) :=
  inferInstanceAs (Decidable (s.getLast? = some '\r' ∧ t.head? = some '\n'))

instance (s t : Text) : Decidable (EndsBetween s t) :=
  inferInstanceAs (Decidable (EndsLine s ∧ ¬ SharesEnding s t))

/-- Only the last character of the first text matters. -/
theorem endsBetween_cons {c : Char} {s t : Text} (hs : s ≠ []) :
    EndsBetween (c :: s) t ↔ EndsBetween s t := by
  cases s with
  | nil => exact absurd rfl hs
  | cons d s =>
    unfold EndsBetween EndsLine SharesEnding
    rw [List.getLast?_cons_cons]

/-- Only the first character of the second text matters. -/
theorem endsBetween_append {s t u : Text} (ht : t ≠ []) :
    EndsBetween s (t ++ u) ↔ EndsBetween s t := by
  unfold EndsBetween SharesEnding
  rw [List.head?_append_of_ne_nil t ht]

/-! ## One character -/

theorem lines_eq_nil_iff {t : Text} : lines t = [] ↔ t = [] := by
  constructor
  · intro h
    rw [← flatten_lines t, h]
    rfl
  · intro h
    rw [h]
    rfl

/-- A character is a line, if a line ends behind it, or it stands at the start
of the first one. -/
theorem lines_cons_cases (c : Char) {t : Text} (ht : t ≠ []) :
    (EndsBetween [c] t ∧ lines (c :: t) = [c] :: lines t) ∨
      (¬ EndsBetween [c] t ∧ ∃ m ms, lines t = m :: ms ∧ lines (c :: t) =
        (c :: m) :: ms) := by
  by_cases hshared : SharesEnding [c] t
  · obtain ⟨hc, hhead⟩ := hshared
    obtain rfl : c = '\r' := Option.some.inj hc
    obtain ⟨u, rfl⟩ := List.head?_eq_some_iff.mp hhead
    refine Or.inr ⟨fun h => h.2 ⟨rfl, rfl⟩, ['\n'], lines u, ?_, ?_⟩
    · rw [lines]
      · rfl
      · intro v hv
        exact absurd hv (by decide)
    · rw [lines]
  · have hpair : ∀ u, c = '\r' → t = '\n' :: u → False := by
      intro u hc hu
      rw [hc, hu] at hshared
      exact hshared ⟨rfl, rfl⟩
    cases hc : isLineEnd c with
    | true =>
      refine Or.inl ⟨⟨⟨c, rfl, hc⟩, hshared⟩, ?_⟩
      rw [lines, if_pos hc]
      exact hpair
    | false =>
      obtain ⟨m, ms, hlines⟩ :=
        List.exists_cons_of_ne_nil fun h => ht (lines_eq_nil_iff.mp h)
      refine Or.inr ⟨fun h => ?_, m, ms, hlines, ?_⟩
      · obtain ⟨d, hd, hend⟩ := h.1
        obtain rfl : c = d := Option.some.inj hd
        rw [hc] at hend
        exact Bool.noConfusion hend
      · rw [lines, if_neg (by rw [hc]; exact Bool.false_ne_true), hlines]
        exact hpair

theorem lines_singleton (c : Char) : lines [c] = [[c]] := by
  rw [lines]
  · split <;> rfl
  · intro u _ hu
    exact nomatch hu

/-- A line is its own only line. -/
theorem lines_of_mem {t l : Text} (h : l ∈ lines t) : lines l = [l] := by
  induction t generalizing l with
  | nil => exact absurd h List.not_mem_nil
  | cons c t ih =>
    by_cases ht : t = []
    · rw [ht, lines_singleton, List.mem_singleton] at h
      rw [h]
      exact lines_singleton c
    · cases lines_cons_cases c ht with
      | inl hends =>
        rw [hends.2] at h
        cases List.mem_cons.mp h with
        | inl hl =>
          rw [hl]
          exact lines_singleton c
        | inr hl => exact ih hl
      | inr hgoes =>
        obtain ⟨hnot, m, ms, hlines, hwhole⟩ := hgoes
        rw [hwhole] at h
        cases List.mem_cons.mp h with
        | inl hl =>
          have hone : lines m = [m] := ih (by rw [hlines]; exact List.mem_cons_self)
          have hm : m ≠ [] := by
            intro hnil
            rw [hnil] at hone
            exact nomatch hone
          have hsplit : t = m ++ ms.flatten := by
            rw [← flatten_lines t, hlines]
            rfl
          rw [hsplit, endsBetween_append hm] at hnot
          obtain ⟨-, m', ms', hm', hline⟩ :=
            (lines_cons_cases c hm).resolve_left fun h => hnot h.1
          rw [hone] at hm'
          obtain ⟨rfl, rfl⟩ := List.cons.inj hm'
          rw [hl]
          exact hline
        | inr hl => exact ih (by rw [hlines]; exact List.mem_cons_of_mem m hl)

theorem ne_nil_of_mem_lines {t l : Text} (h : l ∈ lines t) : l ≠ [] := by
  intro hnil
  have hone := lines_of_mem h
  rw [hnil] at hone
  exact nomatch hone

/-! ## Texts in a row -/

/-- Either a line ends between two texts, and each keeps its lines, or the last line of
the first and the first line of the second are one. -/
theorem lines_append_cases {s t : Text} (hs : s ≠ []) (ht : t ≠ []) :
    (EndsBetween s t ∧ lines (s ++ t) = lines s ++ lines t) ∨
      (¬ EndsBetween s t ∧ ∃ ls l m ms, lines s = ls ++ [l] ∧ lines t = m :: ms ∧
        lines (s ++ t) = ls ++ (l ++ m) :: ms) := by
  induction s with
  | nil => exact absurd rfl hs
  | cons c s ih =>
    by_cases hnil : s = []
    · rw [hnil, lines_singleton]
      cases lines_cons_cases c ht with
      | inl hends => exact Or.inl hends
      | inr hgoes =>
        obtain ⟨hnot, m, ms, hlines, hwhole⟩ := hgoes
        exact Or.inr ⟨hnot, [], [c], m, ms, rfl, hlines, hwhole⟩
    · have hst : s ++ t ≠ [] := List.append_ne_nil_of_left_ne_nil hnil t
      have hfirst := lines_cons_cases c hnil
      have hwhole := lines_cons_cases c hst
      rw [endsBetween_append hnil] at hwhole
      rw [endsBetween_cons hnil]
      -- the character does to the lines of the whole what it does to those
      -- of the first text
      cases hfirst with
      | inl hends =>
        have hlong := (hwhole.resolve_right fun h => h.1 hends.1).2
        rw [List.cons_append, hlong, hends.2]
        cases ih hnil with
        | inl h => exact Or.inl ⟨h.1, congrArg _ h.2⟩
        | inr h =>
          obtain ⟨hnot, ls, l, m, ms, hs, ht, hst⟩ := h
          exact Or.inr ⟨hnot, [c] :: ls, l, m, ms, congrArg _ hs, ht, congrArg _ hst⟩
      | inr hgoes =>
        obtain ⟨hnot, k, ks, hk, hck⟩ := hgoes
        obtain ⟨-, k', ks', hk', hck'⟩ := hwhole.resolve_left fun h => hnot h.1
        rw [List.cons_append, hck', hck]
        rw [hk, hk'] at ih
        cases ih hnil with
        | inl h =>
          obtain ⟨rfl, rfl⟩ := List.cons.inj h.2
          exact Or.inl ⟨h.1, rfl⟩
        | inr h =>
          obtain ⟨hnot, ls, l, m, ms, hs, ht, hst⟩ := h
          cases ls with
          | nil =>
            obtain ⟨hl, hls⟩ := List.cons.inj hs
            obtain ⟨hlm, hms⟩ := List.cons.inj hst
            exact Or.inr ⟨hnot, [], c :: l, m, ms, by rw [hl, hls]; rfl,
              ht, by rw [hlm, hms]; rfl⟩
          | cons n ls =>
            obtain ⟨hn, hls⟩ := List.cons.inj hs
            obtain ⟨hn', hms⟩ := List.cons.inj hst
            exact Or.inr ⟨hnot, (c :: n) :: ls, l, m, ms, by rw [hn, hls]; rfl,
              ht, by rw [hn', hms]; rfl⟩

theorem flatten_cons_ne_nil {t : Text} (ht : t ≠ []) (ts : List Text) :
    (t :: ts).flatten ≠ [] := by
  rw [List.flatten_cons]
  exact List.append_ne_nil_of_left_ne_nil ht _

/-- If a line ends between any two neighbours, texts in a row keep their lines. -/
theorem lines_flatten {ts : List Text} (hne : ∀ t ∈ ts, t ≠ [])
    (h : ts.IsChain EndsBetween) :
    lines ts.flatten = ts.flatMap lines := by
  induction ts with
  | nil => rfl
  | cons t ts ih =>
    have ht : t ≠ [] := hne t List.mem_cons_self
    have hrest := ih (fun u hu => hne u (List.mem_cons_of_mem t hu)) h.tail
    rw [List.flatMap_cons, ← hrest, List.flatten_cons]
    cases ts with
    | nil => rw [List.flatten_nil, List.append_nil, lines, List.append_nil]
    | cons u us =>
      have hu : u ≠ [] := hne u (List.mem_cons_of_mem t List.mem_cons_self)
      have hends : EndsBetween t (u :: us).flatten := (endsBetween_append hu).mpr h.rel
      exact ((lines_append_cases ht (flatten_cons_ne_nil hu us)).resolve_right fun hnot =>
        hnot.1 hends).2

/-- Texts in a row have no more lines than they have on their own, and as many only if a
line ends between any two neighbours. -/
theorem length_lines_flatten {ts : List Text} (hne : ∀ t ∈ ts, t ≠ []) :
    (lines ts.flatten).length ≤ (ts.flatMap lines).length ∧
      ((lines ts.flatten).length = (ts.flatMap lines).length →
        ts.IsChain EndsBetween) := by
  induction ts with
  | nil => exact ⟨Nat.le_refl 0, fun _ => .nil⟩
  | cons t ts ih =>
    have ht : t ≠ [] := hne t List.mem_cons_self
    obtain ⟨hle, hchain⟩ := ih fun u hu => hne u (List.mem_cons_of_mem t hu)
    rw [List.flatMap_cons, List.length_append, List.flatten_cons]
    cases ts with
    | nil =>
      rw [List.flatten_nil, List.append_nil]
      exact ⟨Nat.le_add_right _ _, fun _ => .singleton t⟩
    | cons u us =>
      have hu : u ≠ [] := hne u (List.mem_cons_of_mem t List.mem_cons_self)
      cases lines_append_cases ht (flatten_cons_ne_nil hu us) with
      | inl hends =>
        rw [hends.2, List.length_append]
        refine ⟨by omega, fun heq => ?_⟩
        exact List.isChain_cons_cons.mpr ⟨(endsBetween_append hu).mp hends.1,
          hchain (by omega)⟩
      | inr hgoes =>
        -- one line is left of two
        obtain ⟨-, ls, l, m, ms, hfirst, hsecond, hwhole⟩ := hgoes
        rw [hsecond, List.length_cons] at hle
        rw [hwhole, hfirst, List.length_append, List.length_append, List.length_cons,
          List.length_singleton]
        exact ⟨by omega, fun heq => by omega⟩

/-- Texts in a row keep their lines exactly if a line ends between any two neighbours. -/
theorem lines_flatten_iff {ts : List Text} (hne : ∀ t ∈ ts, t ≠ []) :
    lines ts.flatten = ts.flatMap lines ↔ ts.IsChain EndsBetween := by
  constructor
  · intro h
    exact (length_lines_flatten hne).2 (congrArg List.length h)
  · exact lines_flatten hne

/-- Nor can they keep their lines in another way if the endings are left out. -/
theorem bareLines_flatten_iff {ts : List Text} (hne : ∀ t ∈ ts, t ≠ []) :
    bareLines ts.flatten = ts.flatMap bareLines ↔ ts.IsChain EndsBetween := by
  have hbare : ts.flatMap bareLines = (ts.flatMap lines).map lineBody :=
    (List.map_flatMap ..).symm
  rw [hbare]
  constructor
  · intro h
    have hlength := congrArg List.length h
    rw [bareLines, List.length_map, List.length_map] at hlength
    exact (length_lines_flatten hne).2 hlength
  · intro h
    rw [bareLines, lines_flatten hne h]

theorem flatMap_lines {t : Text} {ls : List Text} (h : ls ⊆ lines t) :
    ls.flatMap lines = ls := by
  rw [List.flatMap_congr fun l hl => lines_of_mem (h hl), List.flatMap_singleton']

/-- A line ends between any two neighbours among the lines of a text. -/
theorem isChain_lines (t : Text) : (lines t).IsChain EndsBetween := by
  refine (length_lines_flatten fun l hl => ne_nil_of_mem_lines hl).2 ?_
  rw [flatten_lines, flatMap_lines fun l hl => hl]

/-- Lines that follow each other in a text are the lines of what they make. -/
theorem lines_flatten_stretch {t : Text} {ls : List Text} (h : ls <:+: lines t) :
    lines ls.flatten = ls := by
  have hchain : ls.IsChain EndsBetween := by
    obtain ⟨front, back, hsplit⟩ := h
    have hlines := isChain_lines t
    rw [← hsplit] at hlines
    exact hlines.left_of_append.right_of_append
  rw [lines_flatten (fun l hl => ne_nil_of_mem_lines (h.subset hl)) hchain,
    flatMap_lines h.subset]

end CodeWeave.Text
