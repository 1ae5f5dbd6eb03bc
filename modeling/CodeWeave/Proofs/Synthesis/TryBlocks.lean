import CodeWeave.Proofs.Synthesis.Provenance

/-!
# The first try block

A try block is `try`, an opening brace, its interior, a closing brace and `catch`, with
any white space on the inner side of `try` and of `catch`. Blocks can overlap: an
interior may hold braces and further blocks, and a block may lack its end. The reader
settles on one of them:

> `isFirst_of_tryBlock`: it starts as early as any block does, and among those that start
> there its interior is the shortest.

> `exists_tryBlock`: it finds one if there is any.

> `body_cases`: what a merge does with the block that is found, and what
it does without one.
-/

namespace CodeWeave

open Text Sensitive

namespace TryBlock

/-- The text is the block, with white space in its frame, and what is
before and after it. -/
def StandsIn (b : TryBlock) (t : Text) : Prop :=
  ∃ s₁ s₂, (∀ c ∈ s₁, isBlank c = true) ∧ (∀ c ∈ s₂, isBlank c = true) ∧
    t = b.before ++ "try".toList ++ s₁ ++ "\x7b".toList ++ b.interior ++
      "\x7d".toList ++ s₂ ++
      "catch".toList ++ b.after

/-- No block of the text starts earlier, and none that starts there has a
shorter interior. -/
structure IsFirst (b : TryBlock) (t : Text) : Prop where
  stands : b.StandsIn t
  leftmost : ∀ d : TryBlock, d.StandsIn t → b.before.length ≤ d.before.length
  shortest : ∀ d : TryBlock, d.StandsIn t → d.before = b.before → b.interior.length ≤
    d.interior.length

namespace StandsIn

variable {b : TryBlock} {t : Text}

/-- The text starts with what stands before the block, and with its keyword. -/
theorem prefix_before (h : b.StandsIn t) : b.before ++ "try".toList <+: t := by
  obtain ⟨s₁, s₂, -, -, rfl⟩ := h
  exact ⟨s₁ ++
    ("\x7b".toList ++
    (b.interior ++ ("\x7d".toList ++ (s₂ ++ ("catch".toList ++ b.after))))), by
    simp only [List.append_assoc]⟩

/-- The interior of a block is part of the text. -/
theorem infix_interior (h : b.StandsIn t) : b.interior <:+: t := by
  obtain ⟨s₁, s₂, -, -, rfl⟩ := h
  exact ⟨b.before ++ "try".toList ++ s₁ ++ "\x7b".toList, "\x7d".toList ++
    (s₂ ++ ("catch".toList ++ b.after)),
    by simp only [List.append_assoc]⟩

/-- What stands behind the block is the end of the text, up to its other keyword. -/
theorem suffix_after (h : b.StandsIn t) : "catch".toList ++ b.after <:+ t := by
  obtain ⟨s₁, s₂, -, -, rfl⟩ := h
  exact ⟨b.before ++ "try".toList ++ s₁ ++ "\x7b".toList ++ b.interior ++
    "\x7d".toList ++ s₂, by
    simp only [List.append_assoc]⟩

end StandsIn

end TryBlock

namespace Merge

/-! ## Reading a block -/

/-- A block is closed by a brace, with white space at most between the brace
and the keyword. -/
theorem readCatch_eq_some_iff {t r : Text} : readCatch t = some r ↔
    ∃ s, (∀ c ∈ s, isBlank c = true) ∧ t = "\x7d".toList ++
      (s ++ ("catch".toList ++ r)) := by
  unfold readCatch
  constructor
  · intro h
    obtain ⟨u, hu, h⟩ := Option.bind_eq_some_iff.mp h
    obtain ⟨s, hs, hsplit⟩ := exists_eq_append_trimStart u
    exact ⟨s, hs, by rw [skip_eq_some_iff.mp hu, hsplit, skip_eq_some_iff.mp h]⟩
  · intro h
    obtain ⟨s, hs, rfl⟩ := h
    rw [skip_append]
    show skip _ (trimStart (s ++ ("catch".toList ++ r))) = _
    rw [trimStart_append hs]
    exact skip_append "catch".toList r

/-- Behind the opening brace the interior is looked for. -/
theorem cutTry_append {s : Text} (hs : ∀ c ∈ s, isBlank c = true) (u : Text) :
    cutTry ("try".toList ++ (s ++ ("\x7b".toList ++ u))) = shortest readCatch u := by
  unfold cutTry
  rw [skip_append]
  show (skip "\x7b".toList (trimStart (s ++ ("\x7b".toList ++ u)))).bind _ = _
  rw [trimStart_append hs]
  show (skip "\x7b".toList ("\x7b".toList ++ u)).bind _ = _
  rw [skip_append]
  rfl

/-- A block is opened in the same way; its interior goes to the first place
that closes it. -/
theorem exists_of_cutTry {t : Text} {p : Text × Text} (h : cutTry t = some p) :
    ∃ s u, (∀ c ∈ s, isBlank c = true) ∧ t = "try".toList ++ (s ++ ("\x7b".toList ++ u)) ∧
      shortest readCatch u = some p := by
  unfold cutTry at h
  obtain ⟨v, hv, h⟩ := Option.bind_eq_some_iff.mp h
  obtain ⟨u, hu, h⟩ := Option.bind_eq_some_iff.mp h
  obtain ⟨s, hs, hsplit⟩ := exists_eq_append_trimStart v
  exact ⟨s, u, hs, by rw [skip_eq_some_iff.mp hv, hsplit, skip_eq_some_iff.mp hu], h⟩

/-! ## The block that is found -/

/-- Behind what is before a block, the reader finds an interior that is no longer
than the block's. -/
theorem exists_cutTry {s₁ s₂ : Text} (interior after : Text)
    (hs₁ : ∀ c ∈ s₁, isBlank c = true) (hs₂ : ∀ c ∈ s₂, isBlank c = true) :
    ∃ p : Text × Text, cutTry ("try".toList ++ (s₁ ++ ("\x7b".toList ++ (interior ++
      ("\x7d".toList ++ (s₂ ++ ("catch".toList ++ after))))))) = some p ∧
        p.1.length ≤ interior.length := by
  have hcatch : (readCatch ("\x7d".toList ++ (s₂ ++ ("catch".toList ++ after)))).isSome =
      true := by
    rw [readCatch_eq_some_iff.mpr ⟨s₂, hs₂, rfl⟩]
    rfl
  obtain ⟨shorter, rest, hinterior, hle⟩ := exists_shortest_le interior hcatch
  exact ⟨(shorter, rest), by rw [cutTry_append hs₁, hinterior], hle⟩

/-- If any block stands in a text, one is found that starts no later. -/
theorem exists_tryBlock {t : Text} {d : TryBlock} (h : d.StandsIn t) :
    ∃ b, tryBlock? t = some b ∧ b.before.length ≤ d.before.length := by
  obtain ⟨s₁, s₂, hs₁, hs₂, rfl⟩ := h
  obtain ⟨q, hq, _⟩ := exists_cutTry d.interior d.after hs₁ hs₂
  obtain ⟨before, p, hfirst, hle⟩ :=
    exists_shortest_le d.before (Option.isSome_iff_exists.mpr ⟨q, hq⟩)
  refine ⟨⟨before, p.1, p.2⟩, ?_, hle⟩
  unfold tryBlock? findFirst
  simp only [List.append_assoc]
  rw [hfirst]
  rfl

/-- The block that is found is the first one, with the shortest interior. -/
theorem isFirst_of_tryBlock {t : Text} {b : TryBlock} (h : tryBlock? t = some b) :
    b.IsFirst t := by
  obtain ⟨⟨before, interior, after⟩, hfirst, rfl⟩ := Option.map_eq_some_iff.mp h
  obtain ⟨m, ht, hm⟩ := shortest_sound hfirst
  refine ⟨?_, fun d hd => ?_, fun d hd hbefore => ?_⟩
  · obtain ⟨s₁, u, hs₁, hu, hinterior⟩ := exists_of_cutTry hm
    obtain ⟨v, hv, hcatch⟩ := shortest_sound hinterior
    obtain ⟨s₂, hs₂, hafter⟩ := readCatch_eq_some_iff.mp hcatch
    refine ⟨s₁, s₂, hs₁, hs₂, ?_⟩
    rw [ht, hu, hv, hafter]
    simp only [List.append_assoc]
  · obtain ⟨c, hc, hle⟩ := exists_tryBlock hd
    rw [h] at hc
    rw [← Option.some.inj hc] at hle
    exact hle
  · -- both blocks start at the same place, where the interior is read the shortest way
    obtain ⟨s₁, s₂, hs₁, hs₂, htext⟩ := hd
    obtain ⟨p, hp, hle⟩ := exists_cutTry d.interior d.after hs₁ hs₂
    rw [ht, hbefore] at htext
    simp only [List.append_assoc] at htext
    rw [← List.append_cancel_left htext, hm] at hp
    rw [← Option.some.inj hp] at hle
    exact hle

/-! ## What a merge makes of it -/

/-- What a merge makes of the bodies: the first try block is written anew around the
interior that is prescribed for it, or, if there is no block or the local body is too
short for it, one of the bodies is taken. -/
theorem body_cases (cloud loc : Segments) :
    (∃ b : TryBlock, b.IsFirst cloud.body ∧ minLocalLength < loc.body.length ∧
      body cloud loc = b.before ++ "try \x7b".toList ++
        (if isSecured loc.body then prioritized loc.body else b.interior) ++
          "\x7d catch".toList ++ b.after) ∨
    ((∀ b : TryBlock, minLocalLength < loc.body.length → ¬ b.StandsIn cloud.body) ∧
      body cloud loc = if isSecured loc.body then overrideMarker ++ '\n' :: loc.body
        else cloud.body) := by
  unfold body
  dsimp only
  split
  next b hb =>
    split
    next hlong => exact Or.inl ⟨b, isFirst_of_tryBlock hb, hlong, rfl⟩
    next hshort => exact Or.inr ⟨fun _ hlong => absurd hlong hshort, rfl⟩
  next hnone =>
    refine Or.inr ⟨fun d _ hd => ?_, rfl⟩
    obtain ⟨b, hb, _⟩ := exists_tryBlock hd
    rw [hnone] at hb
    exact nomatch hb

end Merge

end CodeWeave
