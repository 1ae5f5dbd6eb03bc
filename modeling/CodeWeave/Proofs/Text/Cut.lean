import CodeWeave.Text.Scan

/-!
# Cuts

`Pattern.pieces` cuts a text at the occurrences of a pattern, and `Pattern.replace` puts
the pieces together again with every occurrence exchanged. This file says what the cut is,
without its recursion, and where a word of the new text can stand among the pieces:

> `cut_pieces`: the pieces are a `Cut`. Where a plain character stands the reader finds
> nothing, and a hit is exactly what the reader passes over.

> `Placed.of_render`: a word of the put-together text is made of plain characters only, or
> it starts inside an exchanged occurrence, or it runs from plain characters into one.

A reader is judged by the words that it accepts (`Accepts`), so that the search for a
pattern becomes the search for one of its words (`occurs_iff`). A replacement that changes
a text leaves one of its new texts in it (`replace_eq_self_or_infix`).
-/

namespace CodeWeave.Text

/-! ## Putting pieces together -/

/-- The text of the pieces, with `new` for each occurrence. With `id` it is the
text that was cut. -/
def render (new : Text → Text) (ps : List Piece) : Text :=
  ps.flatMap fun
    | .plain c => [c]
    | .hit h => new h

@[simp] theorem render_nil (new : Text → Text) : render new [] = [] := rfl

@[simp] theorem render_plain (new : Text → Text) (c : Char) (ps : List Piece) :
    render new (.plain c :: ps) = c :: render new ps := rfl

@[simp] theorem render_hit (new : Text → Text) (h : Text) (ps : List Piece) :
    render new (.hit h :: ps) = new h ++ render new ps := rfl

@[simp] theorem render_append (new : Text → Text) (ps qs : List Piece) :
    render new (ps ++ qs) = render new ps ++ render new qs := List.flatMap_append

@[simp] theorem render_map_plain (new : Text → Text) (w : Text) :
    render new (w.map .plain) = w := by
  induction w with
  | nil => rfl
  | cons c cs ih => rw [List.map_cons, render_plain, ih]

theorem replace_eq_render (p : Pattern) (new : Text → Text) (t : Text) :
    p.replace new t = render new (p.pieces t) := rfl

/-! ## What the cut is -/

/-- What the reader passes over is never empty. -/
def Advances (read : Text → Option Text) : Prop :=
  ∀ t r, read t = some r → ∃ h, h ≠ [] ∧ t = h ++ r

/-- `Cut read ps t`: the pieces `ps` are the text `t`, cut at what the reader finds, the
leftmost first. -/
inductive Cut (read : Text → Option Text) : List Piece → Text → Prop where
  | nil : Cut read [] []
  | plain {c : Char} {cs : Text} {ps : List Piece} (free : read (c :: cs) = none)
      (rest : Cut read ps cs) : Cut read (.plain c :: ps) (c :: cs)
  | hit {h r : Text} {ps : List Piece} (nonempty : h ≠ [])
      (found : read (h ++ r) = some r)
      (rest : Cut read ps r) : Cut read (.hit h :: ps) (h ++ r)

theorem ofReader_eq_none {read : Text → Option Text} {t : Text} (h : read t = none) :
    Pattern.ofReader read t = none := by
  rw [Pattern.ofReader, h]
  rfl

theorem ofReader_append {read : Text → Option Text} {h r : Text}
    (found : read (h ++ r) = some r) :
    Pattern.ofReader read (h ++ r) = some h.length := by
  rw [Pattern.ofReader, found]
  show some ((h ++ r).length - r.length) = some h.length
  rw [List.length_append, Nat.add_sub_cancel]

/-- The pieces of a text are a cut of it. -/
theorem cut_pieces {read : Text → Option Text} (adv : Advances read) (t : Text) :
    Cut read ((Pattern.ofReader read).pieces t) t := by
  -- on the length: a hit is passed over as a whole
  induction hn : t.length using Nat.strongRecOn generalizing t with
  | ind n ih =>
    cases t with
    | nil => rw [Pattern.pieces]; exact .nil
    | cons c cs =>
      rw [Pattern.pieces]
      cases hread : read (c :: cs) with
      | none =>
        rw [ofReader_eq_none hread]
        exact .plain hread (ih cs.length (by rw [← hn]; exact Nat.lt_succ_self _) cs rfl)
      | some r =>
        obtain ⟨h, hne, heq⟩ := adv _ _ hread
        cases h with
        | nil => exact absurd rfl hne
        | cons d ds =>
          rw [List.cons_append, List.cons.injEq] at heq
          obtain ⟨rfl, rfl⟩ := heq
          have hfound : read ((c :: ds) ++ r) = some r := hread
          have hlen : r.length < n := by
            rw [← hn, List.length_cons, List.length_append]
            omega
          rw [← List.cons_append, ofReader_append hfound]
          simp only [List.length_cons, List.take_left, List.drop_left]
          exact .hit hne hfound (ih r.length hlen r rfl)

namespace Cut

variable {read : Text → Option Text} {ps front back : List Piece} {t : Text}

/-- Put together without any exchange, the pieces are the text. -/
theorem render_id (h : Cut read ps t) : render id ps = t := by
  induction h with
  | nil => rfl
  | plain _ _ ih => rw [render_plain, ih]
  | hit _ _ _ ih => rw [render_hit, ih]; rfl

/-- The cut of a text is unique. -/
theorem pieces_eq (h : Cut read ps t) : (Pattern.ofReader read).pieces t = ps := by
  induction h with
  | nil => rw [Pattern.pieces]
  | plain free _ ih => rw [Pattern.pieces, ofReader_eq_none free, ih]
  | @hit x r ps nonempty found _ ih =>
    obtain ⟨c, cs, rfl⟩ := List.exists_cons_of_ne_nil nonempty
    have hread := ofReader_append found
    rw [List.cons_append] at hread ⊢
    rw [Pattern.pieces, hread]
    simp only [List.length_cons, List.take_left, List.drop_left]
    rw [ih]

/-- What remains after some pieces is cut as if it stood alone. -/
theorem suffix (h : Cut read (front ++ back) t) : Cut read back (render id back) := by
  induction front generalizing t with
  | nil =>
    rw [List.nil_append] at h
    rw [h.render_id]
    exact h
  | cons p front ih =>
    cases h with
    | plain _ rest => exact ih rest
    | hit _ _ rest => exact ih rest

/-- Where a character stands outside, nothing is found. -/
theorem read_plain {c : Char} (h : Cut read (front ++ .plain c :: back) t) :
    read (c :: render id back) = none := by
  have hsuffix := h.suffix
  rw [render_plain] at hsuffix
  cases hsuffix with
  | plain free _ => exact free

/-- Where an occurrence stands, just it is found. -/
theorem read_hit {x : Text} (h : Cut read (front ++ .hit x :: back) t) :
    x ≠ [] ∧ read (x ++ render id back) = some (render id back) := by
  have hsuffix := h.suffix
  rw [render_hit] at hsuffix
  generalize hr : render id back = r at hsuffix ⊢
  generalize hu : id x ++ r = u at hsuffix
  cases hsuffix with
  | hit nonempty found rest =>
    have hrest := rest.render_id
    rw [hr] at hrest
    subst hrest
    exact ⟨nonempty, found⟩

theorem found_of_mem {x : Text} (h : Cut read ps t) (hx : .hit x ∈ ps) :
    ∃ r, read (x ++ r) = some r := by
  obtain ⟨front, back, rfl⟩ := List.append_of_mem hx
  exact ⟨render id back, h.read_hit.2⟩

end Cut

/-! ## Words and where they stand -/

/-- The reader succeeds exactly where a word of `L` stands. -/
def Accepts (read : Text → Option Text) (L : Text → Prop) : Prop :=
  ∀ t, (read t).isSome = true ↔ ∃ w r, t = w ++ r ∧ L w

/-- A word of `L` stands somewhere in the text. -/
def Occurs (L : Text → Prop) (t : Text) : Prop := ∃ l w r, t = l ++ (w ++ r) ∧ L w

theorem isSome_ofReader (read : Text → Option Text) (t : Text) :
    (Pattern.ofReader read t).isSome = (read t).isSome := by
  rw [Pattern.ofReader, Option.isSome_map]

/-- A pattern occurs exactly if one of its words does. -/
theorem occurs_iff {read : Text → Option Text} {L : Text → Prop} (acc : Accepts read L)
    (t : Text) :
    (Pattern.ofReader read).occurs t = true ↔ Occurs L t := by
  induction t with
  | nil =>
    rw [Pattern.occurs, isSome_ofReader, acc]
    constructor
    · rintro ⟨w, r, h, hw⟩
      exact ⟨[], w, r, h, hw⟩
    · rintro ⟨l, w, r, h, hw⟩
      obtain ⟨rfl, hnil⟩ := List.append_eq_nil_iff.mp h.symm
      exact ⟨w, r, hnil.symm, hw⟩
  | cons c cs ih =>
    rw [Pattern.occurs, Bool.or_eq_true, isSome_ofReader, acc, ih]
    constructor
    · rintro (⟨w, r, h, hw⟩ | ⟨l, w, r, h, hw⟩)
      · exact ⟨[], w, r, h, hw⟩
      · exact ⟨c :: l, w, r, by rw [h]; rfl, hw⟩
    · rintro ⟨l, w, r, h, hw⟩
      cases l with
      | nil => exact Or.inl ⟨w, r, h, hw⟩
      | cons d l =>
        rw [List.cons_append, List.cons.injEq] at h
        exact Or.inr ⟨l, w, r, h.2, hw⟩

/-- No word starts at a plain character of a cut: the reader would have found it. -/
theorem Cut.not_word_at {read : Text → Option Text} {L : Text → Prop}
    (acc : Accepts read L) {front back : List Piece} {run t : Text}
    (cut : Cut read (front ++ run.map .plain ++ back) t) (hne : run ≠ []) {w r : Text}
    (h : run ++ render id back = w ++ r) : ¬ L w := by
  intro hw
  cases run with
  | nil => exact hne rfl
  | cons c cs =>
    rw [List.append_assoc, List.map_cons, List.cons_append] at cut
    have hnone := cut.read_plain
    rw [render_append, render_map_plain] at hnone
    have hsome := (acc _).mpr ⟨w, r, h, hw⟩
    rw [List.cons_append, hnone] at hsome
    exact Bool.noConfusion hsome

/-- Plain characters of a cut never make a word. -/
theorem Cut.not_word {read : Text → Option Text} {L : Text → Prop} (acc : Accepts read L)
    {front back : List Piece} {w t : Text} (cut : Cut read (front ++ w.map .plain ++ back)
      t) (hne : w ≠ []) : ¬ L w := cut.not_word_at acc hne rfl

/-- A cut into plain characters only has no word anywhere. -/
theorem Cut.not_occurs {read : Text → Option Text} {L : Text → Prop}
    (acc : Accepts read L) (hL : ∀ w, L w → w ≠ []) {t : Text}
    (cut : Cut read (t.map .plain) t) : ¬ Occurs L t := by
  rintro ⟨l, w, r, ht, hw⟩
  have hparts : Cut read (l.map .plain ++ w.map .plain ++ r.map .plain) t := by
    rw [List.append_assoc, ← List.map_append, ← List.map_append, ← ht]
    exact cut
  exact hparts.not_word acc (hL w hw) hw

/-- Where a word `w` of the put-together text stands, with `l` before it
and `r` behind it. -/
inductive Placed (new : Text → Text) (ps : List Piece) (l w r : Text) : Prop where
  /-- It is made of plain characters. -/
  | clear (front back : List Piece) (split : ps = front ++ w.map .plain ++ back)
      (before : l = render new front) (behind : r = render new back)
  /-- It starts inside an exchanged occurrence, at `b`. -/
  | within (front : List Piece) (x : Text) (back : List Piece) (a b : Text)
      (split : ps = front ++ .hit x :: back) (cutAt : new x = a ++ b) (nonempty : b ≠ [])
      (before : l = render new front ++ a) (overlap : w ++ r = b ++ render new back)
  /-- It starts with the plain characters `run` and goes on, with `s`, into an exchanged
  occurrence. -/
  | into (front : List Piece) (run x : Text) (back : List Piece) (s : Text)
      (split : ps = front ++ run.map .plain ++ .hit x :: back) (start : run ≠ [])
      (goesOn : s ≠ [])
      (word : w = run ++ s) (before : l = render new front)
      (overlap : s ++ r = new x ++ render new back)

/-- A place in the put-together text is at a plain character or inside an
exchanged occurrence. -/
theorem render_eq_append {new : Text → Text} {ps : List Piece} {l m : Text} (hm : m ≠ [])
    (h : render new ps = l ++ m) :
    (∃ front c back, ps = front ++ .plain c :: back ∧ l = render new front ∧
      m = c :: render new back) ∨
    ∃ front x back a b, ps = front ++ .hit x :: back ∧ new x = a ++ b ∧ b ≠ [] ∧
      l = render new front ++ a ∧ m = b ++ render new back := by
  induction ps generalizing l with
  | nil =>
    obtain ⟨_, hm'⟩ := List.append_eq_nil_iff.mp h.symm
    exact absurd hm' hm
  | cons p ps ih =>
    -- a place behind the first piece is a place among the others
    have hbehind : ∀ {l' : Text}, render new ps = l' ++ m → l = render new [p] ++ l' →
        (∃ front c back, p :: ps = front ++ .plain c :: back ∧ l = render new front ∧
          m = c :: render new back) ∨
        ∃ front x back a b, p :: ps = front ++ .hit x :: back ∧ new x = a ++ b ∧ b ≠ [] ∧
          l = render new front ++ a ∧ m = b ++ render new back := by
      intro l' hps hl
      rcases ih hps with ⟨front, c, back, hsplit, hl', hm'⟩ |
        ⟨front, x, back, a, b, hsplit, hx, hb, hl', hm'⟩
      · exact Or.inl ⟨p :: front, c, back, by rw [hsplit]; rfl, by
          rw [hl, hl', ← render_append]; rfl, hm'⟩
      · exact Or.inr ⟨p :: front, x, back, a, b, by rw [hsplit]; rfl, hx, hb, by
          rw [hl, hl', ← List.append_assoc, ← render_append]; rfl, hm'⟩
    cases p with
    | plain c =>
      rw [render_plain] at h
      cases l with
      | nil => exact Or.inl ⟨[], c, ps, rfl, rfl, h.symm⟩
      | cons d l =>
        rw [List.cons_append, List.cons.injEq] at h
        obtain ⟨rfl, htail⟩ := h
        exact hbehind htail rfl
    | hit x =>
      rw [render_hit] at h
      rcases List.append_eq_append_iff.mp h with ⟨a', hl, hps⟩ | ⟨b, hx, hm'⟩
      · exact hbehind hps (by rw [hl, render_hit, render_nil, List.append_nil])
      · cases b with
        | nil =>
          have hps : render new ps = [] ++ m := hm'.symm
          refine hbehind hps ?_
          rw [render_hit, render_nil, hx, List.append_nil, List.append_nil,
            List.append_nil]
        | cons d b =>
          exact Or.inr ⟨[], x, ps, l, d :: b, rfl, hx, List.cons_ne_nil d b, rfl, hm'⟩

/-- The start of the put-together text is made of plain characters up to the
first occurrence. -/
theorem render_eq_append_left {new : Text → Text} {ps : List Piece} {w r : Text}
    (h : render new ps = w ++ r) :
    (∃ back, ps = w.map .plain ++ back ∧ r = render new back) ∨
    ∃ run x back s, ps = run.map .plain ++ .hit x :: back ∧ w = run ++ s ∧ s ≠ [] ∧
      s ++ r = new x ++ render new back := by
  induction w generalizing ps with
  | nil => exact Or.inl ⟨ps, rfl, h.symm⟩
  | cons c w ih =>
    cases ps with
    | nil => exact absurd h (by simp)
    | cons p ps =>
      -- a plain piece is the next character of the word, and a hit ends the run
      cases p with
      | plain d =>
        rw [render_plain, List.cons_append, List.cons.injEq] at h
        obtain ⟨rfl, htail⟩ := h
        rcases ih htail with ⟨back, hsplit, hr⟩ | ⟨run, x, back, s, hsplit, hw, hs, hr⟩
        · exact Or.inl ⟨back, by rw [hsplit]; rfl, hr⟩
        · exact Or.inr ⟨d :: run, x, back, s, by rw [hsplit]; rfl, by rw [hw]; rfl, hs,
            hr⟩
      | hit x => exact Or.inr ⟨[], x, ps, c :: w, rfl, rfl, List.cons_ne_nil c w, h.symm⟩

/-- Every word of the put-together text has its place among the pieces. -/
theorem Placed.of_render {new : Text → Text} {ps : List Piece} {l w r : Text}
    (hw : w ≠ []) (h : render new ps = l ++ (w ++ r)) : Placed new ps l w r := by
  rcases render_eq_append (fun hnil => hw (List.append_eq_nil_iff.mp hnil).1) h with
    ⟨front, c, back, hsplit, hl, hm⟩ | ⟨front, x, back, a, b, hsplit, hx, hb, hl, hm⟩
  · have hstart : render new (.plain c :: back) = w ++ r := hm.symm
    rcases render_eq_append_left hstart with ⟨rest, hrest, hr⟩ |
      ⟨run, x, rest, s, hrest, hws, hs, hr⟩
    · exact .clear front rest (by rw [hsplit, hrest, List.append_assoc]) hl hr
    · refine .into front run x rest s (by rw [hsplit, hrest, List.append_assoc])
        ?_ hs hws hl hr
      rintro rfl
      exact absurd hrest (by simp)
  · exact .within front x back a b hsplit hx hb hl hm

/-! ## Where runs of characters end -/

/-- A text made of characters of one kind ends, as the beginning of another, where the
first character of a different kind stands. -/
theorem prefix_of_append_eq {p : Char → Prop} {s u r z : Text} {d : Char}
    (hs : ∀ c ∈ s, p c) (hd : ¬ p d) (h : s ++ r = u ++ d :: z) : s <+: u := by
  rcases List.append_eq_append_iff.mp h with ⟨o, hu, _⟩ | ⟨o, hso, hz⟩
  · exact ⟨o, hu.symm⟩
  · cases o with
    | nil => exact ⟨[], by rw [hso, List.append_nil, List.append_nil]⟩
    | cons e o =>
      rw [List.cons_append, List.cons.injEq] at hz
      refine absurd (hs d ?_) hd
      rw [hso, hz.1]
      exact List.mem_append_right u List.mem_cons_self

/-- The longest beginning of one kind is unique. -/
theorem append_cons_inj {p : Char → Prop} {u v y z : Text} {d e : Char}
    (hu : ∀ c ∈ u, p c) (hd : ¬ p d) (hv : ∀ c ∈ v, p c) (he : ¬ p e)
    (h : u ++ d :: y = v ++ e :: z) :
    u = v ∧ d :: y = e :: z := by
  have huv := (prefix_of_append_eq hu he h).length_le
  have hvu := (prefix_of_append_eq hv hd h.symm).length_le
  exact List.append_inj h (Nat.le_antisymm huv hvu)

/-- Characters of the put-together text that no exchange brings in are plain. -/
theorem plain_mem_of_mem_render {new : Text → Text} {ps : List Piece} {c : Char}
    (hnew : ∀ x, .hit x ∈ ps → c ∉ new x) (h : c ∈ render new ps) :
    Piece.plain c ∈ ps := by
  obtain ⟨p, hp, hc⟩ := List.mem_flatMap.mp h
  cases p with
  | plain d =>
    rw [List.mem_singleton] at hc
    rw [hc]
    exact hp
  | hit x => exact absurd hc (hnew x hp)

theorem mem_render_of_plain_mem (new : Text → Text) {ps : List Piece} {c : Char}
    (h : Piece.plain c ∈ ps) : c ∈ render new ps :=
  List.mem_flatMap.mpr ⟨.plain c, h, List.mem_singleton.mpr rfl⟩

/-! ## What stays where it is -/

section Stays

variable {read : Text → Option Text} {ps : List Piece} {t : Text}

/-- A character that no occurrence holds stays, and the text behind it is
cut on its own. -/
theorem Cut.exists_split {a b : Text} {c : Char} (h : Cut read ps (a ++ c :: b))
    (hc : ∀ x, .hit x ∈ ps → c ∉ x) :
    ∃ front back, ps = front ++ .plain c :: back ∧ render id front = a ∧
      Cut read back b := by
  rcases render_eq_append (List.cons_ne_nil c b) h.render_id with
    ⟨front, d, back, hsplit, ha, hb⟩ | ⟨front, x, back, u, z, hsplit, hx, hz, _, hb⟩
  · obtain ⟨rfl, hback⟩ := List.cons.inj hb
    refine ⟨front, back, hsplit, ha.symm, ?_⟩
    rw [hsplit, List.append_cons] at h
    rw [hback]
    exact h.suffix
  · -- within an occurrence the character would be part of it
    exfalso
    obtain ⟨e, z, rfl⟩ := List.exists_cons_of_ne_nil hz
    obtain rfl : c = e := (List.cons.inj hb).1
    refine hc x (by rw [hsplit]; exact List.mem_append_right front List.mem_cons_self) ?_
    rw [show x = u ++ c :: z from hx]
    exact List.mem_append_right u List.mem_cons_self

/-- An occurrence at the head of a text is exchanged, and the text
behind it on its own. -/
theorem replace_append_of_found (adv : Advances read) (new : Text → Text) {x r : Text}
    (nonempty : x ≠ []) (found : read (x ++ r) = some r) :
    (Pattern.ofReader read).replace new (x ++ r) =
      new x ++ (Pattern.ofReader read).replace new r := by
  have hcut := Cut.hit nonempty found (cut_pieces adv r)
  rw [replace_eq_render, replace_eq_render, hcut.pieces_eq, render_hit]

end Stays

/-! ## Texts that replacing leaves alone -/

/-- A text in which nothing occurs stays as it is. -/
theorem replace_eq_self {read : Text → Option Text} {L : Text → Prop}
    (adv : Advances read) (acc : Accepts read L) (new : Text → Text) {t : Text}
    (h : ¬ Occurs L t) :
    (Pattern.ofReader read).replace new t = t := by
  rw [replace_eq_render]
  have hcut := cut_pieces adv t
  generalize (Pattern.ofReader read).pieces t = ps at hcut
  induction hcut with
  | nil => rfl
  | @plain c cs ps free rest ih =>
    rw [render_plain, ih]
    rintro ⟨l, w, r, hcs, hw⟩
    exact h ⟨c :: l, w, r, by rw [hcs]; rfl, hw⟩
  | hit nonempty found rest ih =>
    exfalso
    obtain ⟨w, r, hwr, hw⟩ := (acc _).mp (Option.isSome_of_eq_some found)
    exact h ⟨[], w, r, hwr, hw⟩

/-- Conversely, a text that replacing leaves alone has no occurrences, if each one would
change its first character. -/
theorem not_occurs_of_replace_eq_self {read : Text → Option Text} {L : Text → Prop}
    (adv : Advances read) (acc : Accepts read L) {new : Text → Text}
    (hchange : ∀ x r, read (x ++ r) = some r → (new x).head? ≠ x.head?)
    (hnew : ∀ x, new x ≠ []) (hL : ∀ w, L w → w ≠ []) {t : Text}
    (h : (Pattern.ofReader read).replace new t = t) : ¬ Occurs L t := by
  rw [replace_eq_render] at h
  have hcut := cut_pieces adv t
  have hplain : (Pattern.ofReader read).pieces t = t.map .plain := by
    -- up to the first hit the texts agree, and there the first characters differ
    generalize (Pattern.ofReader read).pieces t = ps at hcut h
    induction hcut with
    | nil => rfl
    | plain _ _ ih =>
      rw [render_plain] at h
      rw [ih (List.cons.inj h).2]
      rfl
    | @hit x r ps nonempty found _ _ =>
      exfalso
      rw [render_hit] at h
      refine hchange x r found ?_
      have hhead := congrArg List.head? h
      cases hnx : new x with
      | nil => exact absurd hnx (hnew x)
      | cons d ds =>
        cases x with
        | nil => exact absurd rfl nonempty
        | cons c cs =>
          rw [hnx] at hhead
          exact hhead
  rw [hplain] at hcut
  exact hcut.not_occurs acc hL

section Change

variable {read : Text → Option Text} {ps : List Piece} {t : Text}

theorem render_eq_of_no_hit (new : Text → Text) (h : ∀ x, .hit x ∉ ps) :
    render new ps = render id ps := by
  induction ps with
  | nil => rfl
  | cons p ps ih =>
    have htail := ih fun x hx => h x (List.mem_cons_of_mem p hx)
    cases p with
    | plain c => rw [render_plain, render_plain, htail]
    | hit x => exact absurd List.mem_cons_self (h x)

/-- Replacing leaves a text alone, or what it puts in is part of the new text. -/
theorem replace_eq_self_or_infix (adv : Advances read) (new : Text → Text) (t : Text) :
    (Pattern.ofReader read).replace new t = t ∨
      ∃ x, .hit x ∈ (Pattern.ofReader read).pieces t ∧
        new x <:+: (Pattern.ofReader read).replace new t := by
  by_cases hhit : ∃ x, Piece.hit x ∈ (Pattern.ofReader read).pieces t
  · obtain ⟨x, hx⟩ := hhit
    refine Or.inr ⟨x, hx, ?_⟩
    obtain ⟨front, back, hsplit⟩ := List.append_of_mem hx
    rw [replace_eq_render, hsplit, render_append, render_hit]
    exact ⟨render new front, render new back, List.append_assoc _ _ _⟩
  · refine Or.inl ?_
    rw [replace_eq_render, render_eq_of_no_hit new fun x hx => hhit ⟨x, hx⟩]
    exact (cut_pieces adv t).render_id

theorem render_ne_nil {new : Text → Text} (hps : ps ≠ [])
    (hnew : ∀ x, .hit x ∈ ps → new x ≠ []) :
    render new ps ≠ [] := by
  obtain ⟨p, qs, rfl⟩ := List.exists_cons_of_ne_nil hps
  cases p with
  | plain c => exact List.cons_ne_nil c _
  | hit x => exact List.append_ne_nil_of_left_ne_nil (hnew x List.mem_cons_self) _

/-- If no occurrence is replaced by nothing, a text does not become empty. -/
theorem replace_ne_nil (adv : Advances read) {new : Text → Text}
    (hnew : ∀ x r, read (x ++ r) = some r → new x ≠ []) (ht : t ≠ []) :
    (Pattern.ofReader read).replace new t ≠ [] := by
  have cut := cut_pieces adv t
  rw [replace_eq_render]
  refine render_ne_nil (fun hnil => ?_) fun x hx => ?_
  · rw [hnil] at cut
    exact ht cut.render_id.symm
  · obtain ⟨r, hr⟩ := cut.found_of_mem hx
    exact hnew x r hr

end Change

/-! ## What replacing does to a count -/

section Count

variable {new : Text → Text} {ps : List Piece} (p : Char → Bool)

/-- If no exchange adds to a count of characters, the whole pass does not. -/
theorem countP_render_le (h : ∀ x, .hit x ∈ ps → (new x).countP p ≤ x.countP p) :
    (render new ps).countP p ≤ (render id ps).countP p := by
  induction ps with
  | nil => exact Nat.le_refl _
  | cons q ps ih =>
    have htail := ih fun x hx => h x (List.mem_cons_of_mem q hx)
    cases q with
    | plain c =>
      rw [render_plain, render_plain, List.countP_cons, List.countP_cons]
      omega
    | hit x =>
      have hx := h x List.mem_cons_self
      rw [render_hit, render_hit, List.countP_append, List.countP_append, id_eq]
      omega

/-- If every exchange takes from a count of characters, a pass that leaves the count has
exchanged nothing. -/
theorem plain_of_countP_render (h : ∀ x, .hit x ∈ ps → (new x).countP p < x.countP p)
    (hle : (render id ps).countP p ≤ (render new ps).countP p) :
    ps = (render id ps).map .plain := by
  induction ps with
  | nil => rfl
  | cons q ps ih =>
    have hps : ∀ x, .hit x ∈ ps → (new x).countP p < x.countP p := fun x hx =>
      h x (List.mem_cons_of_mem q hx)
    cases q with
    | plain c =>
      rw [render_plain, render_plain, List.countP_cons, List.countP_cons] at hle
      rw [render_plain, List.map_cons, ← ih hps (by omega)]
    | hit x =>
      -- what this exchange takes, no other one gives back
      have hx := h x List.mem_cons_self
      have htail := countP_render_le p fun y hy => Nat.le_of_lt (hps y hy)
      rw [render_hit, render_hit, List.countP_append, List.countP_append, id_eq] at hle
      omega

variable {read : Text → Option Text} {L : Text → Prop}

/-- Replacing does not add to a count if no exchange does. -/
theorem countP_replace_le (adv : Advances read)
    (h : ∀ x r, read (x ++ r) = some r → (new x).countP p ≤ x.countP p) (t : Text) :
    ((Pattern.ofReader read).replace new t).countP p ≤ t.countP p := by
  have cut := cut_pieces adv t
  rw [replace_eq_render]
  generalize (Pattern.ofReader read).pieces t = ps at cut ⊢
  rw [← cut.render_id]
  refine countP_render_le p fun x hx => ?_
  obtain ⟨r, hr⟩ := cut.found_of_mem hx
  exact h x r hr

/-- A text whose count stands although every exchange takes from it has no occurrences. -/
theorem not_occurs_of_countP_le (adv : Advances read) (acc : Accepts read L)
    (hL : ∀ w, L w → w ≠ []) (h : ∀ x r, read (x ++ r) = some r → (new x).countP p <
      x.countP p) {t : Text} (hle : t.countP p ≤
      ((Pattern.ofReader read).replace new t).countP p) :
    ¬ Occurs L t := by
  have cut := cut_pieces adv t
  rw [replace_eq_render] at hle
  generalize (Pattern.ofReader read).pieces t = ps at cut hle
  rw [← cut.render_id] at hle
  have hplain : ps = (render id ps).map .plain := by
    refine plain_of_countP_render p (fun x hx => ?_) hle
    obtain ⟨r, hr⟩ := cut.found_of_mem hx
    exact h x r hr
  rw [cut.render_id] at hplain
  rw [hplain] at cut
  exact cut.not_occurs acc hL

end Count

end CodeWeave.Text
