import CodeWeave.Proofs.Synthesis.Resegment

/-!
# The interior of a component

A component without parameters starts with a fixed header, and its body should be all that
stands between the header and the last closing brace. But the reader looks for the
parameters as far to the right on the line as it can, so a parenthesis within the interior
ends them if a brace comes behind it:

> `interior_split`: of two places from which an interior is read, the later one lies
> within the interior that is read from the earlier one.

> `interior_cases`: so what is read is the whole interior, or what stands behind the last
> such brace of its first line.

> `body_component_iff`: the body is the whole interior exactly if there is no such brace.

`body_loses_condition` has a component on one line, whose body starts
within its first `if`.
-/

namespace CodeWeave

open Text Sensitive

/-! ## Readers and white space -/

namespace Text

/-- The longest way to a place where the reader succeeds is no shorter than any other. -/
theorem exists_longest_ge {α : Type} {stop : Char → Bool} {next : Text → Option α}
    {l m : Text} (hl : ∀ c ∈ l, stop c = false) (hm : (next m).isSome = true) :
    ∃ l' m' a, longest stop next (l ++ m) = some a ∧ l ++ m = l' ++ m' ∧
      (∀ c ∈ l', stop c = false) ∧
      next m' = some a ∧ l.length ≤ l'.length := by
  induction l with
  | nil =>
    obtain ⟨a, ha⟩ := Option.isSome_iff_exists.mp (longest_complete hl hm)
    obtain ⟨l', m', hsplit, hl', hm'⟩ := longest_sound ha
    exact ⟨l', m', a, ha, hsplit, hl', hm', Nat.zero_le _⟩
  | cons c l ih =>
    obtain ⟨l', m', a, ha, hsplit, hl', hm', hle⟩ :=
      ih fun d hd => hl d (List.mem_cons_of_mem c hd)
    have hc : stop c = false := hl c List.mem_cons_self
    refine ⟨c :: l', m', a, ?_, congrArg (List.cons c) hsplit, ?_, hm',
      Nat.succ_le_succ hle⟩
    · rw [List.cons_append, longest, hc, ha]
      rfl
    · intro d hd
      cases List.mem_cons.mp hd with
      | inl heq => rw [heq, hc]
      | inr hmem => exact hl' d hmem

/-- A reader that fails at every place of a text starts behind it. -/
theorem shortest_append {α : Type} {next : Text → Option α} {l m : Text} {a : α}
    (hl : ∀ u c v, l = u ++ c :: v → next (c :: (v ++ m)) = none) (hm : next m = some a) :
    shortest next (l ++ m) = some (l, a) := by
  induction l with
  | nil =>
    cases m with
    | nil =>
      rw [List.nil_append, shortest, hm]
      rfl
    | cons c cs => rw [List.nil_append, shortest, hm]
  | cons c l ih =>
    have hhere : next (c :: (l ++ m)) = none := hl [] c l rfl
    have hrest := ih fun u d v huv => hl (c :: u) d v (by rw [huv]; rfl)
    rw [List.cons_append, shortest, hhere, hrest]
    rfl

/-- Two tables without a common range have no common number. -/
theorem not_inRanges_of_disjoint {rs ss : List (Nat × Nat)} {n : Nat}
    (h : (rs.all fun r => ss.all fun s => decide (r.2 < s.1 ∨ s.2 < r.1)) = true)
    (hn : inRanges rs n = true) : inRanges ss n = false := by
  obtain ⟨r, hr, hin⟩ := List.any_eq_true.mp hn
  refine List.any_eq_false.mpr fun s hs hout => ?_
  have hapart := of_decide_eq_true (List.all_eq_true.mp (List.all_eq_true.mp h r hr) s hs)
  simp only [Bool.and_eq_true, decide_eq_true_eq] at hin hout
  omega

/-- A letter, a number or the underscore is no white space. -/
theorem isBlank_of_isWord {c : Char} (h : isWord c = true) : isBlank c = false := by
  have hapart : ¬ (9 ≤ c.toNat ∧ c.toNat ≤ 13) ∧ ¬ (28 ≤ c.toNat ∧ c.toNat ≤ 32) ∧
      inRanges blankRanges c.toNat = false := by
    unfold isWord at h
    split at h
    next hascii =>
      -- within ASCII the white space comes before the digits
      have hle : 48 ≤ c.toNat := by
        cases Bool.or_eq_true_iff.mp h with
        | inl halnum => exact (toNat_of_isAlphanum halnum).1
        | inr hline =>
          rw [eq_of_beq hline]
          decide
      have hdigits : inRanges [(48, 127)] c.toNat = true := by
        simp [inRanges]
        omega
      exact ⟨by omega, by omega, not_inRanges_of_disjoint (by decide) hdigits⟩
    next =>
      exact ⟨by omega, by omega, not_inRanges_of_disjoint (by decide +kernel) h⟩
  unfold isBlank
  rw [hapart.2.2]
  simp
  omega

theorem count_eq_zero_of_blanks {s : Text} (hs : ∀ c ∈ s, isBlank c = true) {c : Char}
    (hc : isBlank c = false) : s.count c = 0 := by
  refine List.count_eq_zero_of_not_mem fun hmem => ?_
  rw [hs c hmem] at hc
  exact Bool.noConfusion hc

theorem count_trimStart {c : Char} (hc : isBlank c = false) (t : Text) :
    (trimStart t).count c = t.count c := by
  obtain ⟨s, hs, ht⟩ := exists_eq_append_trimStart t
  have hcount := congrArg (List.count c) ht
  rw [List.count_append, count_eq_zero_of_blanks hs hc, Nat.zero_add] at hcount
  exact hcount.symm

/-- Stripping takes white space only. -/
theorem count_strip {c : Char} (hc : isBlank c = false) (t : Text) :
    (strip t).count c = t.count c := by
  have hend : (trimEnd (trimStart t)).count c = (trimStart t).count c := by
    rw [trimEnd, List.count_reverse]
    exact (count_trimStart hc (trimStart t).reverse).trans List.count_reverse
  rw [strip, hend, count_trimStart hc]

/-- What stands before the last character of a kind is found again. -/
theorem beforeLast_append {c : Char} {i z : Text} (hz : c ∉ z) :
    beforeLast c (i ++ c :: z) = some i := by
  induction i with
  | nil =>
    rw [List.nil_append, beforeLast, beforeLast_eq_none_iff.mpr hz]
    exact if_pos rfl
  | cons d i ih =>
    rw [List.cons_append, beforeLast, ih]

end Text

namespace Segment

/-! ## The header -/

/-- How a component without parameters starts. -/
def header (name : Text) : Text :=
  "export default function ".toList ++ name ++ "() \x7b".toList

/-- What follows the parameters of a component, up to the last closing brace. -/
def interiorBehind? (t : Text) : Option Text := do
  let r ← skip ")".toList t
  let r ← skip "\x7b".toList (trimStart r)
  beforeLast '\x7d' r

theorem interiorBehind?_eq_some_iff {t i : Text} :
    interiorBehind? t = some i ↔ ∃ s z, (∀ c ∈ s, isBlank c = true) ∧ '\x7d' ∉ z ∧
      t = ')' :: (s ++ '\x7b' :: (i ++ '\x7d' :: z)) := by
  constructor
  · intro h
    obtain ⟨t₁, h₁, h⟩ := Option.bind_eq_some_iff.mp h
    obtain ⟨t₂, h₂, h⟩ := Option.bind_eq_some_iff.mp h
    obtain ⟨z, ht₂, hz⟩ := exists_of_beforeLast h
    obtain ⟨s, hs, ht₁⟩ := exists_eq_append_trimStart t₁
    refine ⟨s, z, hs, hz, ?_⟩
    rw [skip_eq_some_iff.mp h₁, ht₁, skip_eq_some_iff.mp h₂, ht₂]
    rfl
  · rintro ⟨s, z, hs, hz, rfl⟩
    have hopen : skip "\x7b".toList (trimStart (s ++ '\x7b' :: (i ++ '\x7d' :: z))) =
        some (i ++ '\x7d' :: z) := by
      rw [trimStart_append hs, trimStart_cons (by decide)]
      exact skip_append "\x7b".toList _
    show ((skip ")".toList (")".toList ++ (s ++ '\x7b' :: (i ++ '\x7d' :: z)))).bind fun r =>
      (skip "\x7b".toList (trimStart r)).bind (beforeLast '\x7d')) = some i
    rw [skip_append, Option.bind_some, hopen, Option.bind_some, beforeLast_append hz]

/-- Behind its name, a component is read from the last place on the line that works. -/
theorem componentInterior_header {name : Text} (hname : name ≠ [])
    (hword : ∀ c ∈ name, isWord c = true) (r : Text) :
    componentInterior? (header name ++ r) =
      longest (· == '\n') interiorBehind? (')' :: ' ' :: '\x7b' :: r) := by
  obtain ⟨htake, hdrop⟩ :=
    takeWhile_append_of_neg hword (d := '(') (by decide) (')' :: ' ' :: '\x7b' :: r)
  have hstart : trimStart (name ++ '(' :: ')' :: ' ' :: '\x7b' :: r) =
      name ++ '(' :: ')' :: ' ' :: '\x7b' :: r := by
    obtain ⟨c, cs, rfl⟩ := List.exists_cons_of_ne_nil hname
    exact trimStart_cons (isBlank_of_isWord (hword c List.mem_cons_self)) _
  have hsplit : header name ++ r = "export".toList ++
      (' ' :: ("default".toList ++ (' ' :: ("function".toList ++
      (' ' :: (name ++ '(' :: ')' :: ' ' :: '\x7b' :: r)))))) := by
    unfold header
    simp
  have hblanks : ∀ x, skipBlanks (' ' :: x) = some (trimStart x) := fun _ => rfl
  have hdefault : ∀ x, trimStart ("default".toList ++ x) = "default".toList ++ x :=
    fun _ => rfl
  have hfunction : ∀ x, trimStart ("function".toList ++ x) = "function".toList ++ x :=
    fun _ => rfl
  have hparen : ∀ x, skip "(".toList (trimStart ('(' :: x)) = some x :=
    fun x => skip_append "(".toList x
  unfold componentInterior?
  simp only [hsplit, skip_append, hblanks, hdefault, hfunction, hstart, htake, hdrop,
    hparen, Option.bind_eq_bind, Option.bind_some, List.isEmpty_eq_false_iff.mpr hname]
  rfl

/-! ## Where the parameters end -/

/-- Within the first line of the text, a parenthesis is followed by an opening brace, and
`v` stands behind that. -/
def Reopens (t v : Text) : Prop :=
  ∃ u s, '\n' ∉ u ∧ (∀ c ∈ s, isBlank c = true) ∧ t = u ++ ')' :: (s ++ '\x7b' :: v)

/-- What stands behind the brace has fewer parentheses. -/
theorem Reopens.count_lt {t v : Text} (h : Reopens t v) : v.count ')' < t.count ')' := by
  obtain ⟨u, s, _, _, rfl⟩ := h
  have hbehind : (s ++ '\x7b' :: v).count ')' = s.count ')' + v.count ')' := by
    rw [List.count_append, List.count_cons_of_ne (by decide)]
  rw [List.count_append, List.count_cons_self, hbehind]
  omega

/-- The last character of a kind splits a text in one way only. -/
theorem append_last_inj {c : Char} {a b y z : Text} (hy : c ∉ y) (hz : c ∉ z)
    (h : a ++ c :: y = b ++ c :: z) : a = b :=
  (prefix_of_last hz h).eq_of_length_le (prefix_of_last hy h.symm).length_le

/-- A later place from which an interior is read lies within the interior that is read
from an earlier one. -/
theorem interior_split {s s' x i l y z : Text} (hs : ∀ c ∈ s, isBlank c = true)
    (hs' : ∀ c ∈ s', isBlank c = true) (hy : '\x7d' ∉ y) (hz : '\x7d' ∉ z)
    (h : ')' :: (s ++ '\x7b' :: (x ++ '\x7d' :: y)) = l ++ ')' ::
      (s' ++ '\x7b' :: (i ++ '\x7d' :: z))) :
    i = x ∨ ∃ u, l = ')' :: (s ++ '\x7b' :: u) ∧ x = u ++ ')' :: (s' ++ '\x7b' :: i) := by
  cases l with
  | nil =>
    obtain ⟨_, hbrace⟩ := List.cons.inj h
    obtain ⟨_, hinterior⟩ := append_cons_inj hs (by decide) hs' (by decide) hbrace
    exact Or.inl (append_last_inj hy hz (List.cons.inj hinterior).2).symm
  | cons c l =>
    obtain ⟨rfl, hbehind⟩ := List.cons.inj h
    -- the later parenthesis is neither white space nor the brace
    have hopen : ∀ c ∈ s ++ ['\x7b'], c ≠ ')' := by
      intro c hc heq
      rw [heq] at hc
      cases List.mem_append.mp hc with
      | inl hmem => exact absurd (hs _ hmem) (by decide)
      | inr hmem => exact absurd hmem (by decide)
    obtain ⟨u, rfl⟩ :=
      prefix_of_append_eq hopen (by simp)
      ((List.append_cons s '\x7b' _).symm.trans hbehind)
    have hinterior :
        x ++ '\x7d' :: y = (u ++ ')' :: (s' ++ '\x7b' :: i)) ++ '\x7d' :: z := by
      simpa using hbehind
    exact Or.inr ⟨u, by simp, append_last_inj hy hz hinterior⟩

/-- A component without parameters has an interior. It is all that stands
between the header and the last closing brace, or what stands behind the last
place where that reopens. -/
theorem interior_cases {name post : Text} (rest : Text) (hname : name ≠ [])
    (hword : ∀ c ∈ name, isWord c = true) (hpost : '\x7d' ∉ post) :
    ∃ i, componentInterior? (header name ++ (rest ++ '\x7d' :: post)) = some i ∧
      (i = rest ∨ Reopens rest i) ∧
      ∀ v, Reopens rest v → i <:+ v := by
  have hblank : ∀ c ∈ [' '], isBlank c = true := forall_mem_of_all (by decide)
  have hwhole : interiorBehind? (')' :: ' ' :: '\x7b' :: (rest ++ '\x7d' :: post)) =
      some rest :=
    interiorBehind?_eq_some_iff.mpr ⟨[' '], post, hblank, hpost, rfl⟩
  have hsome : (longest (· == '\n') interiorBehind?
      ([] ++ ')' :: ' ' :: '\x7b' :: (rest ++ '\x7d' :: post))).isSome = true :=
    longest_complete (fun c hc => absurd hc List.not_mem_nil)
      (Option.isSome_of_eq_some hwhole)
  obtain ⟨i, hi⟩ := Option.isSome_iff_exists.mp hsome
  rw [List.nil_append] at hi
  refine
    ⟨i, (componentInterior_header hname hword (rest ++ '\x7d' :: post)).trans hi, ?_, ?_⟩
  · obtain ⟨l, m, hsplit, hl, hm⟩ := longest_sound hi
    obtain ⟨s, z, hs, hz, rfl⟩ := interiorBehind?_eq_some_iff.mp hm
    cases interior_split hblank hs hpost hz hsplit with
    | inl hwhole => exact Or.inl hwhole
    | inr hlater =>
      obtain ⟨u, rfl, hrest⟩ := hlater
      refine Or.inr ⟨u, s, fun hmem => ?_, hs, hrest⟩
      have hstop := hl '\n' (by simp [hmem])
      exact absurd hstop (by decide)
  · intro v ⟨u, s, hu, hs, hrest⟩
    have hline : ∀ c ∈ ')' :: ' ' :: '\x7b' :: u, (c == '\n') = false := by
      intro c hc
      refine beq_eq_false_iff_ne.mpr fun heq => ?_
      rw [heq] at hc
      simp [hu] at hc
    have hv : interiorBehind? (')' :: (s ++ '\x7b' :: (v ++ '\x7d' :: post))) = some v :=
      interiorBehind?_eq_some_iff.mpr ⟨s, post, hs, hpost, rfl⟩
    obtain ⟨l, m, a, ha, hsplit, _, hm, hle⟩ :=
      exists_longest_ge hline (Option.isSome_of_eq_some hv)
    have hreads : ')' :: ' ' :: '\x7b' :: (rest ++ '\x7d' :: post) =
        (')' :: ' ' :: '\x7b' :: u) ++ ')' :: (s ++ '\x7b' :: (v ++ '\x7d' :: post)) := by
      rw [hrest]
      simp
    rw [← hreads, hi] at ha
    obtain rfl : i = a := Option.some.inj ha
    obtain ⟨s', z, hs', hz, rfl⟩ := interiorBehind?_eq_some_iff.mp hm
    -- the reader stops no earlier than here
    obtain ⟨o, rfl⟩ := List.prefix_of_prefix_length_le ⟨_, rfl⟩ ⟨_, hsplit.symm⟩ hle
    rw [List.append_assoc] at hsplit
    cases interior_split hs hs' hpost hz (List.append_cancel_left hsplit) with
    | inl heq => rw [heq]
    | inr hlater =>
      obtain ⟨w, _, hw⟩ := hlater
      exact ⟨w ++ ')' :: (s' ++ ['\x7b']), by rw [hw]; simp⟩

/-! ## Where the component starts -/

/-- A prefix that starts with the only letter of its kind in it does not reach into a text
that starts with that letter too. -/
theorem prefix_of_prefix_append {c : Char} {w x m : Text} (hw : c ∉ w) (hx : x ≠ [])
    (hm : m.head? = some c) (h : c :: w <+: x ++ m) : c :: w <+: x := by
  obtain ⟨r, hr⟩ := h
  cases List.append_eq_append_iff.mp hr with
  | inl hshort =>
    obtain ⟨o, ho, _⟩ := hshort
    exact ⟨o, ho.symm⟩
  | inr hlong =>
    obtain ⟨o, ho, hmo⟩ := hlong
    cases o with
    | nil => exact ⟨[], by rw [ho, List.append_nil, List.append_nil]⟩
    | cons d o =>
      obtain ⟨e, x, rfl⟩ := List.exists_cons_of_ne_nil hx
      rw [hmo, List.cons_append, List.head?_cons] at hm
      obtain ⟨_, htail⟩ := List.cons.inj ho
      refine absurd ?_ hw
      rw [htail, ← Option.some.inj hm]
      exact List.mem_append_right x List.mem_cons_self

theorem starts_of_component {t i : Text} (h : componentInterior? t = some i) :
    exportWord <+: t := by
  obtain ⟨r, hr, _⟩ := Option.bind_eq_some_iff.mp h
  exact ⟨r, (skip_eq_some_iff.mp hr).symm⟩

/-- No component starts in a text without the keyword. -/
theorem component_append {pre m i : Text} (hpre : ¬ exportWord <:+: pre)
    (hm : componentInterior? m = some i) : component? (pre ++ m) = some i := by
  have hhead : m.head? = some 'e' := by
    obtain ⟨r, rfl⟩ := starts_of_component hm
    rfl
  have hnone : ∀ u c v, pre = u ++ c :: v →
      componentInterior? (c :: (v ++ m)) = none := by
    intro u c v hsplit
    refine Option.eq_none_iff_forall_ne_some.mpr fun j hj => hpre ?_
    have hwithin : exportWord <+: c :: v :=
      prefix_of_prefix_append (w := "xport".toList) (by decide) (List.cons_ne_nil c v)
        hhead (starts_of_component hj)
    rw [hsplit]
    exact hwithin.isInfix.trans (List.suffix_append u _).isInfix
  unfold component? findFirst
  rw [shortest_append hnone hm]
  rfl

/-! ## The body -/

/-- The body of a component without parameters is the interior between its header and the
last closing brace, stripped, exactly if this interior reopens nowhere on its first line.
Otherwise the body is what stands behind the last such place, stripped. -/
theorem body_component_iff {pre name post : Text} (rest : Text)
    (hpre : ¬ exportWord <:+: pre) (hname : name ≠ [])
    (hword : ∀ c ∈ name, isWord c = true) (hpost : '\x7d' ∉ post) :
    let t := pre ++ "export default function ".toList ++ name ++ "() \x7b".toList ++
      rest ++ "\x7d".toList ++ post
    (body t = strip rest ↔ ∀ v, ¬ Reopens rest v) ∧
      ((∃ v, Reopens rest v) →
        ∃ w, Reopens rest w ∧ (∀ v, Reopens rest v → w <:+ v) ∧ body t = strip w) := by
  intro t
  obtain ⟨i, hi, hcases, hlast⟩ := interior_cases rest hname hword hpost
  have hbody : body t = strip i := by
    have ht : t = pre ++ (header name ++ (rest ++ '\x7d' :: post)) := by
      unfold t header
      simp
    unfold body
    rw [ht, component_append hpre hi]
  have hfewer : ∀ v, Reopens rest v → i.count ')' < rest.count ')' := fun v hv =>
    Nat.lt_of_le_of_lt ((hlast v hv).sublist.count_le ')') hv.count_lt
  rw [hbody]
  refine ⟨⟨?_, ?_⟩, ?_⟩
  · intro heq v hv
    have hparens := congrArg (List.count ')') heq
    rw [count_strip (by decide), count_strip (by decide)] at hparens
    exact absurd hparens (Nat.ne_of_lt (hfewer v hv))
  · intro hnot
    cases hcases with
    | inl hwhole => rw [hwhole]
    | inr hreopens => exact absurd hreopens (hnot i)
  · intro ⟨v, hv⟩
    cases hcases with
    | inl hwhole =>
      exact absurd (congrArg (List.count ')') hwhole) (Nat.ne_of_lt (hfewer v hv))
    | inr hreopens => exact ⟨i, hreopens, hlast, rfl⟩

/-- A body of several lines, in which the first line has nothing but the header. -/
theorem body_component_of_lines :
    ¬ exportWord <:+: "import a;\n".toList ∧ "A".toList ≠ [] ∧
      (∀ c ∈ "A".toList, isWord c = true) ∧
      '\x7d' ∉ "\n".toList ∧
      body "import a;\nexport default function A() \x7b\n  if (x) \x7b y \x7d\n\x7d\n".toList =
        "if (x) \x7b y \x7d".toList := by
  have hpre : ¬ exportWord <:+: "import a;\n".toList := by decide
  have hname : "A".toList ≠ [] := by decide
  have hword : ∀ c ∈ "A".toList, isWord c = true := forall_mem_of_all (by decide)
  have hpost : '\x7d' ∉ "\n".toList := by decide
  obtain ⟨hwhole, _⟩ :=
    body_component_iff "\n  if (x) \x7b y \x7d\n".toList hpre hname hword hpost
  refine ⟨hpre, hname, hword, hpost, (hwhole.mpr ?_).trans (by decide)⟩
  -- the first parenthesis comes behind the line feed
  intro v ⟨u, s, hu, hs, hrest⟩
  cases u with
  | nil => exact absurd (List.cons.inj hrest).1 (by decide)
  | cons c u =>
    obtain ⟨rfl, _⟩ := List.cons.inj hrest
    exact hu List.mem_cons_self

/-- A condition and its brace on the line of the header are taken for the end of the
parameters, and the body loses them. -/
theorem body_loses_condition :
    let rest := " if (x) \x7b y \x7d ".toList
    let t := "export default function ".toList ++ "A".toList ++ "() \x7b".toList ++
      rest ++ "\x7d".toList
    body t = "y \x7d".toList ∧ strip rest = "if (x) \x7b y \x7d".toList ∧
      body t ≠ strip rest := by
  decide +kernel

end Segment

end CodeWeave
