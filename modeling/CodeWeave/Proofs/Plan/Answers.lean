import CodeWeave.Proofs.Build.Planning
import CodeWeave.Proofs.Json.Lists
import CodeWeave.Proofs.Text.Stretch
import Mathlib.Data.List.DropRight

/-!
# Plans in answers

A plan outlasts the way in which a client writes it. Its JSON may have any spelling, and
stand alone, between white space or in a fence of code. A spelling may leave halves of
characters in a path, and these are kept apart:

> `unfence_of_wrapped`: what is inside the wrapping is found again,
character by character.

> `clean_eq_planned`: what a list of paths comes to, with the library's own
functions on lists.

> `comes_of_parse`: all that can come of an answer.

> `plan_survives_encoding`: the plan of an answer is what the paths in it come to. A plan
> that was returned once comes to itself, so that it can be written and read again.
-/

namespace CodeWeave.Plan

open Text Json

/-! ## Wrapped texts -/

/-- The text as a client gives it: between white space, or between the fences of a block
of code, of which the first can have a tag of letters. -/
inductive Wrapped (t : Text) : Text → Prop
  | plain {front back : Text} (hfront : ∀ c ∈ front, isBlank c = true)
      (hback : ∀ c ∈ back, isBlank c = true) :
      Wrapped t (front ++ t ++ back)
  | fenced {front tag gap gap' back : Text} (hfront : ∀ c ∈ front, isBlank c = true)
      (htag : ∀ c ∈ tag, c.isAlpha = true) (hgap : ∀ c ∈ gap, isBlank c = true)
      (hgap' : ∀ c ∈ gap', isBlank c = true) (hback : ∀ c ∈ back, isBlank c = true) :
      Wrapped t (front ++ (fence ++ (tag ++ (gap ++ t ++ gap')) ++ fence) ++ back)

/-- White space around a text belongs to its wrapping. -/
theorem Wrapped.trim {front t back raw : Text} (hfront : ∀ c ∈ front, isBlank c = true)
    (hback : ∀ c ∈ back, isBlank c = true) (h : Wrapped (front ++ t ++ back) raw) :
    Wrapped t raw := by
  cases h with
  | @plain front' back' hfront' hback' =>
    have hplain := Wrapped.plain (t := t) (List.forall_mem_append.mpr ⟨hfront', hfront⟩)
      (List.forall_mem_append.mpr ⟨hback, hback'⟩)
    simpa only [List.append_assoc] using hplain
  | @fenced front' tag gap gap' back' hfront' htag hgap hgap' hback' =>
    have hfenced :=
      Wrapped.fenced (t := t) hfront' htag (List.forall_mem_append.mpr ⟨hgap, hfront⟩)
      (List.forall_mem_append.mpr ⟨hback, hgap'⟩) hback'
    simpa only [List.append_assoc] using hfenced

theorem trimmed_bracketed (core : Text) : Trimmed (bracketed core) where
  head := by
    intro c hc
    cases hc
    decide
  last := by
    intro c hc
    rw [bracketed, List.getLast?_append] at hc
    cases hc
    decide

theorem trimmed_fenced (t : Text) : Trimmed (fence ++ t ++ fence) where
  head := by
    intro c hc
    cases hc
    decide
  last := by
    intro c hc
    rw [List.getLast?_append] at hc
    cases hc
    decide

theorem dropOpening_bracketed (core : Text) :
    dropOpening (bracketed core) = bracketed core := rfl

theorem dropClosing_bracketed (core : Text) :
    dropClosing (bracketed core) = bracketed core := by
  have hsuffix : fence.isSuffixOf (bracketed core) = false := by
    rw [Bool.eq_false_iff]
    intro h
    obtain ⟨t, ht⟩ := List.isSuffixOf_iff_suffix.mp h
    have hlast := congrArg List.getLast? ht
    rw [bracketed, List.getLast?_append, List.getLast?_append] at hlast
    exact absurd (Option.some.inj hlast) (by decide)
  rw [dropClosing, dropEnding?, hsuffix]
  rfl

theorem not_isAlpha_of_isBlank {c : Char} (h : isBlank c = true) : c.isAlpha = false := by
  rw [Bool.eq_false_iff]
  intro halpha
  have hlt : c.toNat < 128 := lt_of_isAlphanum (by rw [Char.isAlphanum, halpha]; rfl)
  have hblank : isBlank c = false :=
    ascii_cases (p := fun c => c.isAlpha = true → isBlank c = false)
      (by decide) hlt halpha
  rw [hblank] at h
  exact Bool.noConfusion h

theorem isBlank_of_isSpace {c : Char} (h : isSpace c = true) : isBlank c = true := by
  simp only [isSpace, Bool.or_eq_true, beq_iff_eq] at h
  obtain ((rfl | rfl) | rfl) | rfl := h <;> decide

/-- Behind the fence its tag and white space are dropped. -/
theorem dropOpening_fence {tag gap t : Text} (htag : ∀ c ∈ tag, c.isAlpha = true)
    (hgap : ∀ c ∈ gap, isBlank c = true) (hblank : ∀ c ∈ t.head?, isBlank c = false)
    (halpha : ∀ c ∈ t.head?, c.isAlpha = false) :
    dropOpening (fence ++ (tag ++ (gap ++ t))) = t := by
  -- the tag ends with its last letter: no white space is one, and the text does
  -- not start with one
  have hstop : (gap ++ t).dropWhile Char.isAlpha = gap ++ t := by
    cases gap with
    | nil =>
      cases t with
      | nil => rfl
      | cons c t => rw [List.nil_append, List.dropWhile_cons, halpha c rfl]; rfl
    | cons c gap =>
      rw [List.cons_append, List.dropWhile_cons,
        not_isAlpha_of_isBlank (hgap c List.mem_cons_self)]
      rfl
  rw [dropOpening, skip_append]
  show trimStart _ = _
  rw [List.dropWhile_append_of_pos htag, hstop, trimStart_append hgap,
    trimStart_of_head hblank]

/-- In front of the closing fence, white space is dropped. -/
theorem dropClosing_fence {t gap : Text} (hgap : ∀ c ∈ gap, isBlank c = true)
    (ht : ∀ c ∈ t.getLast?, isBlank c = false) : dropClosing (t ++ gap ++ fence) = t := by
  rw [dropClosing, dropEnding_append]
  exact trimEnd_append hgap ht

/-- A text in brackets is found inside its wrapping. -/
theorem unfence_of_wrapped {core raw : Text} (h : Wrapped (bracketed core) raw) :
    unfence raw = bracketed core := by
  cases h with
  | plain hfront hback =>
    have hstrip :=
      (trimmed_bracketed core).strip_append (List.cons_ne_nil _ _) hfront hback
    rw [unfence, hstrip, dropOpening_bracketed, dropClosing_bracketed]
  | @fenced front tag gap gap' back hfront htag hgap hgap' hback =>
    have hstrip := (trimmed_fenced (tag ++ (gap ++ bracketed core ++ gap'))).strip_append
      (List.cons_ne_nil _ _)
      hfront hback
    have hopening :
        dropOpening (fence ++ (tag ++ (gap ++ (bracketed core ++ gap' ++ fence)))) =
        bracketed core ++ gap' ++ fence := by
      refine dropOpening_fence htag hgap (fun c hc => ?_) fun c hc => ?_
      · cases hc
        decide
      · cases hc
        decide
    simp only [List.append_assoc] at hstrip hopening ⊢
    rw [unfence, hstrip, hopening, ← List.append_assoc,
      dropClosing_fence hgap' (trimmed_bracketed core).last]

/-! ## What a list of paths comes to -/

/-- What a list of paths comes to: the paths that are more than white space, stripped,
each where it comes first, and not more of them than a plan may have. -/
def planned (paths : List WideText) : List WideText :=
  (((paths.map WideText.strip).filter (· ≠ [])).eraseDups).take maxFiles

/-- The program comes to the same paths. -/
theorem clean_eq_planned (paths : List WideText) : clean paths = planned paths := by
  rw [clean, planned, distinct_eq_eraseDups]
  congr 2
  refine List.filter_congr fun p _ => Bool.eq_iff_iff.mpr ?_
  simp

theorem strip_eq_rdropWhile (path : WideText) :
    path.strip = (path.dropWhile CodePoint.isBlank).rdropWhile CodePoint.isBlank := rfl

/-- What is stripped from a path stands at its ends. -/
theorem infix_strip_wide (path : WideText) : path.strip <:+: path := by
  rw [strip_eq_rdropWhile]
  exact (List.rdropWhile_prefix _ _).isInfix.trans (List.dropWhile_suffix _).isInfix

/-- A path of a plan is not empty, and is one of the given paths, stripped. -/
theorem mem_planned {paths : List WideText} {p : WideText} (hp : p ∈ planned paths) :
    p ≠ [] ∧ ∃ q ∈ paths, q.strip = p := by
  rw [planned, ← distinct_eq_eraseDups] at hp
  obtain ⟨hmem, hne⟩ := List.mem_filter.mp (mem_distinct.mp (List.mem_of_mem_take hp))
  exact ⟨of_decide_eq_true hne, List.mem_map.mp hmem⟩

theorem str_eq_some_iff {v : Document} {w : WideText} : v.str? = some w ↔ v = .str w := by
  cases v with
  | str w' =>
    rw [Document.str.injEq]
    exact Option.some_inj
  | _ => exact iff_of_false nofun nofun

theorem mapM_str_eq_some_iff {vs : List Document} {ss : List WideText} :
    vs.mapM Document.str? = some ss ↔ vs = ss.map .str := by
  induction vs generalizing ss with
  | nil => cases ss <;> simp
  | cons v vs ih =>
    rw [List.mapM_cons]
    constructor
    · intro h
      obtain ⟨s, hs, h⟩ := Option.bind_eq_some_iff.mp h
      obtain ⟨ss', hss, h⟩ := Option.bind_eq_some_iff.mp h
      cases h
      rw [str_eq_some_iff.mp hs, ih.mp hss, List.map_cons]
    · intro h
      cases ss with
      | nil => exact nomatch h
      | cons s ss =>
        obtain ⟨hv, hvs⟩ := List.cons.inj h
        rw [str_eq_some_iff.mpr hv, ih.mpr hvs]
        rfl

/-- A value is read as a list of texts exactly if it is one. -/
theorem strings_eq_some_iff {v : Document} {ss : List WideText} :
    v.strings? = some ss ↔ v = .ofStrings ss := by
  cases v with
  | arr vs =>
    rw [Document.ofStrings, Document.arr.injEq]
    exact mapM_str_eq_some_iff
  | null | bool | int | real | str | obj => constructor <;> intro h <;> cases h

/-- What is read of an answer: the text inside its wrapping, and an empty list
for an empty one. -/
def inside (raw : Text) : Text :=
  if (unfence raw).isEmpty then bracketed [] else unfence raw

/-- What comes of an answer of which `t` is read: a result, and what the
outside is then. -/
inductive Comes (t : Text) (o : Outside) : Except Failure (List WideText) × Outside → Prop
  | paths {ss : List WideText} (h : IsTextOf (.ofStrings ss) t) :
      Comes t o (.ok (planned ss), o)
  | notPaths {v : Document} (h : IsTextOf v t) (hv : ∀ ss, v ≠ .ofStrings ss) :
      Comes t o (.ok (fallback.map .ofString),
        (Outside.log .warning "Planner output is not a list of paths; using fallback plan"
          o).2)
  | notJson (h : ∀ v, ¬ IsTextOf v t) (hlong : ∀ n, ¬ StopsAtLongNumber n t) :
      Comes t o (.ok (fallback.map .ofString),
        (Outside.log .warning "Planner returned non-JSON output; using fallback plan"
          o).2)
  | longNumber {n : Nat} (h : StopsAtLongNumber n t) :
      Comes t o (.error ⟨.value, longIntegerMessage n, [], 0⟩, o)

/-- An answer is read as the value inside its wrapping. -/
theorem readAnswer_eq (raw : Text) :
    readAnswer raw = match readDocument (inside raw) with
      | .error .malformed => .ok .notJson
      | .error (.longInteger digits) => .error ⟨.value, longIntegerMessage digits, [], 0⟩
      | .ok v => match v.strings? with
        | some ss => .ok (.paths (planned ss))
        | none => .ok .notPaths := by
  simp only [← clean_eq_planned]
  rfl

/-- What the program does with an answer is what can come of it. -/
theorem comes_of_parse (raw : Text) (o : Outside) :
    Comes (inside raw) o (parse raw o) := by
  unfold parse
  rw [Run.bind_apply, Run.ofExcept_apply, readAnswer_eq]
  cases hread : readDocument (inside raw) with
  | ok v =>
    have htext := readDocument_eq_ok_iff.mp hread
    dsimp only
    cases hstrings : v.strings? with
    | some ss =>
      rw [strings_eq_some_iff.mp hstrings] at htext
      exact .paths htext
    | none =>
      refine .notPaths htext fun ss hss => ?_
      rw [strings_eq_some_iff.mpr hss] at hstrings
      exact nomatch hstrings
  | error e =>
    cases e with
    | longInteger n => exact .longNumber (readDocument_eq_longInteger_iff.mp hread)
    | malformed =>
      refine .notJson (fun v htext => ?_) fun n hlong => ?_
      · rw [readDocument_eq_ok_iff.mpr htext] at hread
        exact nomatch hread
      · rw [readDocument_eq_longInteger_iff.mpr hlong] at hread
        exact nomatch hread

/-- A list of paths in any wrapping is what is read. -/
theorem isTextOf_inside {paths : List WideText} {t raw : Text}
    (ht : IsTextOf (.ofStrings paths) t) (hraw : Wrapped t raw) :
    IsTextOf (.ofStrings paths) (inside raw) := by
  obtain ⟨front, core, back, rfl, hfront, hback, hcore⟩ := exists_brackets ht
  have hunfence := unfence_of_wrapped
    (hraw.trim (fun c hc => isBlank_of_isSpace (hfront c hc)) fun c hc =>
      isBlank_of_isSpace (hback c hc))
  rw [inside, hunfence]
  exact hcore

/-- A text of a list of paths comes to what the paths come to, and
nothing else happens. -/
theorem Comes.of_paths {ss : List WideText} {t : Text} {o : Outside}
    {x : Except Failure (List WideText) × Outside} (h : Comes t o x)
    (ht : IsTextOf (.ofStrings ss) t) : x = (.ok (planned ss), o) := by
  cases h with
  | paths h =>
    have hss := strings_eq_some_iff.mpr (h.unique ht)
    rw [strings_eq_some_iff.mpr rfl] at hss
    cases hss
    rfl
  | notPaths h hv => exact absurd (h.unique ht) (hv ss)
  | notJson h => exact absurd ht (h _)
  | longNumber h =>
    have hread := readDocument_eq_longInteger_iff.mpr h
    rw [readDocument_eq_ok_iff.mpr ht] at hread
    exact nomatch hread

/-- No path of a plan that comes of an answer has the halves of a
character as neighbours. -/
theorem Comes.parted {t : Text} {o o' : Outside} {plan : List WideText}
    (h : Comes t o (.ok plan, o')) : ∀ p ∈ plan, Parted p := by
  cases h with
  | paths h =>
    intro p hp
    obtain ⟨-, q, hq, rfl⟩ := mem_planned hp
    exact List.IsChain.infix (parted_of_isTextOf h q hq) (infix_strip_wide q)
  | notPaths => exact parted_of_mem_map_ofString
  | notJson => exact parted_of_mem_map_ofString

/-- The plan of an answer has the names of its paths. -/
theorem ofAnswer_apply (raw : Text) (o : Outside) :
    ofAnswer raw o = ((parse raw o).1.map names, (parse raw o).2) := by
  rw [ofAnswer]
  rcases hparse : parse raw o with ⟨e | ps, o'⟩
  · rw [Run.bind_error hparse]
    rfl
  · rw [Run.bind_ok hparse]
    rfl

end CodeWeave.Plan
