import CodeWeave.Proofs.Json.Numbers
import CodeWeave.Proofs.Json.Strings
import CodeWeave.Proofs.Text.Stretch
import Mathlib.Data.List.Infix

/-!
# The grammar of JSON

What a text denotes as JSON is described here without the reader: `Denotes` for a value,
for the items of a list and for the fields of an object, and `Stops` for a text in which a
whole number with too many digits comes before anything that is not JSON. White space is
passed over between the parts. The reader agrees with both:

> `reads`, by induction on the fuel: what the reader makes of a text is what the
grammar says of it.

> `Denotes.found`, `Stops.refuses`, by induction on a derivation: with enough fuel
the reader finds it.

> `readDocument_eq_ok_iff`, `readDocument_eq_longInteger_iff`: so a whole text is read
> as a value exactly if it denotes the value, and refused for a long number exactly if
> it stops at one.
-/

namespace CodeWeave.Json

open Text

/-- What a stretch of a text is read as: a value, the items of a list up to its
closing bracket, or what the fields of an object up to its closing brace make of the
fields before them. -/
inductive Part where
  | value (v : Document)
  | items (vs : List Document)
  | fields (before after : List (WideText × Document))

/-- The stretch at the head of a text that denotes the part, with what follows it. -/
inductive Denotes : Part → Text → Text → Prop
  | string {t r : Text} {cs : WideText} (h : Chars t cs r) :
      Denotes (.value (.str cs)) ('"' :: t) r
  | word {w r : Text} {v : Document} (h : (w, v) ∈ words) : Denotes (.value v) (w ++ r) r
  | number {t r : Text} {n : Numeral} {v : Document} (h : Number t n r)
      (hv : n.value = .ok v) : Denotes (.value v) t r
  | emptyList {t r : Text} (h : skipSpace t = ']' :: r) :
      Denotes (.value (.arr [])) ('[' :: t) r
  | list {t r : Text} {vs : List Document} (h : Denotes (.items vs) (skipSpace t) r) :
      Denotes (.value (.arr vs)) ('[' :: t) r
  | emptyObject {t r : Text} (h : skipSpace t = '\x7d' :: r) :
      Denotes (.value (.obj [])) ('\x7b' :: t) r
  | object {t r : Text} {fs : List (WideText × Document)}
      (h : Denotes (.fields [] fs) (skipSpace t) r) :
      Denotes (.value (.obj fs)) ('\x7b' :: t) r
  | lastItem {t u r : Text} {v : Document} (h : Denotes (.value v) t u)
      (hclose : skipSpace u = ']' :: r) :
      Denotes (.items [v]) t r
  | item {t u s r : Text} {v : Document} {vs : List Document} (h : Denotes (.value v) t u)
      (hcomma : skipSpace u = ',' :: s) (hrest : Denotes (.items vs) (skipSpace s) r) :
      Denotes (.items (v :: vs)) t r
  | lastField {t u s w r : Text} {key : WideText} {v : Document}
      {fs : List (WideText × Document)} (hkey : Chars t key u)
      (hcolon : skipSpace u = ':' :: s) (h : Denotes (.value v) (skipSpace s) w)
      (hclose : skipSpace w = '\x7d' :: r) :
      Denotes (.fields fs (setField fs key v)) ('"' :: t) r
  | field {t u s w x r : Text} {key : WideText} {v : Document}
      {fs gs : List (WideText × Document)} (hkey : Chars t key u)
      (hcolon : skipSpace u = ':' :: s) (h : Denotes (.value v) (skipSpace s) w)
      (hcomma : skipSpace w = ',' :: x)
      (hrest : Denotes (.fields (setField fs key v) gs) (skipSpace x) r) :
      Denotes (.fields fs gs) ('"' :: t) r

/-- A place where a value, the items of a list or the fields of an object are read. -/
inductive Place where
  | value
  | items
  | fields

/-- From the place on the text is JSON up to a whole number with `n` digits,
which are too many. -/
inductive Stops (n : Nat) : Place → Text → Prop
  | number {t r : Text} {m : Numeral} (h : Number t m r) (hfraction : m.fraction = none)
      (hexponent : m.exponent = none) (hlength : m.whole.length = n)
      (hlong : Number.maxDigits < n) :
      Stops n .value t
  | list {t : Text} (h : Stops n .items (skipSpace t)) : Stops n .value ('[' :: t)
  | object {t : Text} (h : Stops n .fields (skipSpace t)) : Stops n .value ('\x7b' :: t)
  | item {t : Text} (h : Stops n .value t) : Stops n .items t
  | nextItem {t u s : Text} {v : Document} (h : Denotes (.value v) t u)
      (hcomma : skipSpace u = ',' :: s)
      (hrest : Stops n .items (skipSpace s)) : Stops n .items t
  | field {t u s : Text} {key : WideText} (hkey : Chars t key u)
      (hcolon : skipSpace u = ':' :: s)
      (h : Stops n .value (skipSpace s)) : Stops n .fields ('"' :: t)
  | nextField {t u s w x : Text} {key : WideText} {v : Document} (hkey : Chars t key u)
      (hcolon : skipSpace u = ':' :: s) (h : Denotes (.value v) (skipSpace s) w)
      (hcomma : skipSpace w = ',' :: x)
      (hrest : Stops n .fields (skipSpace x)) : Stops n .fields ('"' :: t)

/-! ## Words and numbers -/

/-- No word is the beginning of another, so the word that is read is the one
that stands there. -/
theorem readWord_eq_some_iff {t r : Text} {v : Document} :
    readWord t = some (v, r) ↔ ∃ w, (w, v) ∈ words ∧ t = w ++ r := by
  constructor
  · intro h
    obtain ⟨⟨w, v'⟩, hmem, hw⟩ := List.exists_of_findSome?_eq_some h
    obtain ⟨u, hu, heq⟩ := Option.map_eq_some_iff.mp hw
    cases heq
    exact ⟨w, hmem, (List.isPrefixOf?_eq_some_iff_append_eq.mp hu).symm⟩
  · intro h
    obtain ⟨w, hmem, rfl⟩ := h
    simp only [words, List.mem_cons, List.not_mem_nil, or_false, Prod.mk.injEq] at hmem
    rcases hmem with ⟨rfl, rfl⟩ | ⟨rfl, rfl⟩ | ⟨rfl, rfl⟩ | ⟨rfl, rfl⟩ | ⟨rfl, rfl⟩ |
      ⟨rfl, rfl⟩ <;> rfl

/-- The characters that a word can start with. -/
theorem head_of_word {w : Text} {v : Document} (h : (w, v) ∈ words) :
    ∃ c u, w = c :: u ∧ c ∈ "ntfNI-".toList ∧ (c = '-' → u.head? = some 'I') := by
  simp only [words, List.mem_cons, List.not_mem_nil, or_false, Prod.mk.injEq] at h
  rcases h with ⟨rfl, rfl⟩ | ⟨rfl, rfl⟩ | ⟨rfl, rfl⟩ | ⟨rfl, rfl⟩ | ⟨rfl, rfl⟩ |
    ⟨rfl, rfl⟩ <;>
    exact ⟨_, _, rfl, by decide, by decide⟩

/-- A number is no word. -/
theorem readWord_of_number {t r : Text} {n : Numeral} (h : Number t n r) :
    readWord t = none := by
  cases hword : readWord t with
  | none => rfl
  | some p =>
    obtain ⟨v, u⟩ := p
    obtain ⟨w, hmem, rfl⟩ := readWord_eq_some_iff.mp hword
    obtain ⟨d, s, rfl, hd, hminus⟩ := head_of_word hmem
    obtain ⟨c, x, hc, hsplit⟩ := h.head
    have hletters : ∀ e ∈ "ntfNI-".toList, e.isDigit = false :=
      forall_mem_of_all (by decide)
    cases hsplit with
    | inl hsplit =>
      rw [(List.cons.inj hsplit).1] at hd
      rw [hletters c hd] at hc
      exact Bool.noConfusion hc
    | inr hsplit =>
      obtain ⟨hhead, htail⟩ := List.cons.inj hsplit
      obtain ⟨y, rfl⟩ := List.head?_eq_some_iff.mp (hminus hhead)
      rw [← (List.cons.inj htail).1] at hc
      exact absurd hc (by decide)

/-- Only a whole number can have too many digits. -/
theorem value_eq_longInteger_iff {m : Numeral} {n : Nat} :
    m.value = .error (.longInteger n) ↔
      m.fraction = none ∧ m.exponent = none ∧ m.whole.length = n ∧
        Number.maxDigits < n := by
  obtain ⟨negative, whole, fraction, exponent⟩ := m
  cases fraction with
  | some ds => exact iff_of_false (fun h => nomatch h) fun h => nomatch h.1
  | none =>
    cases exponent with
    | some e => exact iff_of_false (fun h => nomatch h) fun h => nomatch h.2.1
    | none =>
      show (if Number.maxDigits < whole.length then _ else _) = _ ↔ _
      by_cases hlong : Number.maxDigits < whole.length
      · rw [if_pos hlong]
        constructor
        · intro h
          cases h
          exact ⟨rfl, rfl, rfl, hlong⟩
        · intro h
          rw [h.2.2.1]
      · rw [if_neg hlong]
        refine iff_of_false (fun h => nomatch h) fun h => hlong ?_
        rw [h.2.2.1]
        exact h.2.2.2

/-! ## What the reader makes of a text -/

/-- What was read is right, as far as something was read, and so is the refusal
of a long number. -/
def Reads {α : Type} (p : Place) (part : α → Part) (t : Text) :
    Except ReadError (α × Text) → Prop
  | .ok (a, r) => Denotes (part a) t r
  | .error (.longInteger n) => Stops n p t
  | .error .malformed => True

/-- Words and numbers: the reader gives the value, or stops at the number if
it is too long. -/
theorem reads_scalar (t : Text) : Reads .value .value t (readScalar t) := by
  unfold readScalar
  split
  next p hword =>
    obtain ⟨v, r⟩ := p
    obtain ⟨w, hmem, rfl⟩ := readWord_eq_some_iff.mp hword
    exact .word hmem
  next =>
    split
    next n r hnumeral =>
      have hnumber := readNumeral_eq_some_iff.mp hnumeral
      cases hvalue : n.value with
      | ok v => exact .number hnumber hvalue
      | error e =>
        cases e with
        | malformed => exact trivial
        | longInteger k =>
          obtain ⟨hfraction, hexponent, hlength, hlong⟩ :=
            value_eq_longInteger_iff.mp hvalue
          exact .number hnumber hfraction hexponent hlength hlong
    next => exact trivial

section Steps

variable {α β : Type} {p q : Place} {part : α → Part} {whole : β → Part} {t u : Text}

/-- What comes behind a part goes on from what the part denotes. A refusal in it is
one of the whole. -/
theorem Reads.bind {e : Except ReadError (α × Text)}
    {f : α × Text → Except ReadError (β × Text)} (he : Reads p part u e)
    (hlong : ∀ n, Stops n p u → Stops n q t)
    (hok : ∀ a r, Denotes (part a) u r → Reads q whole t (f (a, r))) :
    Reads q whole t (e >>= f) := by
  cases e with
  | ok x => exact hok x.1 x.2 he
  | error x =>
    cases x with
    | malformed => exact trivial
    | longInteger n => exact hlong n he

/-- A part at the end of another one. -/
theorem Reads.imp {e : Except ReadError (α × Text)} {whole : α → Part}
    (he : Reads p part u e) (hlong : ∀ n, Stops n p u → Stops n q t)
    (hok : ∀ a r, Denotes (part a) u r → Denotes (whole a) t r) :
    Reads q whole t e := by
  cases e with
  | ok x => exact hok x.1 x.2 he
  | error x =>
    cases x with
    | malformed => exact trivial
    | longInteger n => exact hlong n he

/-- A string in front of the rest of a part; it is never where the reading stops. -/
theorem reads_string_bind {f : WideText × Text → Except ReadError (β × Text)}
    (hok : ∀ cs r, Chars u cs r → Reads q whole t (f (cs, r))) :
    Reads q whole t (readString u >>= f) := by
  cases hstring : readString u with
  | ok x =>
    exact hok x.1 x.2 (readString_eq_ok_iff.mp hstring)
  | error x =>
    cases x with
    | malformed => exact trivial
    | longInteger n => exact absurd hstring (readString_ne_longInteger u n)

end Steps

section Fuel

variable {fuel : Nat}

/-- A value with one more step of fuel, from its items and its fields. -/
theorem reads_value_step (hitems : ∀ t, Reads .items .items t (readItems fuel t))
    (hfields : ∀ fs t, Reads .fields (.fields fs) t (readFields fuel fs t)) (t : Text) :
    Reads .value .value t (readValue (fuel + 1) t) := by
  unfold readValue
  split
  next u => exact reads_string_bind fun cs r hchars => .string hchars
  next u =>
    split
    next r hclose => exact .emptyList hclose
    next => exact (hitems (skipSpace u)).bind (fun n h => .list h) fun vs r h => .list h
  next u =>
    split
    next r hclose => exact .emptyObject hclose
    next =>
      exact (hfields [] (skipSpace u)).bind (fun n h => .object h) fun fs r h => .object h
  next => exact reads_scalar t

/-- Items with one more step of fuel, from a value and the items behind it. -/
theorem reads_items_step (hvalue : ∀ t, Reads .value .value t (readValue fuel t))
    (hitems : ∀ t, Reads .items .items t (readItems fuel t)) (t : Text) :
    Reads .items .items t (readItems (fuel + 1) t) := by
  unfold readItems
  refine (hvalue t).bind (fun n h => .item h) fun v u h => ?_
  dsimp only
  split
  next r hclose => exact .lastItem h hclose
  next s hcomma =>
    exact (hitems (skipSpace s)).bind (fun n hrest => .nextItem h hcomma hrest)
      fun vs r hrest =>
      .item h hcomma hrest
  next => exact trivial

/-- Fields with one more step of fuel; a later field takes the place of one
with the same key. -/
theorem reads_fields_step (hvalue : ∀ t, Reads .value .value t (readValue fuel t))
    (hfields : ∀ fs t, Reads .fields (.fields fs) t (readFields fuel fs t))
    (fs : List (WideText × Document)) (t : Text) :
    Reads .fields (.fields fs) t (readFields (fuel + 1) fs t) := by
  unfold readFields
  split
  next u =>
    refine reads_string_bind fun key w hkey => ?_
    dsimp only
    split
    next s hcolon =>
      refine (hvalue (skipSpace s)).bind (fun n h => .field hkey hcolon h) fun v x h => ?_
      dsimp only
      split
      next r hclose => exact .lastField hkey hcolon h hclose
      next y hcomma =>
        exact (hfields (setField fs key v) (skipSpace y)).imp
          (fun n hrest => .nextField hkey hcolon h hcomma hrest) fun gs r hrest =>
            .field hkey hcolon h hcomma hrest
      next => exact trivial
    next => exact trivial
  next => exact trivial

/-- What the reader makes of a text, with any fuel, is what the grammar says of it. -/
theorem reads (fuel : Nat) :
    (∀ t, Reads .value .value t (readValue fuel t)) ∧
      (∀ t, Reads .items .items t (readItems fuel t)) ∧
      ∀ fs t, Reads .fields (.fields fs) t (readFields fuel fs t) := by
  induction fuel with
  | zero => exact ⟨fun t => trivial, fun t => trivial, fun fs t => trivial⟩
  | succ fuel ih =>
    obtain ⟨hvalue, hitems, hfields⟩ := ih
    exact ⟨reads_value_step hitems hfields, reads_items_step hvalue hitems,
      reads_fields_step hvalue hfields⟩

end Fuel

/-! ## Where a part starts and ends -/

/-- Skipping white space leaves the end of the text. -/
theorem skipSpace_suffix (t : Text) : skipSpace t <:+ t := List.dropWhile_suffix isSpace

/-- White space in front of a text is skipped with what the text starts with. -/
theorem skipSpace_append {t : Text} (h : ∀ c ∈ t, isSpace c = true) (r : Text) :
    skipSpace (t ++ r) = skipSpace r := List.dropWhile_append_of_pos h

/-- Nothing is skipped in front of another character. -/
theorem skipSpace_cons {c : Char} (h : isSpace c = false) (r : Text) :
    skipSpace (c :: r) = c :: r := by
  rw [skipSpace, List.dropWhile_cons, h]
  rfl

theorem exists_spaces (t : Text) :
    ∃ spaces, (∀ c ∈ spaces, isSpace c = true) ∧ t = spaces ++ skipSpace t :=
  ⟨t.takeWhile isSpace, fun _ hc => List.mem_takeWhile_imp hc,
    List.takeWhile_append_dropWhile.symm⟩

/-- Something stands in `t`, and `r` behind it. -/
structure Behind (r t : Text) : Prop where
  suffix : r <:+ t
  length_lt : r.length < t.length

section Behind

variable {r s t : Text} {c : Char}

/-- Going on to a suffix stays behind. -/
theorem Behind.trans (h : Behind r s) (hs : s <:+ t) : Behind r t :=
  ⟨h.suffix.trans hs, Nat.lt_of_lt_of_le h.length_lt hs.length_le⟩

theorem behind_cons (h : r <:+ t) : Behind r (c :: t) :=
  ⟨h.trans (List.suffix_cons c t), Nat.lt_succ_of_le h.length_le⟩

theorem behind_append {a : Text} (ha : a ≠ []) (h : r <:+ t) : Behind r (a ++ t) := by
  obtain ⟨c, a, rfl⟩ := List.exists_cons_of_ne_nil ha
  exact behind_cons (h.trans (List.suffix_append a t))

theorem behind_of_skipSpace (h : skipSpace t = c :: r) : Behind r t :=
  (behind_cons List.suffix_rfl).trans (h ▸ skipSpace_suffix t)

/-- Behind the white space and one more character, and white space again. -/
theorem Behind.skip (h : Behind s t) (hs : skipSpace s = c :: r) :
    Behind (skipSpace r) t :=
  have hr : Behind r t := (behind_of_skipSpace hs).trans h.suffix
  ⟨(skipSpace_suffix r).trans hr.suffix, Nat.lt_of_le_of_lt
    (skipSpace_suffix r).length_le hr.length_lt⟩

/-- A string takes at least its closing quote. -/
theorem Chars.behind {cs : WideText} (h : Chars t cs r) : Behind r t := by
  obtain ⟨a, rfl, -⟩ := h.exists_append
  exact (behind_cons List.suffix_rfl).trans (List.suffix_append a _)

/-- A number takes at least one digit. -/
theorem Number.behind {n : Numeral} (h : Number t n r) : Behind r t := by
  obtain ⟨front, u, rfl, hne, -, hr⟩ := h.exists_split
  exact (behind_append hne hr).trans (List.suffix_append front _)

end Behind

/-- What follows a part stands behind it. -/
theorem Denotes.behind {p : Part} {t r : Text} (h : Denotes p t r) : Behind r t := by
  induction h with
  | string h => exact behind_cons h.behind.suffix
  | word h =>
    obtain ⟨c, u, rfl, -⟩ := head_of_word h
    exact behind_append (List.cons_ne_nil c u) List.suffix_rfl
  | number h => exact h.behind
  | emptyList h => exact behind_cons (behind_of_skipSpace h).suffix
  | emptyObject h => exact behind_cons (behind_of_skipSpace h).suffix
  | list _ ih => exact behind_cons (ih.suffix.trans (skipSpace_suffix _))
  | object _ ih => exact behind_cons (ih.suffix.trans (skipSpace_suffix _))
  | lastItem _ hclose ih => exact (behind_of_skipSpace hclose).trans ih.suffix
  | item _ hcomma _ ih ihrest => exact ihrest.trans (ih.skip hcomma).suffix
  | lastField hkey hcolon _ hclose ih =>
    have hw := ih.trans (hkey.behind.skip hcolon).suffix
    exact behind_cons ((behind_of_skipSpace hclose).trans hw.suffix).suffix
  | field hkey hcolon _ hcomma _ ih ihrest =>
    have hw := ih.trans (hkey.behind.skip hcolon).suffix
    exact behind_cons (ihrest.trans (hw.skip hcomma).suffix).suffix

/-- A run of `n` digits stands in the text, more than a whole number may have. -/
def HasLongRun (n : Nat) (t : Text) : Prop :=
  Number.maxDigits < n ∧ ∃ ds, ds <:+: t ∧ (∀ c ∈ ds, c.isDigit = true) ∧ ds.length = n

/-- A run of digits in part of a text is one in the text. -/
theorem HasLongRun.mono {n : Nat} {s t : Text} (h : HasLongRun n s) (hst : s <:+: t) :
    HasLongRun n t := by
  obtain ⟨hlong, ds, hds, hdigits, hlength⟩ := h
  exact ⟨hlong, ds, hds.trans hst, hdigits, hlength⟩

/-- The number at which a text stops stands in it. -/
theorem Stops.hasLongRun {n : Nat} {p : Place} {t : Text} (h : Stops n p t) :
    HasLongRun n t := by
  induction h with
  | number h _ _ hlength hlong =>
    obtain ⟨front, u, rfl, -, hdigits, -⟩ := h.exists_split
    exact ⟨hlong, _, (List.prefix_append _ u).isInfix.trans
      (List.suffix_append front _).isInfix, hdigits, hlength⟩
  | list _ ih => exact ih.mono (behind_cons (skipSpace_suffix _)).suffix.isInfix
  | object _ ih => exact ih.mono (behind_cons (skipSpace_suffix _)).suffix.isInfix
  | item _ ih => exact ih
  | nextItem h hcomma _ ih => exact ih.mono (h.behind.skip hcomma).suffix.isInfix
  | field hkey hcolon _ ih =>
    exact ih.mono (behind_cons (hkey.behind.skip hcolon).suffix).suffix.isInfix
  | nextField hkey hcolon h hcomma _ ih =>
    -- the number stands behind the whole first field
    have hw := h.behind.trans (hkey.behind.skip hcolon).suffix
    exact ih.mono (behind_cons (hw.skip hcomma).suffix).suffix.isInfix

/-- A character that a value can start with, and the name of a field. -/
def Opens (c : Char) : Prop := c.isDigit = true ∨ c ∈ "\"[\x7bntfNI-".toList

/-- No value starts with white space, so skipping it loses nothing. -/
theorem Opens.isSpace {c : Char} (h : Opens c) : isSpace c = false := by
  cases hspace : Json.isSpace c with
  | false => rfl
  | true =>
    simp only [Json.isSpace, Bool.or_eq_true, beq_iff_eq] at hspace
    obtain ((rfl | rfl) | rfl) | rfl :=
      hspace <;> exact absurd h (by unfold Opens; decide)

/-- No value starts with a closing bracket, so an empty list is told from a
list of values. -/
theorem Opens.ne_close {c : Char} (h : Opens c) : c ≠ ']' ∧ c ≠ '\x7d' := by
  constructor
  · rintro rfl
    exact absurd h (by unfold Opens; decide)
  · rintro rfl
    exact absurd h (by unfold Opens; decide)

theorem Number.opens {t r : Text} {n : Numeral} (h : Number t n r) :
    ∃ c u, t = c :: u ∧ Opens c := by
  obtain ⟨c, u, hc, hsplit⟩ := h.head
  cases hsplit with
  | inl hsplit => exact ⟨c, u, hsplit, Or.inl hc⟩
  | inr hsplit => exact ⟨'-', c :: u, hsplit, Or.inr (by decide)⟩

/-- Every part of a document starts in a way that is told from white space
and from its end. -/
theorem Denotes.opens {p : Part} {t r : Text} (h : Denotes p t r) :
    ∃ c u, t = c :: u ∧ Opens c := by
  have hquote : Opens '"' := Or.inr (by decide)
  have hbracket : Opens '[' := Or.inr (by decide)
  have hbrace : Opens '\x7b' := Or.inr (by decide)
  induction h with
  | word h =>
    obtain ⟨c, u, rfl, hc, -⟩ := head_of_word h
    refine ⟨c, _, rfl, Or.inr ?_⟩
    have hsub : ∀ d ∈ "ntfNI-".toList, d ∈ "\"[\x7bntfNI-".toList :=
      forall_mem_of_all (by decide)
    exact hsub c hc
  | number h => exact h.opens
  | string => exact ⟨_, _, rfl, hquote⟩
  | emptyList => exact ⟨_, _, rfl, hbracket⟩
  | list => exact ⟨_, _, rfl, hbracket⟩
  | emptyObject => exact ⟨_, _, rfl, hbrace⟩
  | object => exact ⟨_, _, rfl, hbrace⟩
  | lastItem _ _ ih => exact ih
  | item _ _ _ ih => exact ih
  | lastField => exact ⟨_, _, rfl, hquote⟩
  | field => exact ⟨_, _, rfl, hquote⟩

/-- So does a part at which the reading stops. -/
theorem Stops.opens {n : Nat} {p : Place} {t : Text} (h : Stops n p t) :
    ∃ c u, t = c :: u ∧ Opens c := by
  induction h with
  | number h => exact h.opens
  | list => exact ⟨_, _, rfl, Or.inr (by decide)⟩
  | object => exact ⟨_, _, rfl, Or.inr (by decide)⟩
  | item _ ih => exact ih
  | nextItem h => exact h.opens
  | field => exact ⟨_, _, rfl, Or.inr (by decide)⟩
  | nextField => exact ⟨_, _, rfl, Or.inr (by decide)⟩

/-! ## With enough fuel -/

section Found

variable {fuel : Nat} {t u : Text}

theorem readValue_list {c : Char} (ht : skipSpace t = c :: u) (hc : Opens c) :
    readValue (fuel + 1) ('[' :: t) = (do
      let (items, rest) ← readItems fuel (skipSpace t)
      .ok (.arr items, rest)) := by
  rw [readValue]
  split
  next r heq => exact absurd (List.cons.inj (ht.symm.trans heq)).1 hc.ne_close.1
  next => rfl

theorem readValue_object {c : Char} (ht : skipSpace t = c :: u) (hc : Opens c) :
    readValue (fuel + 1) ('\x7b' :: t) = (do
      let (fields, rest) ← readFields fuel [] (skipSpace t)
      .ok (.obj fields, rest)) := by
  rw [readValue]
  split
  next r heq => exact absurd (List.cons.inj (ht.symm.trans heq)).1 hc.ne_close.2
  next => rfl

/-- Whatever starts no text, list or object is a word or a number. -/
theorem readValue_scalar {c : Char} (h : c ∉ "\"[\x7b".toList) :
    readValue (fuel + 1) (c :: t) = readScalar (c :: t) := by
  have hne : ∀ d ∈ "\"[\x7b".toList, c ≠ d := fun d hd heq => h (heq ▸ hd)
  rw [readValue]
  · intro r heq
    exact hne '"' (by decide) (List.cons.inj heq).1
  · intro r heq
    exact hne '[' (by decide) (List.cons.inj heq).1
  · intro r heq
    exact hne '\x7b' (by decide) (List.cons.inj heq).1

theorem readValue_word {w r : Text} {v : Document} (h : (w, v) ∈ words) :
    readValue (fuel + 1) (w ++ r) = .ok (v, r) := by
  obtain ⟨c, u, rfl, hc, -⟩ := head_of_word h
  have hnot : ∀ d ∈ "ntfNI-".toList, d ∉ "\"[\x7b".toList := forall_mem_of_all (by decide)
  have hword : readWord (c :: (u ++ r)) = some (v, r) :=
    readWord_eq_some_iff.mpr ⟨c :: u, h, rfl⟩
  rw [List.cons_append, readValue_scalar (hnot c hc), readScalar, hword]

theorem readValue_number {r : Text} {n : Numeral} (h : Number t n r) :
    readValue (fuel + 1) t = n.value >>= fun v => .ok (v, r) := by
  have hscalar : readScalar t = n.value >>= fun v => .ok (v, r) := by
    rw [readScalar, readWord_of_number h, readNumeral_eq_some_iff.mpr h]
  rw [← hscalar]
  obtain ⟨c, u, hc, rfl | rfl⟩ := h.head
  · refine readValue_scalar fun hmem => ?_
    have hopening : ∀ d ∈ "\"[\x7b".toList, d.isDigit = false :=
      forall_mem_of_all (by decide)
    rw [hopening c hmem] at hc
    exact Bool.noConfusion hc
  · exact readValue_scalar (by decide)

/-- The last item of a list is followed by a closing bracket. -/
theorem readItems_last {r : Text} {v : Document} (h : readValue fuel t = .ok (v, u))
    (hclose : skipSpace u = ']' :: r) :
    readItems (fuel + 1) t = .ok ([v], r) := by
  rw [readItems, h]
  simp only [hclose, ok_bind]

/-- Any other item is followed by a comma and further items. -/
theorem readItems_next {s : Text} {v : Document} (h : readValue fuel t = .ok (v, u))
    (hcomma : skipSpace u = ',' :: s) :
    readItems (fuel + 1) t = (do
      let (items, rest) ← readItems fuel (skipSpace s)
      .ok (v :: items, rest)) := by
  rw [readItems, h]
  simp only [hcomma, ok_bind]

/-- The last field of an object is followed by a closing brace. -/
theorem readFields_last {fs : List (WideText × Document)} {s r : Text} {key : WideText}
    {v : Document} (hkey : Chars t key u)
    (hcolon : skipSpace u = ':' :: s) {w : Text}
    (h : readValue fuel (skipSpace s) = .ok (v, w)) (hclose : skipSpace w = '\x7d' :: r) :
    readFields (fuel + 1) fs ('"' :: t) = .ok (setField fs key v, r) := by
  rw [readFields, readString_eq_ok_iff.mpr hkey]
  simp only [ok_bind, hcolon, h, hclose]

/-- Any other field is followed by a comma and further fields. -/
theorem readFields_next {fs : List (WideText × Document)} {s w x : Text} {key : WideText}
    {v : Document} (hkey : Chars t key u)
    (hcolon : skipSpace u = ':' :: s) (h : readValue fuel (skipSpace s) = .ok (v, w))
    (hcomma : skipSpace w = ',' :: x) :
    readFields (fuel + 1) fs ('"' :: t) =
      readFields fuel (setField fs key v) (skipSpace x) := by
  rw [readFields, readString_eq_ok_iff.mpr hkey]
  simp only [ok_bind, hcolon, h, hcomma]

end Found

/-- With enough fuel the reader gives the part and what follows it. A bracket takes
one step of fuel, and the value behind it another one, so items and fields need one
more than a value. -/
def Part.Found : Part → Text → Text → Prop
  | .value v, t, r => ∀ fuel, 2 * t.length + 1 ≤ fuel → readValue fuel t = .ok (v, r)
  | .items vs, t, r => ∀ fuel, 2 * t.length + 2 ≤ fuel → readItems fuel t = .ok (vs, r)
  | .fields fs gs, t, r =>
    ∀ fuel, 2 * t.length + 2 ≤ fuel → readFields fuel fs t = .ok (gs, r)

/-- More fuel than necessary does no harm. -/
theorem forall_fuel {m : Nat} {P : Nat → Prop} (h : ∀ fuel, m ≤ fuel → P (fuel + 1)) :
    ∀ fuel, m + 1 ≤ fuel → P fuel
  | 0, hfuel => absurd hfuel (Nat.not_succ_le_zero m)
  | fuel + 1, hfuel => h fuel (Nat.le_of_succ_le_succ hfuel)

/-- The reader finds what the grammar says. -/
theorem Denotes.found {p : Part} {t r : Text} (h : Denotes p t r) : p.Found t r := by
  induction h with
  | string h =>
    refine forall_fuel fun fuel _ => ?_
    rw [readValue, readString_eq_ok_iff.mpr h, ok_bind]
  | word h => exact forall_fuel fun fuel _ => readValue_word h
  | number h hv =>
    refine forall_fuel fun fuel _ => ?_
    rw [readValue_number h, hv, ok_bind]
  | emptyList h =>
    refine forall_fuel fun fuel _ => ?_
    rw [readValue, h]
    rfl
  | @list t r vs h ih =>
    refine forall_fuel fun fuel hfuel => ?_
    obtain ⟨c, u, ht, hc⟩ := h.opens
    have hle := (skipSpace_suffix t).length_le
    rw [List.length_cons] at hfuel
    rw [readValue_list ht hc, ih fuel (by omega), ok_bind]
  | emptyObject h =>
    refine forall_fuel fun fuel _ => ?_
    rw [readValue, h]
    rfl
  | @object t r fs h ih =>
    refine forall_fuel fun fuel hfuel => ?_
    obtain ⟨c, u, ht, hc⟩ := h.opens
    have hle := (skipSpace_suffix t).length_le
    rw [List.length_cons] at hfuel
    rw [readValue_object ht hc, ih fuel (by omega), ok_bind]
  | lastItem h hclose ih =>
    exact forall_fuel fun fuel hfuel => readItems_last (ih fuel hfuel) hclose
  | @item t u s r v vs h hcomma hrest ih ihrest =>
    refine forall_fuel fun fuel hfuel => ?_
    have hlt := (h.behind.skip hcomma).length_lt
    rw [readItems_next (ih fuel hfuel) hcomma, ihrest fuel (by omega), ok_bind]
  | @lastField t u s w r key v fs hkey hcolon h hclose ih =>
    refine forall_fuel fun fuel hfuel => ?_
    have hlt := (hkey.behind.skip hcolon).length_lt
    rw [List.length_cons] at hfuel
    exact readFields_last hkey hcolon (ih fuel (by omega)) hclose
  | @field t u s w x r key v fs gs hkey hcolon h hcomma hrest ih ihrest =>
    refine forall_fuel fun fuel hfuel => ?_
    have hs := hkey.behind.skip hcolon
    have hx := (h.behind.trans hs.suffix).skip hcomma
    have hslt := hs.length_lt
    have hxlt := hx.length_lt
    rw [List.length_cons] at hfuel
    rw [readFields_next hkey hcolon (ih fuel (by omega)) hcomma, ihrest fuel (by omega)]

/-- With enough fuel the reader refuses the number with `n` digits. -/
def Place.Refuses (n : Nat) : Place → Text → Prop
  | .value, t =>
    ∀ fuel, 2 * t.length + 1 ≤ fuel → readValue fuel t = .error (.longInteger n)
  | .items, t =>
    ∀ fuel, 2 * t.length + 2 ≤ fuel → readItems fuel t = .error (.longInteger n)
  | .fields, t =>
    ∀ fuel, 2 * t.length + 2 ≤ fuel → ∀ fs, readFields fuel fs t = .error (.longInteger n)

/-- The reader refuses a text where the grammar stops. -/
theorem Stops.refuses {n : Nat} {p : Place} {t : Text} (h : Stops n p t) :
    p.Refuses n t := by
  induction h with
  | number h hfraction hexponent hlength hlong =>
    refine forall_fuel fun fuel _ => ?_
    rw [readValue_number h, value_eq_longInteger_iff.mpr
      ⟨hfraction, hexponent, hlength, hlong⟩, error_bind]
  | @list t h ih =>
    refine forall_fuel fun fuel hfuel => ?_
    obtain ⟨c, u, ht, hc⟩ := h.opens
    have hle := (skipSpace_suffix t).length_le
    rw [List.length_cons] at hfuel
    rw [readValue_list ht hc, ih fuel (by omega), error_bind]
  | @object t h ih =>
    refine forall_fuel fun fuel hfuel => ?_
    obtain ⟨c, u, ht, hc⟩ := h.opens
    have hle := (skipSpace_suffix t).length_le
    rw [List.length_cons] at hfuel
    rw [readValue_object ht hc, ih fuel (by omega), error_bind]
  | item h ih =>
    refine forall_fuel fun fuel hfuel => ?_
    rw [readItems, ih fuel hfuel, error_bind]
  | @nextItem t u s v h hcomma hrest ihrest =>
    refine forall_fuel fun fuel hfuel => ?_
    have hlt := (h.behind.skip hcomma).length_lt
    rw [readItems_next (h.found fuel hfuel) hcomma, ihrest fuel (by omega), error_bind]
  | @field t u s key hkey hcolon h ih =>
    refine forall_fuel fun fuel hfuel fs => ?_
    have hlt := (hkey.behind.skip hcolon).length_lt
    rw [List.length_cons] at hfuel
    rw [readFields, readString_eq_ok_iff.mpr hkey]
    simp only [ok_bind, hcolon, ih fuel (by omega), error_bind]
  | @nextField t u s w x key v hkey hcolon h hcomma hrest ihrest =>
    refine forall_fuel fun fuel hfuel fs => ?_
    have hs := hkey.behind.skip hcolon
    have hx := (h.behind.trans hs.suffix).skip hcomma
    have hslt := hs.length_lt
    have hxlt := hx.length_lt
    rw [List.length_cons] at hfuel
    rw [readFields_next hkey hcolon (h.found fuel (by omega)) hcomma,
      ihrest fuel (by omega)]

/-! ## Whole texts -/

/-- The text is a text of the value: nothing but white space stands around it. -/
def IsTextOf (v : Document) (t : Text) : Prop :=
  ∃ r, Denotes (.value v) (skipSpace t) r ∧ skipSpace r = []

/-- In the text a whole number with `n` digits comes, which are too many, before anything
that is not JSON. -/
def StopsAtLongNumber (n : Nat) (t : Text) : Prop := Stops n .value (skipSpace t)

/-- The fuel of the reader is enough for a whole text. -/
theorem le_read_fuel (t : Text) : 2 * (skipSpace t).length + 1 ≤ 2 * t.length + 2 := by
  have hle := (skipSpace_suffix t).length_le
  omega

/-- The reader accepts just the texts of the grammar, and gives what they denote. -/
theorem readDocument_eq_ok_iff {t : Text} {v : Document} :
    readDocument t = .ok v ↔ IsTextOf v t := by
  unfold readDocument
  rw [bind_eq_ok_iff]
  constructor
  · intro h
    obtain ⟨⟨w, r⟩, hread, h⟩ := h
    have hreads := (reads (2 * t.length + 2)).1 (skipSpace t)
    rw [hread] at hreads
    dsimp only at h
    split at h
    next hempty =>
      cases h
      exact ⟨r, hreads, List.isEmpty_iff.mp hempty⟩
    next => exact nomatch h
  · intro h
    obtain ⟨r, hdenotes, hr⟩ := h
    exact ⟨(v, r), hdenotes.found _ (le_read_fuel t), if_pos (List.isEmpty_iff.mpr hr)⟩

/-- It complains about a number just where the grammar stops at one. -/
theorem readDocument_eq_longInteger_iff {t : Text} {n : Nat} :
    readDocument t = .error (.longInteger n) ↔ StopsAtLongNumber n t := by
  unfold readDocument
  rw [bind_eq_error_iff]
  constructor
  · intro h
    cases h with
    | inl h =>
      have hreads := (reads (2 * t.length + 2)).1 (skipSpace t)
      rw [h] at hreads
      exact hreads
    | inr h =>
      obtain ⟨⟨w, r⟩, -, h⟩ := h
      dsimp only at h
      split at h
      next => exact nomatch h
      next => exact nomatch h
  · exact fun h => Or.inl (h.refuses _ (le_read_fuel t))

/-- A text is a text of one value at most. -/
theorem IsTextOf.unique {t : Text} {v w : Document} (h : IsTextOf v t)
    (h' : IsTextOf w t) : v = w :=
  Except.ok.inj ((readDocument_eq_ok_iff.mpr h).symm.trans
    (readDocument_eq_ok_iff.mpr h'))

end CodeWeave.Json
