import CodeWeave.Proofs.Synthesis.Resegment

/-!
# Extraction, line by line

The patterns of import and export lines are anchored. An occurrence starts where a line
starts, goes on to the last semicolon that it can reach without a line break, and needs a
line end behind that, which it leaves in place. A search for such occurrences, from left
to right through the whole text, is the same as a rule for each line:

> `readStatement_line`: at the start of a line the pattern occurs exactly if the line
is a statement line.

> `anchoredPieces_statement`: so a text is cut line by line.

> `extraction_by_lines`: the import and export lines of a candidate are its statement
> lines, and what is left without a component is the text with each statement line emptied
> up to its line end. Taking the imports out first makes no difference to the exports.

`emptied_line_keeps_return` has a line whose carriage return stays in the body.
-/

namespace CodeWeave

open Text Sensitive

/-! ## Patterns at the start of a line -/

namespace Text

/-- The occurrence, if the piece is one. -/
def Piece.hit? : Piece → Option Text
  | .plain _ => none
  | .hit h => some h

namespace Pattern

/-- Cuts a text at the occurrences of an anchored pattern, which is tried only where a
line starts. Whether the text itself starts a line is given. -/
def anchoredPieces (p : Pattern) (start : Bool) (t : Text) : List Piece :=
  match t with
  | [] => []
  | c :: cs =>
    match if start then p (c :: cs) else none with
    | some (n + 1) =>
      .hit (c :: cs.take n) :: anchoredPieces p
        ((c :: cs.take n).getLast? == some '\n') (cs.drop n)
    | _ => .plain c :: anchoredPieces p (c == '\n') cs
termination_by t.length
decreasing_by
  · simp only [List.length_drop, List.length_cons]; omega
  · simp only [List.length_cons]; omega

/-- The occurrences of an anchored pattern, from left to right. -/
def anchoredHits (p : Pattern) (t : Text) : List Text :=
  (p.anchoredPieces true t).filterMap Piece.hit?

/-- The text without the occurrences of an anchored pattern. -/
def anchoredErase (p : Pattern) (t : Text) : Text :=
  render (fun _ => []) (p.anchoredPieces true t)

variable {p : Pattern}

@[simp] theorem anchoredPieces_nil (start : Bool) : p.anchoredPieces start [] = [] := by
  rw [anchoredPieces]

theorem anchoredPieces_plain {start : Bool} {c : Char} {cs : Text}
    (h : start = true → p (c :: cs) = none) :
    p.anchoredPieces start (c :: cs) = .plain c :: p.anchoredPieces (c == '\n') cs := by
  have hnone : (if start then p (c :: cs) else none) = none := by
    split
    next hstart => exact h hstart
    next => rfl
  rw [anchoredPieces, hnone]

/-- An occurrence at the start of a line is one piece. -/
theorem anchoredPieces_hit {c : Char} {cs r : Text}
    (h : p (c :: cs ++ r) = some (c :: cs).length) :
    p.anchoredPieces true (c :: cs ++ r) =
      .hit (c :: cs) :: p.anchoredPieces ((c :: cs).getLast? == some '\n') r := by
  have hsome : (if true then p (c :: cs ++ r) else none) = some (cs.length + 1) := h
  rw [List.cons_append] at hsome ⊢
  rw [anchoredPieces, hsome]
  simp only [List.take_left, List.drop_left]

/-- A pattern that does not occur here might as well not be tried. -/
theorem anchoredPieces_eq_of_none {t : Text} (h : p t = none) :
    p.anchoredPieces true t = p.anchoredPieces false t := by
  cases t with
  | nil => rw [anchoredPieces_nil, anchoredPieces_nil]
  | cons c cs => rw [anchoredPieces_plain fun _ => h, anchoredPieces_plain fun _ => h]

/-- Within a line nothing is tried. -/
theorem anchoredPieces_append {l : Text} (hl : '\n' ∉ l) (t : Text) :
    p.anchoredPieces false (l ++ t) = l.map .plain ++ p.anchoredPieces false t := by
  induction l with
  | nil => rfl
  | cons c cs ih =>
    obtain ⟨hc, hcs⟩ := List.ne_and_not_mem_of_not_mem_cons hl
    have hwithin : (c == '\n') = false := beq_eq_false_iff_ne.mpr (Ne.symm hc)
    rw [List.cons_append, anchoredPieces_plain fun h => Bool.noConfusion h,
      hwithin, ih hcs]
    rfl

end Pattern

end Text

namespace Segment

/-! ## The patterns -/

/-- Whether a line feed or the end of the text is here. -/
def atBreak (t : Text) : Bool := t.isEmpty || t.head? == some '\n'

/-- Whether a line ends here, perhaps with a carriage return. -/
def atLineEnd (t : Text) : Bool := atBreak t || (skip ['\r'] t).any atBreak

/-- What follows a semicolon at the head of the text, if a line ends there. -/
def readSemicolon (t : Text) : Option Text := do
  let r ← skip ";".toList t
  if atLineEnd r then some r else none

/-- What follows a statement at the head of the text: the keyword, and on the same line
the last semicolon that a line end follows. -/
def readStatement (keyword t : Text) : Option Text := do
  let r ← skip keyword t
  longest (fun c => c == '\r' || c == '\n') readSemicolon r

/-- The anchored pattern of the statements with a keyword. -/
def statementPattern (keyword : Text) : Pattern := .ofReader (readStatement keyword)

/-- The rule for a line: without one carriage return at its end it starts with the
keyword, ends with a semicolon and holds no further carriage return. -/
def StatementLine (keyword line : Text) : Prop :=
  keyword <+: dropReturn line ∧ (dropReturn line).getLast? = some ';' ∧
    '\r' ∉ dropReturn line

instance (keyword line : Text) : Decidable (StatementLine keyword line) :=
  inferInstanceAs (Decidable (_ ∧ _ ∧ _))

/-- The carriage return at the end of a line, if it has one. -/
def lineReturn (line : Text) : Text := if line.getLast? = some '\r' then ['\r'] else []

theorem dropReturn_append_lineReturn (line : Text) :
    dropReturn line ++ lineReturn line = line := by
  unfold dropReturn lineReturn
  split
  next hlast =>
    obtain ⟨l, rfl⟩ := List.getLast?_eq_some_iff.mp hlast
    rw [List.dropLast_concat]
  next => exact List.append_nil line

theorem lineReturn_eq (line : Text) :
    lineReturn line = [] ∨ lineReturn line = ['\r'] := by
  unfold lineReturn
  split
  · exact Or.inr rfl
  · exact Or.inl rfl

/-- The statement of a line, if it is one, is the line without its carriage return. -/
theorem statement?_eq (keyword line : Text) :
    statement? keyword line =
      if StatementLine keyword line then some (dropReturn line) else none := by
  by_cases h : StatementLine keyword line
  · rw [if_pos h]
    exact if_pos ⟨List.isPrefixOf_iff_prefix.mpr h.1, h.2⟩
  · rw [if_neg h]
    exact if_neg fun hparts => h ⟨List.isPrefixOf_iff_prefix.mp hparts.1, hparts.2⟩

/-- A statement line is cleared down to its carriage return, every other line stays. -/
theorem clearLine_eq (keyword line : Text) :
    clearLine keyword line =
      if StatementLine keyword line then lineReturn line else line := by
  unfold clearLine
  rw [statement?_eq]
  by_cases h : StatementLine keyword line
  · rw [if_pos h, if_pos h]
    show line.drop (dropReturn line).length = lineReturn line
    have hdrop : (dropReturn line ++ lineReturn line).drop (dropReturn line).length =
        lineReturn line :=
      List.drop_left
    rwa [dropReturn_append_lineReturn] at hdrop
  · rw [if_neg h, if_neg h]

/-! ## The end of a line -/

theorem atBreak_cons {c : Char} {t : Text} : atBreak (c :: t) = true ↔ c = '\n' := by
  simp [atBreak]

/-- A line ends at a line feed, or at a carriage return in front of one. -/
theorem atLineEnd_cons {c : Char} {t : Text} :
    atLineEnd (c :: t) = true ↔ c = '\n' ∨ c = '\r' ∧ atBreak t = true := by
  have hreturn :
      (skip ['\r'] (c :: t)).any atBreak = true ↔ c = '\r' ∧ atBreak t = true := by
    by_cases hc : c = '\r'
    · rw [hc, show skip ['\r'] ('\r' :: t) = some t from skip_append ['\r'] t,
        Option.any_some]
      exact (and_iff_right rfl).symm
    · have hnone : skip ['\r'] (c :: t) = none :=
        Option.eq_none_iff_forall_ne_some.mpr fun r hr =>
        hc (List.cons.inj (skip_eq_some_iff.mp hr)).1
      rw [hnone, Option.any_none]
      exact iff_of_false Bool.false_ne_true fun h => hc h.1
  unfold atLineEnd
  rw [Bool.or_eq_true_iff, atBreak_cons, hreturn]

/-- What is left of a line is a line end exactly if it is nothing or a carriage return. -/
theorem atLineEnd_append {o tail : Text} (ho : '\n' ∉ o) (htail : atBreak tail = true) :
    atLineEnd (o ++ tail) = true ↔ o = [] ∨ o = ['\r'] := by
  cases o with
  | nil => exact iff_of_true (Bool.or_eq_true_iff.mpr (Or.inl htail)) (Or.inl rfl)
  | cons c o =>
    obtain ⟨hc, ho⟩ := List.ne_and_not_mem_of_not_mem_cons ho
    have hbreak : atBreak (o ++ tail) = true ↔ o = [] := by
      cases o with
      | nil => exact iff_of_true htail rfl
      | cons d o =>
        refine iff_of_false (fun h => ho ?_) (List.cons_ne_nil d o)
        rw [atBreak_cons.mp h]
        exact List.mem_cons_self
    rw [List.cons_append, atLineEnd_cons, hbreak]
    simp [Ne.symm hc]

/-- A part of a text that has no line feed lies within its first line. -/
theorem exists_append_of_line {s r l tail : Text} (hs : '\n' ∉ s)
    (htail : atBreak tail = true) (h : l ++ tail = s ++ r) :
    ∃ o, l = s ++ o ∧ r = o ++ tail := by
  cases List.append_eq_append_iff.mp h with
  | inl hbeyond =>
    obtain ⟨o, rfl, rfl⟩ := hbeyond
    cases o with
    | nil => exact ⟨[], by simp, rfl⟩
    | cons c o =>
      rw [List.cons_append, atBreak_cons] at htail
      simp [htail] at hs
  | inr hwithin => exact hwithin

/-- What holds no line break stands in front of the line end. -/
theorem eq_nil_of_atLineEnd_append {o r : Text} (ho : '\r' ∉ o ∧ '\n' ∉ o)
    (h : atLineEnd (o ++ r) = true) :
    o = [] := by
  cases o with
  | nil => rfl
  | cons c o =>
    cases atLineEnd_cons.mp h with
    | inl hbreak => exact absurd (hbreak ▸ List.mem_cons_self) ho.2
    | inr hreturn => exact absurd (hreturn.1 ▸ List.mem_cons_self) ho.1

/-- So a line ends in one place only. -/
theorem append_lineEnd_inj {u v r r' : Text} (hu : '\r' ∉ u ∧ '\n' ∉ u)
    (hv : '\r' ∉ v ∧ '\n' ∉ v) (hr : atLineEnd r = true) (hr' : atLineEnd r' = true)
    (h : u ++ r = v ++ r') : r = r' := by
  cases List.append_eq_append_iff.mp h with
  | inl hlonger =>
    obtain ⟨o, rfl, rfl⟩ := hlonger
    rw [List.mem_append, not_or, List.mem_append, not_or] at hv
    rw [eq_nil_of_atLineEnd_append ⟨hv.1.2, hv.2.2⟩ hr, List.nil_append]
  | inr hshorter =>
    obtain ⟨o, rfl, rfl⟩ := hshorter
    rw [List.mem_append, not_or, List.mem_append, not_or] at hu
    rw [eq_nil_of_atLineEnd_append ⟨hu.1.2, hu.2.2⟩ hr', List.nil_append]

/-! ## The reader at the start of a line -/

/-- What is read as a statement is the keyword, more of its line, and a semicolon behind
which the line ends. -/
theorem readStatement_sound {keyword t r : Text} (h : readStatement keyword t = some r) :
    ∃ x, ('\r' ∉ x ∧ '\n' ∉ x) ∧ atLineEnd r = true ∧ t = keyword ++ (x ++ ';' :: r) := by
  obtain ⟨t₁, h₁, h⟩ := Option.bind_eq_some_iff.mp h
  obtain ⟨x, m, ht₁, hx, h⟩ := longest_sound h
  obtain ⟨t₂, h₂, h⟩ := Option.bind_eq_some_iff.mp h
  split at h
  next hend =>
    obtain rfl : t₂ = r := Option.some.inj h
    have hline : '\r' ∉ x ∧ '\n' ∉ x :=
      ⟨fun hmem => absurd (hx _ hmem) (by decide),
        fun hmem => absurd (hx _ hmem) (by decide)⟩
    refine ⟨x, hline, hend, ?_⟩
    rw [skip_eq_some_iff.mp h₁, ht₁, skip_eq_some_iff.mp h₂]
    rfl
  next => exact nomatch h

/-- All of these are read. -/
theorem readStatement_append {keyword x r : Text} (hx : '\r' ∉ x ∧ '\n' ∉ x)
    (hr : atLineEnd r = true) :
    readStatement keyword (keyword ++ (x ++ ';' :: r)) = some r := by
  have hsemicolon : readSemicolon (';' :: r) = some r := if_pos hr
  have hstops : ∀ c ∈ x, (c == '\r' || c == '\n') = false := by
    intro c hc
    refine Bool.or_eq_false_iff.mpr ⟨beq_eq_false_iff_ne.mpr ?_,
      beq_eq_false_iff_ne.mpr ?_⟩
    · exact fun heq => hx.1 (heq ▸ hc)
    · exact fun heq => hx.2 (heq ▸ hc)
  obtain ⟨a, ha⟩ :=
    Option.isSome_iff_exists.mp (longest_complete hstops
    (Option.isSome_of_eq_some hsemicolon))
  have hread : readStatement keyword (keyword ++ (x ++ ';' :: r)) = some a := by
    unfold readStatement
    rw [skip_append]
    exact ha
  obtain ⟨y, hy, hend, hsplit⟩ := readStatement_sound hread
  have hends :
      ∀ z : Text, '\r' ∉ z ∧ '\n' ∉ z → '\r' ∉ z ++ [';'] ∧ '\n' ∉ z ++ [';'] := by
    intro z hz
    simp [hz]
  have hsame : (x ++ [';']) ++ r = (y ++ [';']) ++ a := by
    simpa using hsplit
  rw [hread, append_lineEnd_inj (hends x hx) (hends y hy) hr hend hsame]

/-- A keyword is made of letters. -/
structure IsKeyword (keyword : Text) : Prop where
  nonempty : keyword ≠ []
  letters : ∀ c ∈ keyword, c.isAlpha = true

theorem isKeyword_import : IsKeyword importWord :=
  ⟨by decide, forall_mem_of_all (by decide)⟩

theorem isKeyword_export : IsKeyword exportWord :=
  ⟨by decide, forall_mem_of_all (by decide)⟩

/-- A statement line is its keyword, more of the same line, a semicolon
and the line end. -/
theorem StatementLine.exists_split {keyword line : Text} (hkeyword : IsKeyword keyword)
    (h : StatementLine keyword line) (hline : '\n' ∉ line) :
    ∃ x, ('\r' ∉ x ∧ '\n' ∉ x) ∧ line = keyword ++ (x ++ ';' :: lineReturn line) := by
  obtain ⟨⟨y, hy⟩, hlast, hreturn⟩ := h
  have hsplit := dropReturn_append_lineReturn line
  have hne : y ≠ [] := by
    intro hnil
    rw [← hy, hnil, List.append_nil] at hlast
    exact absurd (hkeyword.letters _ (List.mem_of_getLast? hlast)) (by decide)
  rw [← hy, List.getLast?_append_of_ne_nil _ hne] at hlast
  obtain ⟨x, rfl⟩ := List.getLast?_eq_some_iff.mp hlast
  refine ⟨x, ⟨fun hmem => hreturn ?_, fun hmem => hline ?_⟩, ?_⟩
  · rw [← hy]
    simp [hmem]
  · rw [← hsplit, ← hy]
    simp [hmem]
  · rw [← hy] at hsplit
    simpa using hsplit.symm

theorem statementLine_append {keyword x o : Text} (hkeyword : IsKeyword keyword)
    (hx : '\r' ∉ x) (ho : o = [] ∨ o = ['\r']) :
    StatementLine keyword (keyword ++ (x ++ ';' :: o)) := by
  have hdrop : dropReturn (keyword ++ (x ++ ';' :: o)) = keyword ++ (x ++ [';']) := by
    cases ho with
    | inl hnil =>
      rw [hnil]
      exact if_neg (by simp)
    | inr hreturn =>
      rw [hreturn, List.append_cons, ← List.append_assoc]
      exact (if_pos List.getLast?_concat).trans List.dropLast_concat
  unfold StatementLine
  rw [hdrop]
  refine ⟨List.prefix_append keyword _, by simp, fun hmem => ?_⟩
  have hletter : '\r' ∉ keyword :=
    fun hmem => absurd (hkeyword.letters _ hmem) (by decide)
  simp [hx, hletter] at hmem

/-- At the start of a line there is a statement exactly if the line is a statement line,
and what follows is its end. -/
theorem readStatement_line {keyword l tail : Text} (hkeyword : IsKeyword keyword)
    (hl : '\n' ∉ l) (htail : atBreak tail = true) :
    readStatement keyword (l ++ tail) =
      if StatementLine keyword l then some (lineReturn l ++ tail) else none := by
  by_cases h : StatementLine keyword l
  · rw [if_pos h]
    have hreturn : '\n' ∉ lineReturn l := by
      cases lineReturn_eq l with
      | inl hnil => rw [hnil]; exact List.not_mem_nil
      | inr hone => rw [hone]; decide
    obtain ⟨x, hx, hsplit⟩ := h.exists_split hkeyword hl
    have hline : l ++ tail = keyword ++ (x ++ ';' :: (lineReturn l ++ tail)) := by
      conv_lhs => rw [hsplit]
      simp
    rw [hline, readStatement_append hx ((atLineEnd_append hreturn htail).mpr
      (lineReturn_eq l))]
  · rw [if_neg h, Option.eq_none_iff_forall_ne_some]
    intro r hr
    obtain ⟨x, hx, hend, hsplit⟩ := readStatement_sound hr
    have hletter : '\n' ∉ keyword :=
      fun hmem => absurd (hkeyword.letters _ hmem) (by decide)
    obtain ⟨o, rfl, rfl⟩ := exists_append_of_line (s := keyword ++ (x ++ [';'])) (r := r)
      (by simp [hletter, hx])
      htail (hsplit.trans (by simp))
    have ho :=
      (atLineEnd_append (fun hmem => hl (List.mem_append_right _ hmem)) htail).mp hend
    refine h ?_
    have hstatement := statementLine_append hkeyword hx.1 ho
    simpa using hstatement

/-! ## Cutting a text line by line -/

/-- A line, cut at its statement. -/
def pieceLine (keyword line : Text) : List Piece :=
  if StatementLine keyword line then .hit (dropReturn line) ::
    (lineReturn line).map .plain
  else line.map .plain

/-- On a line without a line feed the pattern finds the statement, or nothing. -/
theorem anchoredPieces_line {keyword l tail : Text} (hkeyword : IsKeyword keyword)
    (hl : '\n' ∉ l) (htail : atBreak tail = true) :
    (statementPattern keyword).anchoredPieces true (l ++ tail) =
      pieceLine keyword l ++ (statementPattern keyword).anchoredPieces false tail := by
  have hread := readStatement_line hkeyword hl htail
  unfold statementPattern pieceLine
  by_cases h : StatementLine keyword l
  · rw [if_pos h] at hread ⊢
    have hlast : (dropReturn l).getLast? = some ';' := h.2.1
    have hsplit : l ++ tail = dropReturn l ++ (lineReturn l ++ tail) := by
      rw [← List.append_assoc, dropReturn_append_lineReturn]
    have hreturn : '\n' ∉ lineReturn l := by
      rw [← dropReturn_append_lineReturn l] at hl
      exact fun hmem => hl (List.mem_append_right _ hmem)
    rw [hsplit] at hread ⊢
    have hfound := ofReader_append hread
    obtain ⟨c, cs, hcons⟩ := List.exists_cons_of_ne_nil (l := dropReturn l) fun hnil => by
      rw [hnil] at hlast
      exact nomatch hlast
    rw [hcons] at hlast hfound ⊢
    -- a statement ends with a semicolon, so nothing is tried behind it
    rw [Pattern.anchoredPieces_hit hfound, hlast, show (some ';' == some '\n') =
      false from rfl,
      Pattern.anchoredPieces_append hreturn, List.cons_append]
  · rw [if_neg h] at hread ⊢
    rw [Pattern.anchoredPieces_eq_of_none (ofReader_eq_none hread),
      Pattern.anchoredPieces_append hl]

/-- So on all lines of a text, one by one. -/
theorem anchoredPieces_intercalate {keyword : Text} (hkeyword : IsKeyword keyword)
    {ls : List Text} (hls : ∀ l ∈ ls, '\n' ∉ l) :
    (statementPattern keyword).anchoredPieces true (['\n'].intercalate ls) =
      [Piece.plain '\n'].intercalate (ls.map (pieceLine keyword)) := by
  induction ls with
  | nil => exact Pattern.anchoredPieces_nil true
  | cons l ls ih =>
    have hl : '\n' ∉ l := hls l List.mem_cons_self
    cases ls with
    | nil =>
      have hend : atBreak [] = true := rfl
      have hline := anchoredPieces_line hkeyword hl hend
      rw [List.append_nil, Pattern.anchoredPieces_nil, List.append_nil] at hline
      rw [List.map_singleton, List.intercalate_singleton,
        List.intercalate_singleton, hline]
    | cons m ms =>
      have hrest := ih fun k hk => hls k (List.mem_cons_of_mem l hk)
      rw [List.map_cons, List.map_cons, List.intercalate_cons_cons,
        List.intercalate_cons_cons, List.append_assoc,
        List.append_assoc, anchoredPieces_line hkeyword hl rfl, ← List.map_cons, ← hrest,
          List.singleton_append,
        Pattern.anchoredPieces_plain fun h => Bool.noConfusion h]
      rfl

/-- A text is cut at its statements line by line. -/
theorem anchoredPieces_statement {keyword : Text} (hkeyword : IsKeyword keyword)
    (t : Text) :
    (statementPattern keyword).anchoredPieces true t =
      [Piece.plain '\n'].intercalate ((physicalLines t).map (pieceLine keyword)) := by
  have hcut := anchoredPieces_intercalate hkeyword fun l (hl : l ∈ physicalLines t) =>
    not_mem_physicalLine hl
  rwa [physicalLines, List.intercalate_splitOn] at hcut

/-! ## What is found and what is left -/

theorem filterMap_intercalate {α β : Type} {f : α → Option β} {sep : List α}
    (hsep : sep.filterMap f = []) (ls : List (List α)) :
    (sep.intercalate ls).filterMap f = ls.flatMap fun l => l.filterMap f := by
  induction ls with
  | nil => rfl
  | cons l ls ih =>
    cases ls with
    | nil => rw [List.intercalate_singleton, List.flatMap_singleton]
    | cons m ms =>
      rw [List.intercalate_cons_cons, List.filterMap_append, List.filterMap_append, hsep,
        List.append_nil, ih]
      rfl

theorem render_intercalate (new : Text → Text) (pss : List (List Piece)) :
    render new ([Piece.plain '\n'].intercalate pss) =
      ['\n'].intercalate (pss.map (render new)) := by
  induction pss with
  | nil => rfl
  | cons ps pss ih =>
    cases pss with
    | nil =>
      rw [List.map_singleton, List.intercalate_singleton, List.intercalate_singleton]
    | cons qs qss =>
      rw [List.intercalate_cons_cons, render_append, render_append, ih]
      simp only [List.map_cons, List.intercalate_cons_cons]
      rfl

/-- The pattern finds the statements. -/
theorem anchoredHits_statement {keyword : Text} (hkeyword : IsKeyword keyword)
    (t : Text) :
    (statementPattern keyword).anchoredHits t = statements keyword t := by
  have hline : ∀ l, (pieceLine keyword l).filterMap Piece.hit? =
      (statement? keyword l).toList := by
    intro l
    have hplain : ∀ w : Text, (w.map Piece.plain).filterMap Piece.hit? = [] := by
      intro w
      rw [List.filterMap_map]
      exact List.filterMap_eq_nil_iff.mpr fun _ _ => rfl
    rw [statement?_eq]
    unfold pieceLine
    by_cases h : StatementLine keyword l
    · rw [if_pos h, if_pos h, List.filterMap_cons_some (f := Piece.hit?) rfl, hplain]
      rfl
    · rw [if_neg h, if_neg h, hplain]
      rfl
  unfold Pattern.anchoredHits statements
  rw [anchoredPieces_statement hkeyword, filterMap_intercalate rfl, List.flatMap_map,
    List.filterMap_eq_flatMap_toList]
  simp only [hline]

/-- Without what the pattern finds, the text has its statements emptied. -/
theorem anchoredErase_statement {keyword : Text} (hkeyword : IsKeyword keyword)
    (t : Text) :
    (statementPattern keyword).anchoredErase t = clearStatements keyword t := by
  have hline : ∀ l, render (fun _ => []) (pieceLine keyword l) = clearLine keyword l := by
    intro l
    rw [clearLine_eq]
    unfold pieceLine
    by_cases h : StatementLine keyword l
    · rw [if_pos h, if_pos h, render_hit, render_map_plain, List.nil_append]
    · rw [if_neg h, if_neg h, render_map_plain]
  unfold Pattern.anchoredErase clearStatements
  rw [anchoredPieces_statement hkeyword, render_intercalate, List.map_map]
  exact congrArg _ (List.map_congr_left fun l _ => hline l)

/-- The statements of a text are its statement lines, in their order. -/
theorem statements_eq (keyword t : Text) : statements keyword t =
    ((physicalLines t).filter (StatementLine keyword ·)).map dropReturn := by
  unfold statements
  induction physicalLines t with
  | nil => rfl
  | cons line lines ih =>
    rw [List.filterMap_cons, statement?_eq, ih, List.filter_cons]
    by_cases h : StatementLine keyword line
    · rw [if_pos h, if_pos (decide_eq_true h)]
      rfl
    · rw [if_neg h, if_neg (by simpa using h)]

/-- No line is both. -/
theorem not_import_line_and_export_line (line : Text) :
    ¬ (StatementLine importWord line ∧ StatementLine exportWord line) := by
  intro ⟨⟨himport, _⟩, ⟨hexport, _⟩⟩
  exact absurd (List.prefix_of_prefix_length_le himport hexport (by decide)) (by decide)

/-- Emptying the imports first leaves the other lines as they are, so one pass over the
lines does both. -/
theorem clearStatements_both (t : Text) :
    clearStatements exportWord (clearStatements importWord t) =
      ['\n'].intercalate ((physicalLines t).map fun line =>
        if StatementLine importWord line ∨ StatementLine exportWord line
          then lineReturn line else line) := by
  have hcleared : physicalLines (clearStatements importWord t) =
      (physicalLines t).map (clearLine importWord) := by
    refine List.splitOn_intercalate '\n' (fun l hl => ?_) (by simp [physicalLines])
    obtain ⟨line, hmem, rfl⟩ := List.mem_map.mp hl
    exact fun hbreak => not_mem_physicalLine hmem
      ((suffix_clearLine importWord line).subset hbreak)
  unfold clearStatements at hcleared ⊢
  rw [hcleared, List.map_map]
  refine congrArg _ (List.map_congr_left fun line _ => ?_)
  show clearLine exportWord (clearLine importWord line) = _
  rw [clearLine_eq importWord]
  by_cases himport : StatementLine importWord line
  · rw [if_pos himport, if_pos (Or.inl himport), clearLine_eq]
    refine if_neg ?_
    cases lineReturn_eq line with
    | inl hnil => rw [hnil]; decide
    | inr hreturn => rw [hreturn]; decide
  · rw [if_neg himport, clearLine_eq]
    simp only [himport, false_or]

/-- The import and export lines of a candidate are its lines that obey the rule, in order
and without their carriage return. No line is both. Without a component the body is the
text in which each such line is emptied up to its carriage return and every other line
stays. The same comes out when the anchored patterns are searched for in the whole text,
and cut out of it one after the other. -/
theorem extraction_by_lines (t : Text) :
    ((segment t).imports = ((physicalLines t).filter (StatementLine importWord ·)).map
      dropReturn ∧
      (segment t).exports = ((physicalLines t).filter (StatementLine exportWord ·)).map
        dropReturn) ∧
    ((segment t).imports = (statementPattern importWord).anchoredHits t ∧
      (segment t).exports = (statementPattern exportWord).anchoredHits t) ∧
    (∀ line, ¬ (StatementLine importWord line ∧ StatementLine exportWord line)) ∧
    (component? t = none →
      (segment t).body = strip (['\n'].intercalate ((physicalLines t).map fun line =>
        if StatementLine importWord line ∨ StatementLine exportWord line
          then lineReturn line else line)) ∧
      (segment t).body = strip ((statementPattern exportWord).anchoredErase
        ((statementPattern importWord).anchoredErase t))) := by
  refine ⟨⟨statements_eq importWord t, statements_eq exportWord t⟩,
    ⟨(anchoredHits_statement isKeyword_import t).symm,
      (anchoredHits_statement isKeyword_export t).symm⟩,
    not_import_line_and_export_line, ?_⟩
  intro hnone
  have hbody : (segment t).body =
      strip (clearStatements exportWord (clearStatements importWord t)) := by
    show body t = _
    unfold body
    rw [hnone]
  rw [hbody, anchoredErase_statement isKeyword_import,
    anchoredErase_statement isKeyword_export, clearStatements_both]
  exact ⟨rfl, rfl⟩

/-- Statements with either line end, one that is not at the start of its line, and one
with a carriage return within. -/
theorem extraction_by_lines_mixed :
    let t := "import a;\r\nb; import c;\nexport d;\nimport e\r;\nimport f; g;".toList
    component? t = none ∧ (segment t).imports =
      ["import a;".toList, "import f; g;".toList] ∧
      (segment t).exports = ["export d;".toList] ∧
      (segment t).body = "b; import c;\n\nimport e\r;".toList := by
  intro t
  have hnone : component? t = none := by decide +kernel
  obtain ⟨⟨himports, hexports⟩, _, _, hbody⟩ := extraction_by_lines t
  obtain ⟨hcleared, _⟩ := hbody hnone
  refine ⟨hnone, himports.trans ?_, hexports.trans ?_, hcleared.trans ?_⟩
  · decide +kernel
  · decide +kernel
  · decide +kernel

/-- The line of a statement is not emptied altogether: its carriage return
stays in the body. -/
theorem emptied_line_keeps_return :
    let t := "a\nimport b;\r\nc".toList
    let emptied := ['\n'].intercalate ((physicalLines t).map fun line =>
      if StatementLine importWord line ∨ StatementLine exportWord line then [] else line)
    component? t = none ∧ (segment t).body = "a\n\r\nc".toList ∧ strip emptied =
      "a\n\nc".toList ∧
      (segment t).body ≠ strip emptied := by
  decide +kernel

end Segment

end CodeWeave
