import CodeWeave.Json.Write
import CodeWeave.Proofs.Json.Grammar

/-!
# Lists of texts as JSON

A character is written in a spelling of itself, whatever follows, and so is half of a
character, unless the other half follows. So what is written for a list of texts denotes
the list, if no text has both halves of a character as neighbours. No text that was read
has them. A text of such a list may be spelled otherwise, but its brackets can be told
from the white space around them:

> `chars_escapeChar`, `chars_escapeHalf`, `chars_quote`: a quoted text is a
spelling of the text.

> `isTextOf_listText`: quoted texts between brackets, with commas between them and white
> space anywhere around the commas and inside the brackets, are a text of the list. So are
> both layouts of a value (`isTextOf_writeCompact`, `isTextOf_writeIndented`).

> `parted_of_isTextOf`: the texts of a list that was read have no such neighbours.

> `exists_brackets`: whatever the spelling, a text of a list of texts is the list in its
> brackets, with white space around it.
-/

namespace CodeWeave.Json

open Text

/-! ## Characters -/

theorem hexValue_hexDigit : ∀ n < 16, hexValue? (hexDigit n) = some n := by decide

/-- The four digits of a unit. -/
theorem hexUnit_digits {n : Nat} (h : n < 65536) (r : Text) :
    HexUnit (hexDigit (n / 4096 % 16) :: hexDigit (n / 256 % 16) ::
      hexDigit (n / 16 % 16) :: hexDigit (n % 16) :: r)
      n r := by
  have hdigit : ∀ m, hexValue? (hexDigit (m % 16)) = some (m % 16) := fun m =>
    hexValue_hexDigit _ (Nat.mod_lt _ (by decide))
  have hunit := HexUnit.digits (r := r) (hdigit (n / 4096)) (hdigit (n / 256))
    (hdigit (n / 16)) (hdigit n)
  have hvalue : 4096 * (n / 4096 % 16) + 256 * (n / 256 % 16) + 16 * (n / 16 % 16) +
      n % 16 = n := by omega
  rwa [hvalue] at hunit

/-- A character is none of the units that make one character in pairs. -/
theorem isHighUnit_toNat (c : Char) :
    isHighUnit c.toNat = false ∧ isLowUnit c.toNat = false := by
  have hvalid : c.toNat < 0xD800 ∨ 0xDFFF < c.toNat ∧ c.toNat < 0x110000 := c.valid
  simp only [isHighUnit, isLowUnit, Bool.and_eq_false_iff, decide_eq_false_iff_not]
  omega

/-- The first of two units is not the second of two others. -/
theorem isLowUnit_of_isHighUnit {n : Nat} (h : isHighUnit n = true) :
    isLowUnit n = false := by
  simp only [isHighUnit, Bool.and_eq_true, decide_eq_true_eq] at h
  simp only [isLowUnit, Bool.and_eq_false_iff, decide_eq_false_iff_not]
  omega

theorem ofUnit_toNat (c : Char) : CodePoint.ofUnit c.toNat = .char c := by
  have hvalid : c.toNat < 0xD800 ∨ 0xDFFF < c.toNat ∧ c.toNat < 0x110000 := c.valid
  rw [CodePoint.ofUnit, dif_neg (by omega), Char.ofNat_toNat]

/-- A unit between the characters is read as the half that it is. -/
theorem ofUnit_half (n : Fin 0x800) : CodePoint.ofUnit (0xD800 + n.val) = .half n := by
  have hlt := n.isLt
  rw [CodePoint.ofUnit, dif_pos (by omega)]
  exact congrArg CodePoint.half (Fin.ext (Nat.add_sub_cancel_left 0xD800 n.val))

section Escapes

variable {t r : Text} {cs : WideText}

/-- A character of the first plane is spelled by its unit. -/
theorem chars_escapeUnit {c : Char} (h : c.toNat < 0x10000) (hrest : Chars t cs r) :
    Chars (escapeUnit c.toNat ++ t) (.char c :: cs) r := by
  have hescape := Escape.unit (hexUnit_digits h t) fun s m u _ _ => by
    rw [(isHighUnit_toNat c).1]
    rfl
  rw [ofUnit_toNat] at hescape
  exact .escape hescape hrest

/-- A character beyond the first plane is spelled by two units. -/
theorem chars_escapePair {c : Char} (h : 0x10000 ≤ c.toNat) (hrest : Chars t cs r) :
    Chars (escapeUnit (0xD800 + (c.toNat - 0x10000) / 1024) ++
      escapeUnit (0xDC00 + (c.toNat - 0x10000) % 1024) ++ t) (.char c :: cs) r := by
  have hvalid : c.toNat < 0xD800 ∨ 0xDFFF < c.toNat ∧ c.toNat < 0x110000 := c.valid
  generalize hm : c.toNat - 0x10000 = m
  have hhigh : isHighUnit (0xD800 + m / 1024) = true := by
    simp only [isHighUnit, Bool.and_eq_true, decide_eq_true_eq]
    omega
  have hlow : isLowUnit (0xDC00 + m % 1024) = true := by
    simp only [isLowUnit, Bool.and_eq_true, decide_eq_true_eq]
    omega
  have hescape := Escape.pair (hexUnit_digits (n := 0xD800 + m / 1024) (by omega) _)
    (hexUnit_digits (n := 0xDC00 + m % 1024) (by omega) t) hhigh hlow
  have hvalue : 0x10000 + (0xD800 + m / 1024 - 0xD800) * 1024 +
      (0xDC00 + m % 1024 - 0xDC00) =
      c.toNat := by omega
  rw [hvalue, Char.ofNat_toNat] at hescape
  exact .escape hescape hrest

/-- A character is written as a spelling of itself. -/
theorem chars_escapeChar (c : Char) (hrest : Chars t cs r) :
    Chars (escapeChar c ++ t) (.char c :: cs) r := by
  have hletter : ∀ d, unescape? d = some c → Chars ('\\' :: d :: t) (.char c :: cs) r :=
    fun d hd => .escape (.letter hd) hrest
  unfold escapeChar
  split
  next h => exact hletter '"' (congrArg some h.symm)
  next hquote =>
  split
  next h => exact hletter '\\' (congrArg some h.symm)
  next hslash =>
  split
  next h => exact hletter 'n' (congrArg some h.symm)
  split
  next h => exact hletter 'r' (congrArg some h.symm)
  split
  next h => exact hletter 't' (congrArg some h.symm)
  split
  next h => exact hletter 'b' (congrArg some (h ▸ Char.ofNat_toNat c))
  split
  next h => exact hletter 'f' (congrArg some (h ▸ Char.ofNat_toNat c))
  split
  next h => exact .plain hquote hslash h.1 hrest
  split
  next h => exact chars_escapeUnit h hrest
  next h => exact chars_escapePair (Nat.le_of_not_lt h) hrest

/-- Half of a character is written as a spelling of itself, unless the
other half follows. -/
theorem chars_escapeHalf (n : Fin 0x800) (hrest : Chars t cs r)
    (hparted : Parted (.half n :: cs)) :
    Chars (escape (.half n) ++ t) (.half n :: cs) r := by
  have hescape := Escape.unit (hexUnit_digits (n := 0xD800 + n.val) (by omega) t)
    fun s m u ht hsecond => by
      -- a low unit behind it is a low half of its own
      subst ht
      cases hrest with
      | plain _ hslash => exact absurd rfl hslash
      | escape h =>
        rw [← isHigh_ofUnit, ofUnit_half]
        have hneighbours := List.isChain_cons.mp hparted |>.1 _ rfl
        cases h with
        | letter h => exact absurd (unescape_u.symm.trans h) nofun
        | pair hfirst _ hhigh =>
          rw [(hsecond.unique hfirst).1]
          rw [isLowUnit_of_isHighUnit hhigh, Bool.and_false]
        | unit h =>
          rw [(hsecond.unique h).1, ← isLow_ofUnit]
          exact hneighbours
  rw [ofUnit_half] at hescape
  exact .escape hescape hrest

/-- A code point is written as a spelling of itself. -/
theorem chars_escape (c : CodePoint) (hrest : Chars t cs r) (hparted : Parted (c :: cs)) :
    Chars (escape c ++ t) (c :: cs) r := by
  cases c with
  | char c => exact chars_escapeChar c hrest
  | half n => exact chars_escapeHalf n hrest hparted

end Escapes

/-- A text in which no two halves meet is what its escapes spell. -/
theorem chars_quote {w : WideText} (hw : Parted w) (r : Text) :
    Chars (w.flatMap escape ++ '"' :: r) w r := by
  induction w with
  | nil => exact .close
  | cons c w ih =>
    rw [List.flatMap_cons, List.append_assoc]
    exact chars_escape c (ih hw.tail) hw

/-- A quoted text, with anything behind it. -/
theorem denotes_quote {w : WideText} (hw : Parted w) (r : Text) :
    Denotes (.value (.str w)) (quote w ++ r) r := by
  rw [quote, List.cons_append, List.cons_append, List.append_assoc]
  exact .string (chars_quote hw r)

/-- A text without halves has no neighbours that make a character. -/
theorem parted_ofText (t : Text) : Parted (.ofText t) := by
  induction t with
  | nil => exact List.IsChain.nil
  | cons c t ih => exact ih.cons fun d _ => rfl

/-! ## Lists of texts -/

/-- The text in brackets. -/
def bracketed (core : Text) : Text := '[' :: core ++ [']']

/-- Quoted texts in brackets, with white space behind the opening bracket, around the
commas, and before the closing bracket. -/
def listText (opening before after closing : Text) (ws : List WideText) : Text :=
  bracketed (opening ++ (before ++ ',' :: after).intercalate (ws.map quote) ++ closing)

section Lists

variable {before after closing : Text}

/-- Quoted texts with commas between them, up to a closing bracket. -/
theorem denotes_items (hbefore : ∀ c ∈ before, isSpace c = true)
    (hafter : ∀ c ∈ after, isSpace c = true) (hclosing : ∀ c ∈ closing, isSpace c = true)
    {w : WideText} {ws : List WideText} (hws : ∀ v ∈ w :: ws, Parted v) (r : Text) :
    Denotes (.items ((w :: ws).map .str))
      ((before ++ ',' :: after).intercalate ((w :: ws).map quote) ++
        (closing ++ ']' :: r)) r := by
  have hw := hws w List.mem_cons_self
  induction ws generalizing w with
  | nil =>
    rw [List.map_singleton, List.map_singleton, List.intercalate_singleton]
    refine .lastItem (denotes_quote hw _) ?_
    rw [skipSpace_append hclosing, skipSpace_cons rfl]
  | cons w' ws ih =>
    have htail : ∀ v ∈ w' :: ws, Parted v := fun v hv => hws v (List.mem_cons_of_mem w hv)
    have hrest := ih htail (htail w' List.mem_cons_self)
    simp only [List.map_cons, List.intercalate_cons_cons, List.append_assoc,
      List.cons_append]
      at hrest ⊢
    generalize List.intercalate _ _ ++ _ = u at hrest ⊢
    refine .item (denotes_quote hw _) (s := after ++ u) ?_ ?_
    · rw [skipSpace_append hbefore, skipSpace_cons rfl]
    · obtain ⟨c, v, rfl, hc⟩ := hrest.opens
      rw [skipSpace_append hafter, skipSpace_cons hc.isSpace]
      exact hrest

/-- Brackets around quoted texts, with white space anywhere around them. -/
theorem isTextOf_listText {opening : Text} (hbefore : ∀ c ∈ before, isSpace c = true)
    (hafter : ∀ c ∈ after, isSpace c = true) (hopening : ∀ c ∈ opening, isSpace c = true)
    (hclosing : ∀ c ∈ closing, isSpace c = true) {ws : List WideText}
    (hws : ∀ w ∈ ws, Parted w) :
    IsTextOf (.ofStrings ws) (listText opening before after closing ws) := by
  refine ⟨[], ?_, rfl⟩
  simp only [listText, bracketed, List.cons_append, List.append_assoc]
  rw [skipSpace_cons rfl]
  cases ws with
  | nil =>
    refine .emptyList ?_
    rw [skipSpace_append hopening, List.map_nil, List.intercalate_nil, List.nil_append,
      skipSpace_append hclosing, skipSpace_cons rfl]
  | cons w ws =>
    refine .list ?_
    have hitems := denotes_items hbefore hafter hclosing hws []
    rw [skipSpace_append hopening]
    generalize List.intercalate _ _ ++ _ = u at hitems ⊢
    obtain ⟨c, v, rfl, hc⟩ := hitems.opens
    rw [skipSpace_cons hc.isSpace]
    exact hitems

end Lists

/-! ## The layouts -/

theorem writeItems_strings (ss : List String) :
    writeItems (ss.map str) = (ss.map WideText.ofString).map quote := by
  induction ss with
  | nil => rfl
  | cons s ss ih =>
    rw [List.map_cons, writeItems, writeCompact, ih]
    rfl

theorem indentedItems_strings (level : Nat) (ss : List String) :
    indentedItems level (ss.map str) = (ss.map WideText.ofString).map quote := by
  induction ss with
  | nil => rfl
  | cons s ss ih =>
    rw [List.map_cons, indentedItems, writeIndentedAt, ih]
    rfl

/-- A text of characters has no halves. -/
theorem parted_of_mem_map_ofString {ss : List String} :
    ∀ w ∈ ss.map WideText.ofString, Parted w := by
  intro w hw
  obtain ⟨s, -, rfl⟩ := List.mem_map.mp hw
  exact parted_ofText s.toList

/-- The layout on one line is a text of the list. -/
theorem isTextOf_writeCompact (ss : List String) :
    IsTextOf (.ofStrings (ss.map .ofString)) (writeCompact (ofStrings ss)) := by
  have h :=
    @isTextOf_listText [] [] [] [] nofun nofun nofun nofun _
    (@parted_of_mem_map_ofString ss)
  rw [ofStrings, writeCompact, writeItems_strings]
  simpa [listText, bracketed] using h

theorem isSpace_newLine (level : Nat) : ∀ c ∈ newLine level, isSpace c = true := by
  intro c hc
  cases List.mem_cons.mp hc with
  | inl hc => rw [hc]; rfl
  | inr hc => rw [(List.mem_replicate.mp hc).2]; rfl

/-- So is the layout with a line for each item. -/
theorem isTextOf_writeIndented (ss : List String) :
    IsTextOf (.ofStrings (ss.map .ofString)) (writeIndented (ofStrings ss)) := by
  cases ss with
  | nil => exact isTextOf_writeCompact []
  | cons s ss =>
    have h := @isTextOf_listText [] _ _ _ nofun (isSpace_newLine 1) (isSpace_newLine 1)
      (isSpace_newLine 0) _ (@parted_of_mem_map_ofString (s :: ss))
    rw [ofStrings, writeIndented, writeIndentedAt, indentedItems_strings, block]
    simpa [listText, bracketed] using h

/-! ## The brackets of a list -/

theorem value_ne_str (n : Numeral) (w : WideText) : n.value ≠ .ok (.str w) := by
  unfold Numeral.value
  split
  · split <;> exact nofun
  · exact nofun

theorem value_ne_arr (n : Numeral) (vs : List Document) : n.value ≠ .ok (.arr vs) := by
  unfold Numeral.value
  split
  · split <;> exact nofun
  · exact nofun

/-- Only a string denotes a text. -/
theorem Denotes.exists_chars {w : WideText} {t r : Text}
    (h : Denotes (.value (.str w)) t r) :
    ∃ u, t = '"' :: u ∧ Chars u w r := by
  cases h with
  | string h => exact ⟨_, rfl, h⟩
  | word h => simp [words] at h
  | number _ hv => exact absurd hv (value_ne_str _ _)

/-- What spells a text does so in front of anything else. -/
theorem Denotes.append_str {w : WideText} {t r : Text}
    (h : Denotes (.value (.str w)) t r) :
    ∃ a, t = a ++ r ∧ ∀ r', Denotes (.value (.str w)) (a ++ r') r' := by
  obtain ⟨u, rfl, hchars⟩ := h.exists_chars
  obtain ⟨a, rfl, ha⟩ := hchars.exists_append
  refine ⟨'"' :: a ++ ['"'], by simp, fun r' => ?_⟩
  rw [List.append_assoc]
  exact .string (ha r')

/-- Anything can stand behind the closing bracket of a list of texts. -/
theorem Denotes.append_items {vs : List Document} (hvs : ∀ v ∈ vs, ∃ w, v = .str w)
    {t r : Text} (h : Denotes (.items vs) t r) :
    ∃ a, t = a ++ ']' :: r ∧ ∀ r', Denotes (.items vs) (a ++ ']' :: r') r' := by
  induction vs generalizing t with
  | nil => exact nomatch h
  | cons v vs ih =>
    obtain ⟨s, rfl⟩ := hvs v List.mem_cons_self
    cases h with
    | lastItem h hclose =>
      obtain ⟨a, rfl, ha⟩ := h.append_str
      obtain ⟨spaces, hspaces, hsplit⟩ := exists_spaces _
      rw [hclose] at hsplit
      refine ⟨a ++ spaces, ?_, fun r' => ?_⟩
      · rw [hsplit, List.append_assoc]
      · rw [List.append_assoc]
        refine .lastItem (ha _) ?_
        rw [skipSpace_append hspaces, skipSpace_cons rfl]
    | @item _ u w _ _ _ h hcomma hrest =>
      obtain ⟨a, rfl, ha⟩ := h.append_str
      obtain ⟨b, hb, hrest'⟩ := ih (fun w hw => hvs w (List.mem_cons_of_mem _ hw)) hrest
      obtain ⟨before, hbefore, hu⟩ := exists_spaces u
      obtain ⟨after, hafter, hw⟩ := exists_spaces w
      rw [hcomma, hw, hb] at hu
      refine ⟨a ++ before ++ ',' :: after ++ b, ?_, fun r' => ?_⟩
      · rw [hu]
        simp only [List.append_assoc, List.cons_append]
      · simp only [List.append_assoc, List.cons_append]
        refine .item (ha _) (s := after ++ (b ++ ']' :: r')) ?_ ?_
        · rw [skipSpace_append hbefore, skipSpace_cons rfl]
        · obtain ⟨c, v, hcv, hc⟩ := (hrest' r').opens
          rw [skipSpace_append hafter, hcv, skipSpace_cons hc.isSpace, ← hcv]
          exact hrest' r'

/-- A list of texts stands between its brackets, and does so on its own as well. -/
theorem Denotes.append_list {vs : List Document} (hvs : ∀ v ∈ vs, ∃ w, v = .str w)
    {t r : Text} (h : Denotes (.value (.arr vs)) t r) :
    ∃ core, t = '[' :: core ++ ']' :: r ∧ Denotes (.value (.arr vs))
      ('[' :: core ++ [']']) [] := by
  cases h with
  | word h => simp [words] at h
  | number _ hv => exact absurd hv (value_ne_arr _ _)
  | @emptyList u _ hclose =>
    obtain ⟨spaces, hspaces, hu⟩ := exists_spaces u
    rw [hclose] at hu
    refine ⟨spaces, by rw [hu, List.cons_append], .emptyList ?_⟩
    show skipSpace (spaces ++ [']']) = _
    rw [skipSpace_append hspaces, skipSpace_cons rfl]
  | @list u _ _ h =>
    obtain ⟨spaces, hspaces, hu⟩ := exists_spaces u
    obtain ⟨a, ha, hitems⟩ := h.append_items hvs
    rw [ha] at hu
    refine ⟨spaces ++ a, by rw [hu, List.cons_append, List.append_assoc], .list ?_⟩
    show Denotes _ (skipSpace (spaces ++ a ++ [']'])) []
    obtain ⟨c, v, hcv, hc⟩ := (hitems []).opens
    rw [List.append_assoc, skipSpace_append hspaces, hcv,
      skipSpace_cons hc.isSpace, ← hcv]
    exact hitems []

/-- A text of a list of texts is the list in its brackets, with white space around it. -/
theorem exists_brackets {ws : List WideText} {t : Text} (h : IsTextOf (.ofStrings ws) t) :
    ∃ front core back, t = front ++ bracketed core ++ back ∧
      (∀ c ∈ front, isSpace c = true) ∧
      (∀ c ∈ back, isSpace c = true) ∧ IsTextOf (.ofStrings ws) (bracketed core) := by
  obtain ⟨r, h, hr⟩ := h
  obtain ⟨front, hfront, ht⟩ := exists_spaces t
  obtain ⟨back, hback, hsplit⟩ := exists_spaces r
  rw [hr, List.append_nil] at hsplit
  subst hsplit
  have hstr : ∀ v ∈ ws.map Document.str, ∃ w, v = .str w := fun v hv =>
    (List.mem_map.mp hv).imp fun s hs => hs.2.symm
  obtain ⟨core, hcore, hdenotes⟩ := h.append_list hstr
  refine ⟨front, core, r, ?_, hfront, hback, [], ?_, rfl⟩
  · rw [ht, hcore, bracketed]
    simp only [List.append_assoc, List.cons_append, List.nil_append]
  · rwa [bracketed, List.cons_append, skipSpace_cons rfl]

/-- No text of items that were read has the halves of a character as neighbours. -/
theorem Denotes.parted_items {ws : List WideText} {t r : Text}
    (h : Denotes (.items (ws.map .str)) t r) : ∀ w ∈ ws, Parted w := by
  induction ws generalizing t with
  | nil => exact fun w hw => absurd hw List.not_mem_nil
  | cons w ws ih =>
    have hparted : ∀ {u v}, Denotes (.value (.str w)) u v → Parted w := by
      intro u v h
      obtain ⟨s, -, hchars⟩ := h.exists_chars
      exact hchars.parted
    intro v hv
    cases ws with
    | nil =>
      rw [List.mem_singleton.mp hv]
      cases h with
      | lastItem h => exact hparted h
      | item h => exact hparted h
    | cons w' ws =>
      cases h with
      | item h _ hrest =>
        rcases List.mem_cons.mp hv with rfl | hv
        · exact hparted h
        · exact ih hrest v hv

/-- In a text that was read, no high half stands directly in front of a low one: the two
would have been read as a character. -/
theorem parted_of_isTextOf {ws : List WideText} {t : Text}
    (h : IsTextOf (.ofStrings ws) t) :
    ∀ w ∈ ws, Parted w := by
  obtain ⟨r, h, -⟩ := h
  generalize hvs : ws.map Document.str = vs at h
  generalize skipSpace t = u at h
  rw [Document.ofStrings, hvs] at h
  cases h with
  | word h => simp [words] at h
  | number _ hv => exact absurd hv (value_ne_arr _ _)
  | emptyList =>
    rw [List.map_eq_nil_iff.mp hvs]
    exact fun w hw => absurd hw List.not_mem_nil
  | list h =>
    rw [← hvs] at h
    exact h.parted_items

end CodeWeave.Json
