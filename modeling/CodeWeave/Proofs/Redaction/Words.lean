import CodeWeave.Proofs.Text.Stretch
import CodeWeave.Redaction.Redact

/-!
# The words of the sensitive patterns

Each kind of sensitive string is a set of words: `IsKey`, `IsSecret`, `IsAddress`. This
file shows that the readers of the redactor look for exactly these words, so that from
here on nobody opens a reader:

> `accepts_apiKey`, `accepts_secret`, `accepts_address`: a reader succeeds exactly where a
> word of its kind stands.

> `apiKey_sound`, `secret_sound`, `address_sound`: what it passes over is such a word, for
> an API key one that may go on with further letters and digits.
-/

namespace CodeWeave.Sensitive

open Text

/-! ## The words -/

/-- The words of API keys, without the letters and digits that may follow in
the first form. -/
inductive IsKey : Text → Prop where
  | short (a : Text) (length : a.length = 20) (alnum : ∀ c ∈ a, isAlnum c = true) :
      IsKey ("sk-".toList ++ a)
  | long (b : Text) (length : b.length = 35) (chars : ∀ c ∈ b, isKeyChar c = true) :
      IsKey ("AIza".toList ++ b)

/-- What stands behind the name in the assignment of a secret: a separator and
a quoted value. -/
inductive IsAssigned : Text → Prop where
  | mk (s₁ : Text) (x : Char) (s₂ : Text) (q : Char) (v : Text) (q' : Char)
      (blanks₁ : ∀ c ∈ s₁, isBlank c = true) (separator : x = ':' ∨ x = '=')
      (blanks₂ : ∀ c ∈ s₂, isBlank c = true) (opening : isQuote q = true)
      (nonempty : v ≠ [])
      (value : ∀ c ∈ v, isQuote c = false) (closing : isQuote q' = true) :
      IsAssigned (s₁ ++ x :: (s₂ ++ q :: (v ++ [q'])))

/-- The word is a name under which secrets are assigned, in any case. -/
def IsName (key : Text) : Prop := key.map foldCase ∈ secretWords

instance : DecidablePred IsName :=
  fun key => inferInstanceAs (Decidable (key.map foldCase ∈ secretWords))

inductive IsSecret : Text → Prop where
  | mk (key a : Text) (name : IsName key) (assigned : IsAssigned a) : IsSecret (key ++ a)

inductive IsAddress : Text → Prop where
  | mk (loc : Text) (d : Char) (x tld : Text) (nonempty : loc ≠ [])
      (chars : ∀ c ∈ loc, isLocalChar c = true) (first : isDomainChar d = true)
      (domain : ∀ c ∈ x, isDomainChar c = true) (length : 2 ≤ tld.length)
      (letters : ∀ c ∈ tld, c.isAlpha = true) :
        IsAddress (loc ++ '@' :: d :: (x ++ '.' :: tld))

/-! ## API keys -/

/-- A short key is read with all letters and digits behind it; its first
twenty make it a key. -/
theorem shortKey_sound {t r : Text} (h : readShortKey t = some r) :
    ∃ w o, t = w ++ o ++ r ∧ IsKey w ∧ ∀ c ∈ o, isAlnum c = true := by
  unfold readShortKey at h
  obtain ⟨u, hu, h⟩ := Option.bind_eq_some_iff.mp h
  split at h
  next hlen =>
    have hr : u.dropWhile isAlnum = r := Option.some.inj h
    refine ⟨"sk-".toList ++ (u.takeWhile isAlnum).take 20,
      (u.takeWhile isAlnum).drop 20, ?_, ?_,
      fun c hc => List.mem_takeWhile_imp (List.mem_of_mem_drop hc)⟩
    · rw [skip_eq_some_iff.mp hu, ← hr]
      simp only [List.append_assoc]
      rw [← List.append_assoc (List.take _ _), List.take_append_drop,
        List.takeWhile_append_dropWhile]
    · refine .short _ ?_ fun c hc => List.mem_takeWhile_imp (List.mem_of_mem_take hc)
      rw [List.length_take]
      omega
  next => exact absurd h (by simp)

/-- Twenty letters and digits behind the mark are enough, whatever follows. -/
theorem shortKey_complete {a : Text} (hlen : a.length = 20)
    (ha : ∀ c ∈ a, isAlnum c = true) (r : Text) :
    (readShortKey ("sk-".toList ++ a ++ r)).isSome = true := by
  unfold readShortKey
  rw [List.append_assoc, skip_append]
  have hle : 20 ≤ ((a ++ r).takeWhile isAlnum).length := by
    rw [List.takeWhile_append_of_pos ha, List.length_append]
    omega
  show (if 20 ≤ ((a ++ r).takeWhile isAlnum).length then _ else none).isSome = true
  rw [if_pos hle]
  rfl

/-- A long key is read as it is, with nothing behind it. -/
theorem longKey_sound {t r : Text} (h : readLongKey t = some r) :
    ∃ w, t = w ++ r ∧ IsKey w := by
  unfold readLongKey at h
  obtain ⟨u, hu, h⟩ := Option.bind_eq_some_iff.mp h
  split at h
  next hcond =>
    obtain ⟨hlen, hall⟩ := hcond
    have hr : u.drop 35 = r := Option.some.inj h
    refine ⟨"AIza".toList ++ u.take 35, ?_, .long _ hlen (List.all_eq_true.mp hall)⟩
    rw [skip_eq_some_iff.mp hu, ← hr, List.append_assoc, List.take_append_drop]
  next => exact absurd h (by simp)

theorem longKey_complete {b : Text} (hlen : b.length = 35)
    (hb : ∀ c ∈ b, isKeyChar c = true) (r : Text) :
    (readLongKey ("AIza".toList ++ b ++ r)).isSome = true := by
  unfold readLongKey
  rw [List.append_assoc, skip_append]
  have htake : (b ++ r).take 35 = b := by rw [← hlen, List.take_left]
  show (if ((b ++ r).take 35).length = 35 ∧ ((b ++ r).take 35).all isKeyChar = true then _
    else none).isSome = true
  rw [htake, if_pos ⟨hlen, List.all_eq_true.mpr hb⟩]
  rfl

/-- What is passed over as an API key is the word of one, and letters and
digits behind it. -/
theorem apiKey_sound {t r : Text} (h : readApiKey t = some r) :
    ∃ w o, t = w ++ o ++ r ∧ IsKey w ∧ ∀ c ∈ o, isAlnum c = true := by
  unfold readApiKey at h
  cases hshort : readShortKey t with
  | some u =>
    rw [hshort] at h
    obtain rfl : u = r := Option.some.inj h
    exact shortKey_sound hshort
  | none =>
    rw [hshort] at h
    obtain ⟨w, ht, hw⟩ := longKey_sound h
    exact ⟨w, [], by rw [ht, List.append_nil], hw, List.forall_mem_nil _⟩

/-- A key at the head of a text is found, whatever follows. -/
theorem apiKey_complete {w : Text} (hw : IsKey w) (r : Text) :
    (readApiKey (w ++ r)).isSome = true := by
  unfold readApiKey
  rw [Option.isSome_or, Bool.or_eq_true]
  cases hw with
  | short a hlen ha => exact Or.inl (shortKey_complete hlen ha r)
  | long b hlen hb => exact Or.inr (longKey_complete hlen hb r)

/-- What is found as a key has a key in it, and every key is found. -/
theorem accepts_apiKey : Accepts readApiKey IsKey := by
  intro t
  constructor
  · intro h
    obtain ⟨r, hr⟩ := Option.isSome_iff_exists.mp h
    obtain ⟨w, o, ht, hw, _⟩ := apiKey_sound hr
    exact ⟨w, o ++ r, by rw [ht, List.append_assoc], hw⟩
  · rintro ⟨w, r, rfl, hw⟩
    exact apiKey_complete hw r

theorem IsKey.ne_nil {w : Text} (hw : IsKey w) : w ≠ [] := by
  cases hw with
  | short a => exact List.cons_ne_nil _ _
  | long b => exact List.cons_ne_nil _ _

/-- The reader of keys never stops where it started. -/
theorem advances_apiKey : Advances readApiKey := by
  intro t r h
  obtain ⟨w, o, ht, hw, _⟩ := apiKey_sound h
  exact ⟨w ++ o, List.append_ne_nil_of_left_ne_nil hw.ne_nil o, ht⟩

/-! ## Assigned secrets -/

/-- What follows an assignment whose name has been passed over. -/
def readAssigned (t : Text) : Option Text :=
  (readSeparator (trimStart t)).bind fun r => readQuoted (trimStart r)

/-- What follows an assigned secret at the head of the text. -/
def readSecret (t : Text) : Option Text := (cutSecret t).map (·.2)

/-- An assignment is a name, and behind it a separator with a quoted value. -/
theorem cutSecret_eq (t : Text) :
    cutSecret t =
      (cutSecretWord t).bind fun p => (readAssigned p.2).map fun r => (p.1, r) := by
  unfold cutSecret readAssigned
  cases cutSecretWord t with
  | none => rfl
  | some p =>
    show ((readSeparator (trimStart p.2)).bind fun r =>
        (readQuoted (trimStart r)).bind fun r => some (p.1, r)) =
      ((readSeparator (trimStart p.2)).bind fun r => readQuoted (trimStart r)).map
        fun r => (p.1, r)
    cases readSeparator (trimStart p.2) with
    | none => rfl
    | some r =>
      show (readQuoted (trimStart r)).bind _ = (readQuoted (trimStart r)).map _
      cases readQuoted (trimStart r) <;> rfl

/-- What is read in quotes is not empty, and no quote of either kind is in it. -/
theorem quoted_sound {t r : Text} (h : readQuoted t = some r) :
    ∃ q v q', t = q :: (v ++ q' :: r) ∧ isQuote q = true ∧ v ≠ [] ∧
      (∀ c ∈ v, isQuote c = false) ∧ isQuote q' = true := by
  unfold readQuoted at h
  split at h
  next q c cs =>
    split at h
    next hq =>
      obtain ⟨hq, hc⟩ := Bool.and_eq_true_iff.mp hq
      rw [Bool.not_eq_true'] at hc
      split at h
      next q' rest hdrop =>
        obtain rfl : rest = r := Option.some.inj h
        refine ⟨q, c :: cs.takeWhile fun d => !isQuote d, q', ?_, hq,
          List.cons_ne_nil _ _, ?_, ?_⟩
        · rw [List.cons_append, ← hdrop, List.takeWhile_append_dropWhile]
        · intro d hd
          rcases List.mem_cons.mp hd with rfl | hd
          · exact hc
          · have hd' := List.mem_takeWhile_imp hd
            rw [Bool.not_eq_true'] at hd'
            exact hd'
        · -- the value is read up to the first quote, so what stops it is one
          have hne : cs.dropWhile (fun d => !isQuote d) ≠ [] := by
            rw [hdrop]
            exact List.cons_ne_nil _ _
          have hhead := List.head_dropWhile_not (fun d => !isQuote d) hne
          simp only [hdrop, List.head_cons, Bool.not_eq_false'] at hhead
          exact hhead
      next => exact absurd h (by simp)
    next => exact absurd h (by simp)
  next => exact absurd h (by simp)

/-- The value ends at the first quote, of either kind. -/
theorem quoted_complete {q q' : Char} {v : Text} (hq : isQuote q = true) (hne : v ≠ [])
    (hv : ∀ c ∈ v, isQuote c = false) (hq' : isQuote q' = true) (r : Text) :
    readQuoted (q :: (v ++ q' :: r)) = some r := by
  cases v with
  | nil => exact absurd rfl hne
  | cons c cs =>
    have hc : isQuote c = false := hv c List.mem_cons_self
    have hcs : ∀ d ∈ cs, (!isQuote d) = true := fun d hd => by
      rw [hv d (List.mem_cons_of_mem c hd)]
      rfl
    have hdrop := (takeWhile_append_of_neg (p := fun d => !isQuote d) hcs (d := q')
      (by rw [hq']; rfl) r).2
    simp only [readQuoted, List.cons_append, hq, hc, hdrop, Bool.not_false,
      Bool.and_true, if_true]

theorem not_isBlank_of_separator {x : Char} (hx : x = ':' ∨ x = '=') :
    isBlank x = false := by
  rcases hx with rfl | rfl <;> decide

theorem not_isBlank_of_isQuote {q : Char} (hq : isQuote q = true) :
    isBlank q = false := by
  unfold isQuote at hq
  rw [Bool.or_eq_true, beq_iff_eq, beq_iff_eq] at hq
  rcases hq with rfl | rfl <;> decide

/-- A separator is one character, a colon or an equals sign. -/
theorem separator_eq_some_iff {t r : Text} :
    readSeparator t = some r ↔ ∃ x, t = x :: r ∧ (x = ':' ∨ x = '=') := by
  unfold readSeparator
  constructor
  · intro h
    split at h
    next c cs =>
      split at h
      next hc =>
        rw [Bool.or_eq_true, beq_iff_eq, beq_iff_eq] at hc
        exact ⟨c, by rw [Option.some.inj h], hc⟩
      next => exact absurd h (by simp)
    next => exact absurd h (by simp)
  · rintro ⟨x, rfl, hx⟩
    show (if (x == ':' || x == '=') = true then some r else none) = some r
    rw [if_pos]
    rw [Bool.or_eq_true, beq_iff_eq, beq_iff_eq]
    exact hx

/-- What is read behind a name is a separator with a quoted value. -/
theorem assigned_sound {t r : Text} (h : readAssigned t = some r) :
    ∃ a, t = a ++ r ∧ IsAssigned a := by
  unfold readAssigned at h
  obtain ⟨u, hu, hr⟩ := Option.bind_eq_some_iff.mp h
  obtain ⟨x, hx, hsep⟩ := separator_eq_some_iff.mp hu
  obtain ⟨q, v, q', hquoted, hq, hne, hv, hq'⟩ := quoted_sound hr
  obtain ⟨s₁, hs₁, ht⟩ := exists_eq_append_trimStart t
  obtain ⟨s₂, hs₂, hu'⟩ := exists_eq_append_trimStart u
  refine ⟨_, ?_, .mk s₁ x s₂ q v q' hs₁ hsep hs₂ hq hne hv hq'⟩
  rw [ht, hx, hu', hquoted]
  simp only [List.append_assoc, List.cons_append, List.nil_append]

/-- The reader finds the end of an assignment, whatever follows. -/
theorem assigned_complete {a : Text} (ha : IsAssigned a) (r : Text) :
    readAssigned (a ++ r) = some r := by
  cases ha with
  | mk s₁ x s₂ q v q' hs₁ hsep hs₂ hq hne hv hq' =>
    simp only [List.append_assoc, List.cons_append, List.nil_append]
    unfold readAssigned
    rw [trimStart_append hs₁, trimStart_cons (not_isBlank_of_separator hsep),
      separator_eq_some_iff.mpr ⟨x, rfl, hsep⟩, Option.bind_some, trimStart_append hs₂,
      trimStart_cons (not_isBlank_of_isQuote hq)]
    exact quoted_complete hq hne hv hq' r

/-- A word is found in any spelling that folds to it. -/
theorem cutWord_eq_some_iff {word t : Text} {key r : Text} :
    cutWord word t = some (key, r) ↔ t = key ++ r ∧ key.map foldCase = word := by
  unfold cutWord
  constructor
  · intro h
    split at h
    next hfold =>
      obtain ⟨rfl, rfl⟩ := Prod.mk.inj (Option.some.inj h)
      exact ⟨(List.take_append_drop _ _).symm, hfold⟩
    next => exact absurd h (by simp)
  · rintro ⟨rfl, rfl⟩
    rw [List.length_map, List.take_left, List.drop_left, if_pos rfl]

/-- No name of a secret is the beginning of another, so at most one stands at the
head of a text. -/
theorem secretWords_prefix_free :
    ∀ u ∈ secretWords, ∀ v ∈ secretWords, u <+: v → u = v := by
  decide

/-- No name is the beginning of another, so a name is found in one way. -/
theorem cutSecretWord_eq_some_iff {t key r : Text} :
    cutSecretWord t = some (key, r) ↔ t = key ++ r ∧ IsName key := by
  unfold cutSecretWord
  constructor
  · intro h
    obtain ⟨word, hmem, hcut⟩ := List.exists_of_findSome?_eq_some h
    obtain ⟨ht, hfold⟩ := cutWord_eq_some_iff.mp hcut
    exact ⟨ht, by rw [IsName, hfold]; exact hmem⟩
  · rintro ⟨rfl, hname⟩
    cases hfind : secretWords.findSome? (cutWord · (key ++ r)) with
    | none =>
      have hnone := List.findSome?_eq_none_iff.mp hfind _ hname
      rw [cutWord_eq_some_iff.mpr ⟨rfl, rfl⟩] at hnone
      exact absurd hnone (by simp)
    | some p =>
      obtain ⟨word, hmem, hcut⟩ := List.exists_of_findSome?_eq_some hfind
      obtain ⟨ht, hfold⟩ :=
        cutWord_eq_some_iff.mp (show cutWord word (key ++ r) = some (p.1, p.2) from hcut)
      -- the two names start at the same place, so one is the beginning of the other
      have hkeys : key = p.1 := by
        have hlen : key.length = p.1.length := by
          rcases List.append_eq_append_iff.mp ht with ⟨o, hp, _⟩ | ⟨o, hkey, _⟩
          · have hpre : key.map foldCase <+: word := ⟨o.map foldCase, by
              rw [← hfold, hp, List.map_append]⟩
            have heq := secretWords_prefix_free _ hname _ hmem hpre
            rw [← List.length_map (f := foldCase), heq, ← hfold, List.length_map]
          · have hpre : word <+: key.map foldCase := ⟨o.map foldCase, by
              rw [← hfold, hkey, List.map_append]⟩
            have heq := secretWords_prefix_free _ hmem _ hname hpre
            rw [← List.length_map (f := foldCase), ← heq, ← hfold, List.length_map]
        exact (List.append_inj ht hlen).1
      obtain ⟨k, u⟩ := p
      obtain rfl : key = k := hkeys
      rw [List.append_cancel_left ht]

/-- What is passed over as a secret is the word of one, and starts with its name. -/
theorem secret_sound {t r : Text} (h : readSecret t = some r) :
    ∃ key a, t = key ++ a ++ r ∧ IsName key ∧ IsAssigned a := by
  unfold readSecret at h
  rw [cutSecret_eq, Option.map_bind] at h
  obtain ⟨⟨key, u⟩, hword, h⟩ := Option.bind_eq_some_iff.mp h
  obtain ⟨ht, hname⟩ := cutSecretWord_eq_some_iff.mp hword
  rw [Function.comp_apply, Option.map_map] at h
  obtain ⟨r', hr', hrr⟩ := Option.map_eq_some_iff.mp h
  obtain rfl : r' = r := hrr
  obtain ⟨a, hu, ha⟩ := assigned_sound hr'
  exact ⟨key, a, by rw [ht, show u = a ++ r' from hu, List.append_assoc], hname, ha⟩

/-- A hit of the search for secrets is a name and what it is assigned. -/
theorem secret_of_hit {front back : List Piece} {x u : Text}
    (cut : Cut readSecret (front ++ .hit x :: back) u) :
    ∃ key a, x = key ++ a ∧ IsName key ∧ IsAssigned a := by
  obtain ⟨key, a, hx, hname, ha⟩ := secret_sound cut.read_hit.2
  exact ⟨key, a, List.append_cancel_right hx, hname, ha⟩

/-- An assignment to a name at the head of a text is read to its end. -/
theorem secret_complete {key a : Text} (hname : IsName key) (ha : IsAssigned a)
    (r : Text) :
    readSecret (key ++ a ++ r) = some r := by
  unfold readSecret
  rw [cutSecret_eq, List.append_assoc, cutSecretWord_eq_some_iff.mpr ⟨rfl, hname⟩,
    Option.bind_some, assigned_complete ha]
  rfl

/-- What is found as a secret is an assignment to a name, and every such one is found. -/
theorem accepts_secret : Accepts readSecret IsSecret := by
  intro t
  constructor
  · intro h
    obtain ⟨r, hr⟩ := Option.isSome_iff_exists.mp h
    obtain ⟨key, a, ht, hname, ha⟩ := secret_sound hr
    exact ⟨key ++ a, r, ht, .mk key a hname ha⟩
  · rintro ⟨w, r, rfl, hw⟩
    cases hw with
    | mk key a hname ha =>
      rw [secret_complete hname ha]
      rfl

theorem IsName.ne_nil {key : Text} (h : IsName key) : key ≠ [] := by
  rintro rfl
  exact absurd h (by decide)

theorem IsSecret.ne_nil {w : Text} (hw : IsSecret w) : w ≠ [] := by
  obtain ⟨key, a, name, _⟩ := hw
  exact List.append_ne_nil_of_left_ne_nil name.ne_nil a

theorem advances_secret : Advances readSecret := by
  intro t r h
  obtain ⟨key, a, ht, hname, _⟩ := secret_sound h
  exact ⟨key ++ a, List.append_ne_nil_of_left_ne_nil hname.ne_nil a, ht⟩

/-! ## E-mail addresses -/

/-- What is found stands behind a stretch without a character that stops it. -/
theorem longest_sound {α : Type} {stop : Char → Bool} {next : Text → Option α} {t : Text}
    {a : α} (h : longest stop next t = some a) :
    ∃ l m, t = l ++ m ∧ (∀ c ∈ l, stop c = false) ∧ next m = some a := by
  induction t with
  | nil => exact ⟨[], [], rfl, by simp, h⟩
  | cons c cs ih =>
    rw [longest] at h
    split at h
    next => exact ⟨[], c :: cs, rfl, by simp, h⟩
    next hstop =>
      split at h
      next b hb =>
        -- a longer way has been found, one character further on
        obtain rfl : b = a := Option.some.inj h
        obtain ⟨l, m, hcs, hl, hm⟩ := ih hb
        refine ⟨c :: l, m, by rw [hcs]; rfl, ?_, hm⟩
        intro d hd
        rcases List.mem_cons.mp hd with rfl | hd
        · exact Bool.eq_false_iff.mpr hstop
        · exact hl d hd
      next => exact ⟨[], c :: cs, rfl, by simp, h⟩

/-- If there is any such place, one is found. -/
theorem longest_complete {α : Type} {stop : Char → Bool} {next : Text → Option α}
    {l m : Text} (hl : ∀ c ∈ l, stop c = false) (hm : (next m).isSome = true) :
    (longest stop next (l ++ m)).isSome = true := by
  induction l with
  | nil =>
    cases m with
    | nil => exact hm
    | cons c cs =>
      -- whether or not a longer way is found, this one is there
      rw [List.nil_append, longest]
      split
      · exact hm
      · split
        · rfl
        · exact hm
  | cons c l ih =>
    have htail := ih fun d hd => hl d (List.mem_cons_of_mem c hd)
    rw [List.cons_append, longest, hl c List.mem_cons_self]
    obtain ⟨a, ha⟩ := Option.isSome_iff_exists.mp htail
    simp only [ha, Bool.false_eq_true, if_false, Option.isSome_some]

/-- The last part of an address has at least two letters. -/
theorem topLevel_sound {t r : Text} (h : readTopLevel t = some r) :
    ∃ tld, t = '.' :: (tld ++ r) ∧ 2 ≤ tld.length ∧ ∀ c ∈ tld, c.isAlpha = true := by
  unfold readTopLevel at h
  obtain ⟨u, hu, h⟩ := Option.bind_eq_some_iff.mp h
  split at h
  next hlen =>
    have hr : u.dropWhile Char.isAlpha = r := Option.some.inj h
    refine ⟨u.takeWhile Char.isAlpha, ?_, hlen, fun c hc => List.mem_takeWhile_imp hc⟩
    rw [skip_eq_some_iff.mp hu, ← hr, List.takeWhile_append_dropWhile]
    rfl
  next => exact absurd h (by simp)

theorem topLevel_complete {tld : Text} (hlen : 2 ≤ tld.length)
    (htld : ∀ c ∈ tld, c.isAlpha = true) (r : Text) :
    (readTopLevel ('.' :: (tld ++ r))).isSome = true := by
  unfold readTopLevel
  rw [show '.' :: (tld ++ r) = ".".toList ++ (tld ++ r) from rfl, skip_append]
  have hle : 2 ≤ ((tld ++ r).takeWhile Char.isAlpha).length := by
    rw [List.takeWhile_append_of_pos htld, List.length_append]
    omega
  show (if 2 ≤ ((tld ++ r).takeWhile Char.isAlpha).length then _ else none).isSome = true
  rw [if_pos hle]
  rfl

/-- What is passed over as an e-mail address is the word of one. -/
theorem address_sound {t r : Text} (h : readEmail t = some r) :
    ∃ w, t = w ++ r ∧ IsAddress w := by
  unfold readEmail at h
  split at h
  next c cs d ds hdrop =>
    split at h
    next hcd =>
      obtain ⟨hc, hd⟩ := Bool.and_eq_true_iff.mp hcd
      obtain ⟨x, m, hds, hx, hm⟩ := longest_sound h
      obtain ⟨tld, htld, hlen, hletters⟩ := topLevel_sound hm
      have hcut : c :: cs = (c :: cs).takeWhile isLocalChar ++ '@' :: d :: ds := by
        rw [← hdrop, List.takeWhile_append_dropWhile]
      refine ⟨_, hcut.trans ?_, .mk ((c :: cs).takeWhile isLocalChar) d x tld ?_
        (fun e he => List.mem_takeWhile_imp he) hd ?_ hlen hletters⟩
      · rw [hds, htld]
        simp only [List.append_assoc, List.cons_append]
      · rw [List.takeWhile_cons, hc]
        exact List.cons_ne_nil _ _
      · intro e he
        have hstop := hx e he
        rw [Bool.not_eq_false'] at hstop
        exact hstop
    next => exact absurd h (by simp)
  next => exact absurd h (by simp)

/-- What is cut out as an address is one. -/
theorem address_of_hit {front back : List Piece} {x u : Text}
    (cut : Cut readEmail (front ++ .hit x :: back) u) : IsAddress x := by
  obtain ⟨w, hx, hw⟩ := address_sound cut.read_hit.2
  rw [List.append_cancel_right hx]
  exact hw

/-- An address at the head of a text is found, perhaps with more behind it. -/
theorem address_complete {w : Text} (hw : IsAddress w) (r : Text) :
    (readEmail (w ++ r)).isSome = true := by
  cases hw with
  | mk loc d x tld hne hloc hd hx hlen hletters =>
    simp only [List.append_assoc, List.cons_append]
    obtain ⟨_, hdrop⟩ := takeWhile_append_of_neg hloc (d := '@') (by decide)
      (d :: (x ++ '.' :: (tld ++ r)))
    cases loc with
    | nil => exact absurd rfl hne
    | cons c cs =>
      unfold readEmail
      rw [hdrop]
      simp only [List.cons_append, hloc c List.mem_cons_self, hd, Bool.and_self, if_true]
      refine longest_complete (fun e he => ?_) (topLevel_complete hlen hletters r)
      rw [hx e he]
      rfl

/-- What is found as an address has one in it, and every address is found. -/
theorem accepts_address : Accepts readEmail IsAddress := by
  intro t
  constructor
  · intro h
    obtain ⟨r, hr⟩ := Option.isSome_iff_exists.mp h
    obtain ⟨w, ht, hw⟩ := address_sound hr
    exact ⟨w, r, ht, hw⟩
  · rintro ⟨w, r, rfl, hw⟩
    exact address_complete hw r

theorem IsAddress.ne_nil {w : Text} (hw : IsAddress w) : w ≠ [] := by
  cases hw with
  | mk loc d x tld hne => exact List.append_ne_nil_of_left_ne_nil hne _

theorem advances_address : Advances readEmail := by
  intro t r h
  obtain ⟨w, ht, hw⟩ := address_sound h
  exact ⟨w, hw.ne_nil, ht⟩

/-! ## What a search finds -/

/-- A kind is reported if it is looked for and its pattern occurs. -/
theorem mem_find_iff {k : Sensitive} {t : Text} :
    k ∈ find t ↔ k.applied = true ∧ k.pattern.occurs t = true := by
  unfold find allApplied
  rw [List.mem_filter, List.mem_filter]
  have hall : k ∈ all := by cases k <;> decide
  simp only [hall, true_and]

/-- A search finds the kinds of which a word stands in the text. -/
theorem mem_find (t : Text) :
    (apiKeys ∈ find t ↔ Occurs IsKey t) ∧ (secrets ∈ find t ↔ Occurs IsSecret t) ∧
      (emails ∈ find t ↔ Occurs IsAddress t) ∧ paths ∉ find t := by
  refine ⟨?_, ?_, ?_, ?_⟩
  · rw [mem_find_iff, ← occurs_iff accepts_apiKey]
    exact and_iff_right rfl
  · rw [mem_find_iff, ← occurs_iff accepts_secret]
    exact and_iff_right rfl
  · rw [mem_find_iff, ← occurs_iff accepts_address]
    exact and_iff_right rfl
  · rw [mem_find_iff]
    rintro ⟨happlied, _⟩
    exact Bool.noConfusion happlied

/-- A search finds nothing exactly if no word of any applied kind stands in the text. -/
theorem find_eq_nil_iff (t : Text) :
    find t = [] ↔ ¬ Occurs IsKey t ∧ ¬ Occurs IsSecret t ∧ ¬ Occurs IsAddress t := by
  obtain ⟨hkeys, hsecrets, hemails, hpaths⟩ := mem_find t
  rw [List.eq_nil_iff_forall_not_mem]
  constructor
  · intro h
    exact ⟨fun ho => h _ (hkeys.mpr ho), fun ho => h _ (hsecrets.mpr ho),
      fun ho => h _ (hemails.mpr ho)⟩
  · rintro ⟨hk, hs, he⟩ k hmem
    cases k with
    | apiKeys => exact hk (hkeys.mp hmem)
    | secrets => exact hs (hsecrets.mp hmem)
    | emails => exact he (hemails.mp hmem)
    | paths => exact hpaths hmem

end CodeWeave.Sensitive
