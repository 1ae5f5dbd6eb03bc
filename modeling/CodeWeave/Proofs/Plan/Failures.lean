import CodeWeave.Proofs.Plan.Answers

/-!
# How planning fails

Planning is meant to fail as planning only: for a prompt that cannot be planned, and for a
client that fails to generate. Whatever the client answers is to give a plan, if need be
the one that stands for an answer without paths.

> `plans_generate`: all that can become of a prompt.

> `hasLongRun_of_inside`: an answer is stopped at a number only if a run of too many
digits stands in it.

> `generate_fails_as_planning_iff`: planning fails as planning, unless the answer
> stops at such a number. The failure of the number is of another kind, and nobody on
> the way takes it.
-/

namespace CodeWeave.Plan

open Text Json

/-! ## Prompts and clients -/

/-- The prompt is more than white space, and not too long. -/
structure Plannable (prompt : String) : Prop where
  ne_nil : strip prompt.toList ≠ []
  length_le : prompt.length ≤ maxPromptLength

/-- The client gives a text or fails to generate one. -/
def Generates (c : Client) : Prop :=
  ∀ prompt o f, (c.complete prompt o).1 = .error f → f.isA .generation = true

/-- What becomes of a prompt: a result, and what the outside is then. -/
inductive Plans (client : Option Client) (prompt : String) (o : Outside) :
    Except Failure (List String) × Outside → Prop
  | empty (h : strip prompt.toList = []) :
      Plans client prompt o (.error Fault.emptyPrompt.failure, o)
  | long (h : maxPromptLength < prompt.length) :
      Plans client prompt o (.error (Fault.longPrompt prompt.length).failure, o)
  | standard (h : Plannable prompt) (hclient : client = none) :
      Plans client prompt o (.ok standard, o)
  | failed {c : Client} {f : Failure} {o' : Outside} (h : Plannable prompt)
      (hclient : client = some c)
      (hcall : c.complete (request prompt) o = (.error f, o'))
      (hf : f.isA .generation = true) :
      Plans client prompt o (.error (Fault.callFailed f.message).failure, o')
  | broken {c : Client} {f : Failure} {o' : Outside} (h : Plannable prompt)
      (hclient : client = some c)
      (hcall : c.complete (request prompt) o = (.error f, o'))
      (hf : f.isA .generation = false) :
      Plans client prompt o (.error f, o')
  | answered {c : Client} {raw : String} {o' : Outside}
      {x : Except Failure (List WideText) × Outside} (h : Plannable prompt)
      (hclient : client = some c) (hcall : c.complete (request prompt) o = (.ok raw, o'))
      (hx : Comes (inside raw.toList) o' x) : Plans client prompt o (x.1.map names, x.2)

theorem plans_generate (client : Option Client) (prompt : String) (o : Outside) :
    Plans client prompt o (generate client prompt o) := by
  rw [generate_eq]
  by_cases hempty : (strip prompt.toList).isEmpty = true
  · rw [if_pos hempty]
    exact .empty (List.isEmpty_iff.mp hempty)
  rw [if_neg hempty]
  by_cases hlong : maxPromptLength < prompt.length
  · rw [if_pos hlong]
    exact .long hlong
  rw [if_neg hlong]
  have h : Plannable prompt :=
    ⟨fun hnil => hempty (List.isEmpty_iff.mpr hnil), Nat.le_of_not_lt hlong⟩
  cases client with
  | none => exact .standard h rfl
  | some c =>
    unfold asked
    dsimp only
    rw [Run.outcome_bind]
    rcases hcall : c.complete (request prompt) o with ⟨e | raw, o'⟩
    · dsimp only
      cases hf : e.isA .generation with
      | true => exact .failed h rfl hcall hf
      | false => exact .broken h rfl hcall hf
    · show Plans (some c) prompt o (ofAnswer raw.toList o')
      rw [ofAnswer_apply]
      exact .answered h rfl hcall (comes_of_parse raw.toList o')

/-- An answer to a prompt that can be planned is what the result comes of. -/
theorem Plans.of_answer {client : Option Client} {c : Client} {prompt raw : String}
    {o : Outside} {x : Except Failure (List String) × Outside}
    (h : Plans client prompt o x) (hclient : client = some c) (hprompt : Plannable prompt)
    (hraw : (c.complete (request prompt) o).1 = .ok raw) :
    ∃ o' y, Comes (inside raw.toList) o' y ∧ x = (y.1.map names, y.2) := by
  subst hclient
  cases h with
  | empty h => exact absurd h hprompt.ne_nil
  | long h => exact absurd hprompt.length_le (Nat.not_le_of_lt h)
  | standard _ hnone => exact nomatch hnone
  | failed _ hc hcall =>
    cases hc
    rw [hcall] at hraw
    exact nomatch hraw
  | broken _ hc hcall =>
    cases hc
    rw [hcall] at hraw
    exact nomatch hraw
  | answered _ hc hcall hx =>
    cases hc
    rw [hcall] at hraw
    cases hraw
    exact ⟨_, _, hx, rfl⟩

/-! ## Long numbers in an answer -/

theorem infix_dropOpening (t : Text) : dropOpening t <:+: t := by
  unfold dropOpening
  split
  next r hskip =>
    rw [skip_eq_some_iff.mp hskip]
    have htag : trimStart (r.dropWhile Char.isAlpha) <:+ r :=
      (suffix_trimStart _).trans (List.dropWhile_suffix _)
    exact (htag.trans (List.suffix_append _ r)).isInfix
  next => exact List.infix_rfl

theorem infix_dropClosing (t : Text) : dropClosing t <:+: t := by
  unfold dropClosing dropEnding?
  split
  next r hdrop =>
    split at hdrop
    next =>
      cases hdrop
      exact ((prefix_trimEnd _).trans (List.take_prefix _ t)).isInfix
    next => exact nomatch hdrop
  next => exact List.infix_rfl

theorem infix_unfence (raw : Text) : unfence raw <:+: raw :=
  ((infix_dropClosing _).trans (infix_dropOpening _)).trans (infix_strip raw)

/-- What stops the reading of an answer stands in the answer. -/
theorem hasLongRun_of_inside {n : Nat} {raw : Text}
    (h : StopsAtLongNumber n (inside raw)) : HasLongRun n raw := by
  have hrun : HasLongRun n (inside raw) :=
    (Stops.hasLongRun h).mono (skipSpace_suffix _).isInfix
  unfold inside at hrun
  split at hrun
  next =>
    obtain ⟨hlong, ds, hds, -, rfl⟩ := hrun
    exact absurd (Nat.lt_of_lt_of_le hlong hds.length_le) (by decide)
  next => exact hrun.mono (infix_unfence raw)

/-- A text that stops at a number comes to the failure of the number. -/
theorem Comes.of_longNumber {n : Nat} {t : Text} {o : Outside}
    {x : Except Failure (List WideText) × Outside} (h : Comes t o x)
    (hn : StopsAtLongNumber n t) :
    x = (.error ⟨.value, longIntegerMessage n, [], 0⟩, o) := by
  have hread := readDocument_eq_longInteger_iff.mpr hn
  cases h with
  | paths h => rw [readDocument_eq_ok_iff.mpr h] at hread; exact nomatch hread
  | notPaths h => rw [readDocument_eq_ok_iff.mpr h] at hread; exact nomatch hread
  | notJson _ hlong => exact absurd hn (hlong n)
  | longNumber h =>
    rw [readDocument_eq_longInteger_iff.mpr h] at hread
    cases hread
    rfl

/-- A text that is no list of paths comes to the fallback, if it stops at no number. -/
theorem Comes.of_other {t : Text} {o : Outside}
    {x : Except Failure (List WideText) × Outside} (h : Comes t o x)
    (ht : ∀ ss, ¬ IsTextOf (.ofStrings ss) t) (hn : ∀ n, ¬ StopsAtLongNumber n t) :
    x.1 = .ok (fallback.map .ofString) := by
  cases h with
  | paths h => exact absurd h (ht _)
  | notPaths => rfl
  | notJson => rfl
  | longNumber h => exact absurd h (hn _)

theorem stopsAtLongNumber_of_comes {t : Text} {o o' : Outside} {f : Failure}
    (h : Comes t o (.error f, o')) :
    ∃ n, StopsAtLongNumber n t := by
  cases h with
  | longNumber h => exact ⟨_, h⟩

/-- Every answer gives a plan, that of its paths or the fallback, except one that stops at
a whole number with too many digits, which has a run of as many digits in it. For every
prompt and every client that gives a text or fails to generate one, planning fails as
planning only, unless a prompt that can be planned has such an answer. -/
theorem generate_fails_as_planning_iff {client : Option Client}
    (hclient : ∀ c ∈ client, Generates c) :
    (∀ (raw : Text) (o : Outside),
      (∀ ss, IsTextOf (.ofStrings ss) (inside raw) → (parse raw o).1 = .ok (planned ss)) ∧
      ((∀ ss, ¬ IsTextOf (.ofStrings ss) (inside raw)) →
        (∀ n, ¬ StopsAtLongNumber n (inside raw)) →
        (parse raw o).1 = .ok (fallback.map .ofString)) ∧
      ∀ n, StopsAtLongNumber n (inside raw) →
        (parse raw o).1 = .error ⟨.value, longIntegerMessage n, [], 0⟩ ∧
          HasLongRun n raw) ∧
    ∀ (prompt : String) (o : Outside),
      (∀ f, (generate client prompt o).1 = .error f → f.isA .planning = true) ↔
        ¬ ∃ c raw n, client = some c ∧ Plannable prompt ∧
          (c.complete (request prompt) o).1 = .ok raw ∧
          StopsAtLongNumber n (inside raw.toList) := by
  refine ⟨fun raw o => ⟨fun ss h => ?_, fun hother hn => ?_,
    fun n h => ⟨?_, hasLongRun_of_inside h⟩⟩,
    fun prompt o => ?_⟩
  · rw [(comes_of_parse raw o).of_paths h]
  · exact (comes_of_parse raw o).of_other hother hn
  · rw [(comes_of_parse raw o).of_longNumber h]
  have hplans := plans_generate client prompt o
  generalize generate client prompt o = x at hplans
  constructor
  · intro hplanning hstops
    obtain ⟨c, raw, n, hc, hprompt, hraw, hn⟩ := hstops
    obtain ⟨o', y, hcomes, rfl⟩ := hplans.of_answer hc hprompt hraw
    rw [hcomes.of_longNumber hn] at hplanning
    exact Bool.noConfusion (hplanning _ rfl)
  · intro hstops f hf
    cases hplans with
    | empty => cases hf; rfl
    | long => cases hf; rfl
    | standard => exact nomatch hf
    | failed => cases hf; rfl
    | broken _ hc hcall hbroken =>
      rw [hclient _ hc _ _ _ (congrArg Prod.fst hcall)] at hbroken
      exact Bool.noConfusion hbroken
    | @answered c raw o' x hprompt hc hcall hx =>
      obtain ⟨r, o''⟩ := x
      cases r with
      | ok plan => cases hf
      | error e =>
        obtain ⟨n, hn⟩ := stopsAtLongNumber_of_comes hx
        exact absurd ⟨c, raw, n, hc, hprompt, congrArg Prod.fst hcall, hn⟩ hstops

/-- A client that answers with one path gives a plan of that path. -/
theorem generate_fails_as_planning_answered :
    let c : Client :=
      ⟨fun _ => pure (String.ofList (writeCompact (ofStrings ["src/App.tsx"])))⟩
    let o := Outside.silent ⟨.runtime, "down", [], 0⟩
    Generates c ∧ Plannable "a shop" ∧
      (parse (writeCompact (ofStrings ["src/App.tsx"])) o).1 =
        .ok [.ofString "src/App.tsx"] ∧
      ∀ f, (generate (some c) "a shop" o).1 = .error f → f.isA .planning = true := by
  intro c o
  have hgenerates : Generates c := fun _ _ _ h => nomatch h
  obtain ⟨hanswers, hplanning⟩ := @generate_fails_as_planning_iff (some c) fun d hd => by
    cases hd
    exact hgenerates
  have htext : IsTextOf (.ofStrings [.ofString "src/App.tsx"])
      (inside (writeCompact (ofStrings ["src/App.tsx"]))) := by
    have hplain :=
      @Wrapped.plain (writeCompact (ofStrings ["src/App.tsx"])) [] [] nofun nofun
    rw [List.nil_append, List.append_nil] at hplain
    exact isTextOf_inside (isTextOf_writeCompact ["src/App.tsx"]) hplain
  refine ⟨hgenerates, ⟨by decide, by decide⟩, (hanswers _ o).1 _ htext,
    (hplanning "a shop" o).mpr ?_⟩
  intro hstops
  obtain ⟨d, raw, n, hd, -, hraw, hn⟩ := hstops
  cases hd
  cases hraw
  rw [String.toList_ofList] at hn
  have hvalue := ((hanswers _ o).2.2 n hn).1
  rw [(hanswers _ o).1 _ htext] at hvalue
  exact nomatch hvalue

/-! ## A long number -/

/-- A number of ones, up to a closing bracket. -/
theorem number_replicate {n : Nat} (hn : 0 < n) :
    Number (List.replicate n '1' ++ [']']) ⟨false, List.replicate n '1', none,
      none⟩ [']'] := by
  have hdigits : Digits (List.replicate n '1' ++ [']']) (List.replicate n '1') [']'] := by
    refine ⟨rfl, ?_, fun c hc => ?_, fun c hc => ?_⟩
    · rw [ne_eq, List.replicate_eq_nil_iff]
      exact Nat.ne_of_gt hn
    · rw [(List.mem_replicate.mp hc).2]
      rfl
    · cases hc
      rfl
  have hzero : (List.replicate n '1' ++ [']']).head? ≠ some '0' := by
    obtain ⟨k, rfl⟩ := Nat.exists_eq_add_of_lt hn
    rw [List.replicate_succ]
    exact fun h => absurd (Option.some.inj h) (by decide)
  refine .positive (.digits hdigits hzero) (.none fun u ds r h => ?_)
    (.none fun e u negative v ds r h he => ?_)
  · cases h
  · cases h
    exact absurd he (by decide)

theorem stops_bracketed {n : Nat} (hn : Number.maxDigits < n) :
    StopsAtLongNumber n (bracketed (List.replicate n '1')) := by
  have hnumber := number_replicate (Nat.zero_lt_of_lt hn)
  obtain ⟨c, u, hcu, hc⟩ := hnumber.opens
  show Stops n .value (skipSpace ('[' :: (List.replicate n '1' ++ [']'])))
  rw [skipSpace_cons rfl]
  refine .list (.item ?_)
  rw [hcu, skipSpace_cons hc.isSpace, ← hcu]
  exact .number hnumber rfl rfl List.length_replicate hn

/-- A client answers with a list of one number with too many digits, and planning fails,
but not as planning. -/
theorem long_number_escapes :
    let raw := bracketed (List.replicate 4301 '1')
    let c : Client := ⟨fun _ => pure (String.ofList raw)⟩
    let o := Outside.silent ⟨.runtime, "down", [], 0⟩
    Generates c ∧ Plannable "a shop" ∧ (parse raw o).1 =
      .error ⟨.value, longIntegerMessage 4301, [], 0⟩ ∧
      ∃ f, (generate (some c) "a shop" o).1 = .error f ∧ f.isA .planning = false := by
  intro raw c o
  have hprompt : Plannable "a shop" := ⟨by decide, by decide⟩
  have hn : StopsAtLongNumber 4301 (inside raw) := by
    have hplain := @Wrapped.plain raw [] [] nofun nofun
    rw [List.nil_append, List.append_nil] at hplain
    rw [inside, unfence_of_wrapped hplain]
    exact stops_bracketed (by decide)
  refine ⟨fun _ _ _ h => Except.noConfusion rfl rfl (heq_of_eq h), hprompt, ?_,
    ⟨.value, longIntegerMessage 4301, [], 0⟩, ?_, rfl⟩
  · rw [(comes_of_parse raw o).of_longNumber hn]
  · have htext : (String.ofList raw).toList = raw := String.toList_ofList
    obtain ⟨o', y, hcomes, hy⟩ :=
      (plans_generate (some c) "a shop" o).of_answer rfl hprompt rfl
    rw [htext] at hcomes
    rw [hy, hcomes.of_longNumber hn]
    rfl

end CodeWeave.Plan
