import CodeWeave.CommandLine.Session
import CodeWeave.Proofs.Except
import Mathlib.Data.List.TakeWhile

/-!
# Which command lines are dry runs

A command line is read from left to right, and what has been read stays: flags and words
that nobody asks for are only added to. So a word leaves its trace wherever it stands:

> `leaves_of_take`: every option and every unknown word is found in what has
been read in the end.

> `isDryRun_of_readRequest`: if a command line with the word `--dry-run` can be read, it
> asks for a dry run of a build, whatever else it holds.
-/

namespace CodeWeave.CommandLine

/-! ## What has been read stays -/

/-- No flag and no unknown word is lost. -/
structure Given.Extends (g g' : Given) : Prop where
  flags : g.flags ⊆ g'.flags
  extras : g.extras ⊆ g'.extras

namespace Given.Extends

variable {g g' g'' : Given}

theorem refl (g : Given) : g.Extends g := ⟨fun _ h => h, fun _ h => h⟩

theorem trans (h : g.Extends g') (h' : g'.Extends g'') : g.Extends g'' :=
  ⟨fun _ hx => h'.flags (h.flags hx), fun _ hx => h'.extras (h.extras hx)⟩

theorem addFlag (g : Given) (flag : String) :
    g.Extends { g with flags := g.flags ++ [flag] } :=
  ⟨List.subset_append_left _ _, fun _ h => h⟩

theorem addExtras (g : Given) (extras : List String) :
    g.Extends { g with extras := g.extras ++ extras } :=
  ⟨fun _ h => h, List.subset_append_left _ _⟩

end Given.Extends

namespace CommandSpec

variable {c : CommandSpec} {o : OptionSpec} {g g' : Given}

/-- A flag is taken by adding its name. -/
theorem takeFlag_eq_ok (h : c.takeFlag o g = .ok g') :
    g' = { g with flags := g.flags ++ [o.key] } := by
  unfold takeFlag at h
  split at h
  · exact nomatch h
  · exact (Except.ok.inj h).symm

/-- Taking a value forgets no flag. -/
theorem extends_takeValue {value : String} (h : c.takeValue o value g = .ok g') :
    g.Extends g' := by
  unfold takeValue at h
  split at h
  · split at h
    · cases h
      exact ⟨fun _ hx => hx, fun _ hx => hx⟩
    · exact nomatch h
  · cases h
    exact ⟨fun _ hx => hx, fun _ hx => hx⟩

/-- Taking flags that are written together forgets none that was given before. -/
theorem extends_takeFlags {os : List OptionSpec}
    (h : os.foldlM (fun g o => c.takeFlag o g) g = .ok g') :
    g.Extends g' := by
  induction os generalizing g with
  | nil =>
    cases h
    exact .refl _
  | cons o os ih =>
    obtain ⟨g₁, hfirst, hrest⟩ := bind_eq_ok_iff.mp (by rwa [List.foldlM_cons] at h)
    rw [takeFlag_eq_ok hfirst] at hrest
    exact (Given.Extends.addFlag g o.key).trans (ih hrest)

/-- An option uses no word behind it but an argument, and takes nothing back. -/
theorem takeOption_spec {m : Mention} {ws : List Word} {used : Nat}
    (h : c.takeOption m ws g = .ok (g', used)) :
    g.Extends g' ∧ (∀ w ∈ ws.take used, w.isOption = false) ∧
      (m.option.takesValue = false → m.value = none → m.option.key ∈ g'.flags) := by
  unfold takeOption at h
  split at h
  next htakes hvalue =>
    obtain ⟨g₁, hg₁, hg'⟩ := bind_eq_ok_iff.mp h
    cases hg'
    exact ⟨extends_takeValue hg₁, fun w hw => absurd hw List.not_mem_nil,
      fun hnot => nomatch htakes.symm.trans hnot⟩
  next htakes hvalue =>
    obtain ⟨g₁, hg₁, hg'⟩ := bind_eq_ok_iff.mp h
    cases hg'
    refine ⟨extends_takeValue hg₁, fun w hw => ?_,
      fun hnot => nomatch htakes.symm.trans hnot⟩
    rw [List.mem_singleton.mp hw]
    rfl
  next => exact nomatch h
  next =>
    obtain ⟨g₁, hg₁, hg'⟩ := bind_eq_ok_iff.mp h
    cases hg'
    rw [takeFlag_eq_ok hg₁]
    exact ⟨.addFlag g m.option.key, fun w hw => absurd hw List.not_mem_nil, fun _ _ =>
      List.mem_append_right _ (List.mem_singleton_self _)⟩
  next hvalue =>
    split at h
    · exact nomatch h
    · obtain ⟨⟨os, rest⟩, -, hos⟩ := bind_eq_ok_iff.mp h
      obtain ⟨g₁, hg₁, hg'⟩ := bind_eq_ok_iff.mp hos
      cases hg'
      refine ⟨Given.Extends.trans ?_ (extends_takeFlags hg₁),
        fun w hw => absurd hw List.not_mem_nil, fun _ hnone =>
        nomatch hvalue.symm.trans hnone⟩
      cases rest with
      | none => exact .refl g
      | some t => exact .addExtras g [String.ofList t]

end CommandSpec

/-- Arguments go to their names, and what is left over to the extras. -/
theorem extends_takeArguments (names : List String) (ws : List Word) (g : Given) :
    g.Extends (takeArguments names ws g).2 := by
  fun_induction takeArguments names ws g with
  | case1 ws g => exact .addExtras g _
  | case2 => exact .refl _
  | case3 _ _ _ _ _ ih | case4 _ _ _ _ _ ih | case5 _ _ _ _ _ _ ih =>
    exact ⟨ih.flags, ih.extras⟩
  | case6 => exact .addExtras _ _

/-! ## Every word leaves its trace -/

/-- What has been read shows the word: an option without a value among the flags, an
unknown word among the extras. -/
def Word.Leaves (g : Given) : Word → Prop
  | .option m _ => m.option.takesValue = false → m.value = none → m.option.key ∈ g.flags
  | .unknown t => t ∈ g.extras
  | _ => True

/-- Only options have to leave something. -/
theorem Word.leaves_of_not_isOption {w : Word} (h : w.isOption = false) (g : Given) :
    w.Leaves g := by
  cases w with
  | option | unknown => exact nomatch h
  | argument | separator => trivial

namespace CommandSpec

variable {c : CommandSpec}

/-- By induction on the words: each option leaves its flag, and no later
word takes it away. -/
theorem leaves_of_take {names : List String} {ws : List Word} {g g' : Given}
    (h : c.take names ws g = .ok g') :
    g.Extends g' ∧ ∀ w ∈ ws, w.Leaves g' := by
  fun_induction take c names ws g with
  | case1 names g =>
    cases h
    exact ⟨.refl _, fun w hw => absurd hw List.not_mem_nil⟩
  | case2 => exact nomatch h
  | case3 => exact nomatch h
  | case4 names g m t rest g₁ used htake ih =>
    obtain ⟨hextends, hused, hflag⟩ := takeOption_spec htake
    obtain ⟨hrest, hleaves⟩ := ih h
    refine ⟨hextends.trans hrest, fun w hw => ?_⟩
    rcases List.mem_cons.mp hw with rfl | hw
    · exact fun htakes hvalue => hrest.flags (hflag htakes hvalue)
    · rw [← List.take_append_drop used rest] at hw
      rcases List.mem_append.mp hw with hw | hw
      · exact Word.leaves_of_not_isOption (hused w hw) g'
      · exact hleaves w hw
  | case5 names g t rest ih =>
    obtain ⟨hrest, hleaves⟩ := ih h
    refine ⟨(Given.Extends.addExtras g [t]).trans hrest, fun w hw => ?_⟩
    rcases List.mem_cons.mp hw with rfl | hw
    · exact hrest.extras (List.mem_append_right _ (List.mem_singleton_self t))
    · exact hleaves w hw
  | case6 names g w rest hoption hunknown names' g₁ hargs ih =>
    have hextends :=
      extends_takeArguments names (w :: rest.takeWhile fun v => !v.isOption) g
    rw [hargs] at hextends
    obtain ⟨hrest, hleaves⟩ := ih h
    refine ⟨hextends.trans hrest, fun v hv => ?_⟩
    rcases List.mem_cons.mp hv with rfl | hv
    · cases v with
      | option m t => exact absurd rfl (hoption m t)
      | unknown t => exact absurd rfl (hunknown t)
      | argument | separator => trivial
    · rw [← List.takeWhile_append_dropWhile (p := fun v : Word => !v.isOption)
        (l := rest)] at hv
      rcases List.mem_append.mp hv with hv | hv
      · have hnot := List.mem_takeWhile_imp hv
        exact Word.leaves_of_not_isOption (by simpa using hnot) g'
      · exact hleaves v hv

/-! ## Words -/

/-- A word with dashes keeps its text, whatever it is classified as. -/
theorem text_of_classifyDashed {t : Text} {w : Word} (h : c.classifyDashed t = .ok w) :
    w.text = String.ofList t := by
  unfold classifyDashed at h
  dsimp only at h
  split at h
  · cases h
    rfl
  split at h
  · cases h
    rfl
  split at h
  · cases h
    rfl
  · cases h
    split <;> rfl
  · exact nomatch h

theorem text_of_classifyWord {word : String} {w : Word}
    (h : c.classifyWord word = .ok w) : w.text = word := by
  unfold classifyWord at h
  split at h
  · rw [text_of_classifyDashed h, String.ofList_toList]
  · cases h
    rfl

/-- A word in front of the separator is classified by itself. -/
theorem classify_cons_eq_ok {first : String} {words : List String} {ws : List Word}
    (hfirst : first ≠ "--") (h : c.classify (first :: words) = .ok ws) :
    ∃ w vs, c.classifyWord first = .ok w ∧ c.classify words = .ok vs ∧ ws = w :: vs := by
  rw [classify, if_neg hfirst] at h
  obtain ⟨w, hw, h⟩ := bind_eq_ok_iff.mp h
  obtain ⟨vs, hvs, h⟩ := bind_eq_ok_iff.mp h
  exact ⟨w, vs, hw, hvs, (Except.ok.inj h).symm⟩

/-- Classifying loses no word and changes none. -/
theorem map_text_of_classify {words : List String} {ws : List Word}
    (h : c.classify words = .ok ws) :
    ws.map Word.text = words := by
  induction words generalizing ws with
  | nil =>
    cases h
    rfl
  | cons word words ih =>
    by_cases hword : word = "--"
    · rw [classify, if_pos hword] at h
      cases h
      rw [hword, List.map_cons, List.map_map]
      exact congrArg _ (List.map_id words)
    · obtain ⟨w, vs, hw, hvs, rfl⟩ := classify_cons_eq_ok hword h
      rw [List.map_cons, text_of_classifyWord hw, ih hvs]

/-- What stands in front of two dashes does so behind the first word, or is
the first word. -/
theorem mem_takeWhile_cons {word first : String} {words : List String}
    (h : word ∈ (first :: words).takeWhile (· ≠ "--")) :
    first ≠ "--" ∧ (word = first ∨ word ∈ words.takeWhile (· ≠ "--")) := by
  by_cases hfirst : first = "--"
  · rw [hfirst] at h
    exact absurd h List.not_mem_nil
  · rw [List.takeWhile_cons_of_pos (by simpa using hfirst)] at h
    exact ⟨hfirst, List.mem_cons.mp h⟩

/-- A word in front of two dashes leaves the trace that it has on its own. -/
theorem leaves_of_read {words : List String} {g : Given} (h : c.read words = .ok g)
    {word : String} (hword : word ∈ words.takeWhile (· ≠ "--")) {w : Word}
    (hw : c.classifyWord word = .ok w) : w.Leaves g := by
  obtain ⟨ws, hws, htake⟩ := bind_eq_ok_iff.mp h
  refine (leaves_of_take htake).2 w ?_
  clear h htake
  induction words generalizing ws with
  | nil => exact absurd hword List.not_mem_nil
  | cons first words ih =>
    obtain ⟨hfirst, hword⟩ := mem_takeWhile_cons hword
    obtain ⟨v, vs, hv, hvs, rfl⟩ := classify_cons_eq_ok hfirst hws
    rcases hword with rfl | hword
    · rw [hv] at hw
      cases hw
      exact List.mem_cons_self
    · exact List.mem_cons_of_mem v (ih hword vs hvs)

end CommandSpec

/-! ## Dry runs -/

/-- The invocation asks for a build that prints its configuration and nothing else. -/
def Invocation.IsDryRun : Invocation → Prop
  | .build _ _ _ _ dryRun _ => dryRun = true
  | _ => False

/-- A command that was found has its name, and is one of the three. -/
theorem command_cases {name : String} {entry : String × CommandSpec}
    (h : commands.find? (·.1 == name) = some entry) :
    entry = (name, synthesizeSpec) ∨ name = "build" ∧ entry = (name, buildSpec) ∨
      entry = (name, deploySpec) := by
  have hname : entry.1 = name := by simpa using List.find?_some h
  subst hname
  rcases List.mem_cons.mp (List.mem_of_find?_eq_some h) with rfl | hmem
  · exact Or.inl rfl
  rcases List.mem_cons.mp hmem with rfl | hmem
  · exact Or.inr (Or.inl ⟨rfl, rfl⟩)
  · rw [List.mem_singleton.mp hmem]
    exact Or.inr (Or.inr rfl)

/-- A command runs only if no word is left over, and only one of the commands
knows a dry run. -/
theorem readCommand_spec {g : Given} {name : String} {words : List String} {r : Request}
    (h : readCommand g name words = .ok r) :
    g.extras = [] ∧
      ("--dry-run" ∈ words.takeWhile (· ≠ "--") → r.invocation.IsDryRun) := by
  unfold readCommand at h
  split at h
  next => exact nomatch h
  next spec hfind =>
    obtain ⟨own, hown, h⟩ := bind_eq_ok_iff.mp h
    dsimp only at h
    split at h
    next hnone =>
      cases h
      obtain ⟨hg, hextras⟩ := List.append_eq_nil_iff.mp (List.isEmpty_iff.mp hnone)
      refine ⟨hg, fun hword => ?_⟩
      have hunknown : spec.classifyWord "--dry-run" ≠ .ok (.unknown "--dry-run") := by
        intro hclass
        have hleaves : "--dry-run" ∈ own.extras := spec.leaves_of_read hown hword hclass
        rw [hextras] at hleaves
        exact absurd hleaves List.not_mem_nil
      rcases command_cases hfind with hentry | ⟨hname, hentry⟩ | hentry
      · cases hentry
        exact absurd rfl hunknown
      · cases hentry
        subst hname
        have hflag : "--dry-run" ∈ own.flags :=
          buildSpec.leaves_of_read hown hword (w := .option
            ⟨⟨["--dry-run"], .flag⟩, "--dry-run", none⟩ "--dry-run")
            rfl rfl rfl
        exact List.contains_iff_mem.mpr hflag
      · cases hentry
        exact absurd rfl hunknown
    next => exact nomatch h

/-- Without a command there is no request. -/
theorem readProgram_nil_ne (g : Given) (r : Request) : readProgram g [] ≠ .ok r := nofun

theorem readCommand_separator_ne (g : Given) (words : List String) (r : Request) :
    readCommand g "--" words ≠ .ok r := nofun

/-- A word that the program does not know before its command is left over. -/
theorem extras_of_readProgram {g : Given} {ws : List Word} {r : Request}
    (h : readProgram g ws = .ok r) :
    g.extras = [] := by
  induction ws generalizing g with
  | nil => exact absurd h (readProgram_nil_ne g r)
  | cons w ws ih =>
    cases w with
    | argument name => exact (readCommand_spec h).1
    | separator =>
      rw [readProgram] at h
      split at h
      · exact ih h
      · exact absurd h (readCommand_separator_ne g _ r)
    | option m t =>
      obtain ⟨⟨g₁, used⟩, htake, hrest⟩ := bind_eq_ok_iff.mp h
      exact List.subset_nil.mp (ih hrest ▸ (CommandSpec.takeOption_spec htake).1.extras)
    | unknown t => exact (List.append_eq_nil_iff.mp (ih h)).1

/-- The word is found in front of the separator, so it reaches the command as its flag. -/
theorem isDryRun_of_readProgram {words : List String} {ws : List Word}
    (hws : programSpec.classify words = .ok ws) {g : Given} {r : Request}
    (h : readProgram g ws = .ok r) (hword : "--dry-run" ∈ words.takeWhile (· ≠ "--")) :
    r.invocation.IsDryRun := by
  induction words generalizing ws g with
  | nil => exact absurd hword List.not_mem_nil
  | cons first words ih =>
    obtain ⟨hfirst, hword⟩ := CommandSpec.mem_takeWhile_cons hword
    obtain ⟨w, vs, hw, hvs, rfl⟩ := CommandSpec.classify_cons_eq_ok hfirst hws
    -- if this is the word, the program does not know it, and it is left over
    have hother :
        w = .unknown "--dry-run" ∨ "--dry-run" ∈ words.takeWhile (· ≠ "--") := by
      rcases hword with rfl | hrest
      · exact Or.inl (Except.ok.inj hw).symm
      · exact Or.inr hrest
    cases w with
    | argument name =>
      have hrest := hother.resolve_left nofun
      rw [readProgram, CommandSpec.map_text_of_classify hvs] at h
      exact (readCommand_spec h).2 hrest
    | separator =>
      rw [readProgram] at h
      split at h
      next hnone =>
        rw [List.isEmpty_iff.mp hnone] at h
        exact absurd h (readProgram_nil_ne g r)
      next => exact absurd h (readCommand_separator_ne g _ r)
    | option m t =>
      obtain ⟨⟨g₁, used⟩, -, hread⟩ := bind_eq_ok_iff.mp h
      exact ih hvs hread (hother.resolve_left nofun)
    | unknown t =>
      have hextras := extras_of_readProgram (g := { g with extras := g.extras ++ [t] }) h
      exact absurd (List.append_eq_nil_iff.mp hextras).2 (List.cons_ne_nil t [])

/-- If words with `--dry-run` in front of any two dashes can be read, they
ask for a dry run. -/
theorem isDryRun_of_readRequest {words : List String} {r : Request}
    (h : readRequest words = .ok r) (hword : "--dry-run" ∈ words.takeWhile (· ≠ "--")) :
    r.invocation.IsDryRun := by
  obtain ⟨ws, hws, hread⟩ := bind_eq_ok_iff.mp h
  exact isDryRun_of_readProgram hws hread hword

end CodeWeave.CommandLine
