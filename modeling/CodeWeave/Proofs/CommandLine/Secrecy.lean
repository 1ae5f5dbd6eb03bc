import CodeWeave.Proofs.CommandLine.DryRun

/-!
# What tokens do to the output

The settings hold tokens, and what is printed of them does not. Two environments that
differ in their tokens only are compared:

> `load_cases`: the settings of both cannot be used, for the same reason, or those of both
> can be printed, and look the same.

> `performBuild_dryRun`: of the settings a dry run uses what can be printed.

> `tokens_unseen`: so a dry run does the same in both.
-/

namespace CodeWeave

/-! ## Environments -/

/-- The environments differ in variables with these names only. -/
def AgreeApart (names : List String) (e e' : Environment) : Prop :=
  ∀ name, name ∉ names → e name = e' name

/-- The variables that hold a token. -/
def tokenVariables : List String :=
  ["HF_TOKEN", "GITHUB_TOKEN", "HYBRID_ARCHITECT_HF_TOKEN",
    "HYBRID_ARCHITECT_GITHUB_TOKEN", "ANTHROPIC_API_KEY",
   "OPENAI_API_KEY"]

namespace Settings

variable {e e' : Environment}

/-- A variable that is not a token is read alike in both environments. -/
theorem own?_congr (h : AgreeApart tokenVariables e e') (name : String)
    (hname : variableStem ++ name ∉ tokenVariables) : own? e name = own? e' name := by
  unfold own?
  rw [h _ hname]

theorem timeout_congr (h : AgreeApart tokenVariables e e') : timeout e = timeout e' := by
  unfold timeout
  rw [own?_congr h "REQUEST_TIMEOUT" (by decide)]

/-- The settings of both environments cannot be used, for the same reason,
or look the same. -/
theorem load_cases (h : AgreeApart tokenVariables e e') :
    (∃ f, load e = .error f ∧ load e' = .error f) ∨
      ∃ s s', load e = .ok s ∧ load e' = .ok s' ∧ s.publicView = s'.publicView := by
  have htimeout := timeout_congr h
  have hollamaUrl := own?_congr h "OLLAMA_URL" (by decide)
  have hollamaModel := own?_congr h "OLLAMA_MODEL" (by decide)
  have hhfUrl := own?_congr h "HF_URL" (by decide)
  have hhfModel := own?_congr h "HF_MODEL" (by decide)
  have huseCloud := own?_congr h "USE_CLOUD" (by decide)
  have hcloudModel := own?_congr h "CLOUD_MODEL" (by decide)
  unfold load
  cases hseconds : timeout e with
  | error f =>
    rw [hseconds] at htimeout
    rw [← htimeout]
    exact Or.inl ⟨f, rfl, rfl⟩
  | ok seconds =>
    rw [hseconds] at htimeout
    rw [← htimeout]
    refine Or.inr ⟨_, _, rfl, rfl, ?_⟩
    simp only [publicView, hollamaUrl, hollamaModel, hhfUrl, hhfModel,
      huseCloud, hcloudModel]

end Settings

namespace CommandLine

/-! ## Dry runs -/

/-- What the words ask for, if they can be read, is a dry run. -/
def AsksForDryRun (words : List String) : Prop :=
  ∀ r, readRequest words = .ok r → r.invocation.IsDryRun

/-- A dry run prints what may be printed of the settings, or ends with their fault. -/
theorem performBuild_dryRun (around : Surroundings) (verbose : Bool)
    (prompt context outputDir : String) (deploys asJson : Bool) :
    performBuild around verbose prompt context outputDir deploys true asJson = (do
      let view ← ofExcept
          (((Settings.load around.environment).map Settings.publicView).mapError
        Settings.Fault.failure)
      printConfiguration ([("prompt", .str prompt), ("output_dir", .str outputDir),
        ("deploy", .bool deploys)] ++ view)
        asJson
      pure successCode) := by
  unfold performBuild
  cases Settings.load around.environment <;> rfl

section Congruence

variable {around around' : Surroundings}
  (h : (Settings.load around.environment).map Settings.publicView =
    (Settings.load around'.environment).map Settings.publicView)

include h

/-- A dry run of a command is the same in both surroundings. -/
theorem runInvocation_congr {i : Invocation} (hdry : i.IsDryRun) (verbose : Bool) :
    runInvocation around verbose i = runInvocation around' verbose i := by
  cases i with
  | build prompt context outputDir deploys dryRun asJson =>
    obtain rfl : dryRun = true := hdry
    rw [runInvocation, runInvocation, performBuild_dryRun, performBuild_dryRun, h]
  | synthesize | deploy => exact hdry.elim

theorem run_congr {words : List String} (hwords : AsksForDryRun words) (s : Session) :
    run around words s = run around' words s := by
  unfold run
  cases hread : readRequest words with
  | error stop => rfl
  | ok r =>
    dsimp only
    unfold runRequest
    rw [runInvocation_congr h (hwords r hread)]

end Congruence

/-- No token can be seen. In two environments that differ in tokens only, the settings
cannot be used for the same reason, or look the same. Every command line with `--dry-run`
in front of any two dashes that can be read asks for a dry run of a build. And a command
line that asks for nothing but a dry run has the same exit code, prints the same, and
leaves the same behind in both. -/
theorem tokens_unseen {e e' : Environment} (h : AgreeApart tokenVariables e e') :
    ((∃ f, Settings.load e = .error f ∧ Settings.load e' = .error f) ∨
      ∃ s s', Settings.load e = .ok s ∧ Settings.load e' = .ok s' ∧ s.publicView =
        s'.publicView) ∧
    (∀ words, "--dry-run" ∈ words.takeWhile (· ≠ "--") → AsksForDryRun words) ∧
    ∀ words, AsksForDryRun words → ∀ (around : Surroundings) (s : Session),
      run { around with environment := e } words s =
        run { around with environment := e' } words s := by
  have hload := Settings.load_cases h
  refine ⟨hload, fun words hword r hread => isDryRun_of_readRequest hread hword,
    fun words hwords around s => ?_⟩
  refine run_congr ?_ hwords s
  rcases hload with ⟨f, hf, hf'⟩ | ⟨t, t', ht, ht', hview⟩
  · rw [hf, hf']
  · rw [ht, ht']
    exact congrArg Except.ok hview

/-- One environment with a token for the repository host, one without: the configuration
is printed alike. -/
theorem tokens_unseen_repository_host :
    let e : Environment :=
      fun name => if name = "GITHUB_TOKEN" then some "ghp_secret" else none
    let e' : Environment := fun _ => none
    let words := ["build", "todo app", "--dry-run", "--output-json"]
    let around : Surroundings := { environment := e, standing := ⟨⟨[], []⟩, []⟩ }
    AgreeApart tokenVariables e e' ∧ (Settings.load e).map (·.githubToken) ≠
      (Settings.load e').map (·.githubToken) ∧
      readRequest words = .ok ⟨false, .build "todo app" "" standardOutputDir
        false true true⟩ ∧
      ∀ s, run around words s = run { around with environment := e' } words s := by
  intro e e' words around
  have hagree : AgreeApart tokenVariables e e' := by
    intro name hname
    refine if_neg fun heq => hname ?_
    rw [heq]
    decide
  obtain ⟨-, hasks, hrun⟩ := tokens_unseen hagree
  exact ⟨hagree, by decide, by decide +kernel,
    hrun words (hasks words (by decide)) around⟩

end CommandLine

end CodeWeave
