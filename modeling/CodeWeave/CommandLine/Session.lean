import CodeWeave.Build.Pipeline
import CodeWeave.CommandLine.Invocation
import CodeWeave.CommandLine.Report
import CodeWeave.Deploy.Deployment
import CodeWeave.Disk.Project
import CodeWeave.Settings.Environment

/-!
# Running the program

A session holds everything that a run can change: the parties outside, the disk, and what
has been printed. A command ends with an exit code or with a failure, and every failure
has a code and a line on the error output of its own.
-/

namespace CodeWeave.CommandLine

/-! ## Sessions -/

/-- What a run can change. -/
structure Session where
  outside : Outside
  disk : Disk
  stdout : String := ""
  stderr : String := ""
  /-- The levels that the log was set to. -/
  levels : List String := []

/-- What a run is given and does not change. -/
structure Surroundings where
  environment : Environment
  standing : Disk.Standing
  clock : Binary64 := .finite false 0 0
  /-- Why the build pipeline cannot be put together, if it cannot. -/
  refusal : Option String := none

abbrev Command := ExceptT Failure (StateM Session)

namespace Command

def print (line : String) : Command Unit :=
  modify fun s => { s with stdout := s.stdout ++ line ++ "\n" }

/-- Prints a line on the error output. -/
def warn (line : String) : Command Unit :=
  modify fun s => { s with stderr := s.stderr ++ line ++ "\n" }

/-- An action on the parties outside. -/
def ofRun {α : Type} (action : Run α) : Command α := fun s =>
  let (r, outside) := action s.outside
  (r, { s with outside := outside })

def onDisk {α : Type} (action : Disk → Disk × Except DiskFault α) : Command α := fun s =>
  let (disk, r) := action s.disk
  (match r with
    | .ok a => .ok a
    | .error f => .error f.failure, { s with disk := disk })

end Command

open Command

/-! ## Exit codes -/

/-- The code of input that cannot be used. -/
def invalidInputCode : Int := 1

/-- The code of a failed agent. -/
def agentErrorCode : Int := 2

/-- The code of a pipeline that cannot run. -/
def orchestratorErrorCode : Int := 3

/-- The code of any other failure. -/
def unexpectedCode : Int := 5

def interruptedCode : Int := 130

/-! ## Synthesizing -/

def candidateText (around : Surroundings) (path : String) : Command Text := do
  match ← onDisk fun d => (d, d.fileAtPath? around.standing.current path.toList) with
  | some bytes =>
    match Disk.readText bytes with
    | .ok t => pure t
    | .error f => throw f.failure
  | none =>
    warn s!"Error: '{path}' is not a file."
    throw (.ofExit invalidInputCode)

/-- Whole numbers in ascending order, each once. -/
def sortedPins (pins : List Int) : List Int :=
  (distinct pins).mergeSort fun a b => decide (a ≤ b)

def synthesisRecord (code : Text) (r : Synthesis) (pins : List Int) : Json :=
  .obj [("code", .ofText code), ("diff", .arr (r.diff.map DiffBlock.toRecord)),
    ("pinned", .arr ((sortedPins pins).map .int))]

def printSynthesis (code : Text) (r : Synthesis) (asJson showDiff : Bool)
    (pins : List Int) :
    Command Int := do
  if asJson then
    print (String.ofList (synthesisRecord code r pins).writeIndented)
  else
    print (String.ofList code)
    if showDiff then
      print s!"\n{Report.rule 60}"
      print (String.ofList (Diff.print r.diff))
  pure successCode

def performSynthesis (around : Surroundings) (cloudFile localFile : String)
    (asJson showDiff : Bool) (pins : List Int) : Command Int := do
  let cloud ← candidateText around cloudFile
  let loc ← candidateText around localFile
  let r := synthesize (some cloud) (some loc)
  if pins.isEmpty then printSynthesis r.code r asJson showDiff pins
  else match Diff.applyPins r.diff pins with
    | .ok code => printSynthesis code r asJson showDiff pins
    | .error e =>
      warn s!"Error: {e.message}"
      pure invalidInputCode

/-! ## Building -/

/-- The configuration of a build, without any token. -/
def configuration (settings : Settings) (prompt outputDir : String) (deploys : Bool) :
    List (String × Json) :=
  [("prompt", .str prompt), ("output_dir", .str outputDir), ("deploy", .bool deploys)] ++
    Settings.publicView settings

/-- Prints the configuration of a build. -/
def printConfiguration (config : List (String × Json)) (asJson : Bool) :
    Command Unit := do
  if asJson then print (String.ofList (Json.obj config).writeIndented)
  else
    print "\nConfiguration:"
    print (Report.rule 40)
    config.forM fun (name, value) => print s!"  {name}: {value.display}"
    print (Report.rule 40)

/-- Deploys a project with the token of the settings. -/
def deployWith (around : Surroundings) (settings : Settings) (project : Project) :
    Command Repository := do
  match settings.githubToken with
  | none =>
    throw ⟨.agent,
      "No GitHub token found. Set GITHUB_TOKEN or HYBRID_ARCHITECT_GITHUB_TOKEN.", [], 0⟩
  | some token =>
    let host ← ofExcept (HostClient.withToken token)
    let project ← ofRun (Deploy.deploy host around.clock project)
    pure (project.github.getD ⟨"", "", "", .null, false⟩)

/-- The most steps of a build. -/
def stepLimit : Nat := Plan.maxFiles + 10

/-- Runs the pipeline for a prompt. -/
def runPipeline (around : Surroundings) (settings : Settings) (prompt context : String) :
    Command BuildState := do
  let chain ←
    if settings.useCloud then
      ofRun (CompletionChain.connect? around.environment { model := settings.cloudModel })
    else pure none
  let client := chain.map CompletionChain.client
  let parts : BuildParts := ⟨client, ⟨⟨client, settings.useCloud⟩, settings⟩⟩
  let walk ← ofRun (Build.runPipeline around.refusal parts stepLimit
      (.initial prompt context))
  ofExcept walk.result

def performBuild (around : Surroundings) (verbose : Bool)
    (prompt context outputDir : String) (deploys dryRun asJson : Bool) : Command Int := do
  let settings ← ofExcept ((Settings.load around.environment).mapError
      Settings.Fault.failure)
  if dryRun then
    printConfiguration (configuration settings prompt outputDir deploys) asJson
    pure successCode
  else
    let state ← runPipeline around settings prompt context
    let written ← onDisk fun d => d.saveFiles around.standing state.files outputDir
    if verbose then warn s!"Wrote {written.length} file(s) to {outputDir}"
    let github ←
      if deploys then some <$> deployWith around settings (state.project none)
        else pure none
    if asJson then print (String.ofList (resultRecord state github).writeIndented)
    else modify fun s => { s with stdout := s.stdout ++
      (Report.ofState state github).inWords }
    pure (exitCode state.errors)

/-! ## Deploying -/

def performDeployment (around : Surroundings) (projectDir : String) : Command Int := do
  let settings ← ofExcept ((Settings.load around.environment).mapError
      Settings.Fault.failure)
  match ← onDisk fun d => (d, d.readProject around.standing projectDir) with
  | none =>
    warn s!"Error: '{projectDir}' is not a valid directory."
    throw (.ofExit invalidInputCode)
  | some project =>
    let github ← deployWith around settings project
    print s!"Deployed {project.files.length} file(s) to {github.url}"
    pure successCode

/-! ## The program -/

def runInvocation (around : Surroundings) (verbose : Bool) : Invocation → Command Int
  | .synthesize cloudFile localFile asJson showDiff pins =>
    performSynthesis around cloudFile localFile asJson showDiff pins
  | .build prompt context outputDir deploys dryRun asJson =>
    performBuild around verbose prompt context outputDir deploys dryRun asJson
  | .deploy projectDir => performDeployment around projectDir

/-- How a failure is announced, and the code it ends with. The most
special kind counts. -/
def announcement (f : Failure) : String × Int :=
  if f.isA .configuration then ("Configuration error", invalidInputCode)
  else if f.isA .agent then ("Agent error", agentErrorCode)
  else if f.isA .orchestration then ("Orchestrator error", orchestratorErrorCode)
  else ("Unexpected error", unexpectedCode)

/-- Stands for the trace of a failure. -/
def traceLine : String := "Traceback"

def finish (verbose : Bool) (f : Failure) (s : Session) : Int × Session :=
  if f.kind = .exit then (f.code, s)
  else if f.kind = .interruption then
    (interruptedCode, { s with stderr := s.stderr ++ "\nInterrupted.\n" })
  else
    let (label, code) := announcement f
    let trace := if verbose then traceLine ++ "\n" else ""
    (code, { s with stderr := s!"{s.stderr}{label}: {f.message}\n{trace}" })

def runRequest (around : Surroundings) (r : Request) (s : Session) : Int × Session :=
  let s := { s with levels := s.levels ++ [if r.verbose then "DEBUG" else "INFO"] }
  match runInvocation around r.verbose r.invocation s with
  | (.ok code, s) => (code, s)
  | (.error f, s) => finish r.verbose f s

/-- Runs the program on the words of its command line. -/
def run (around : Surroundings) (words : List String) (s : Session) : Int × Session :=
  match readRequest words with
  | .ok r => runRequest around r s
  | .error stop =>
    (stop.code, { s with stdout := s.stdout ++ stop.stdout, stderr := s.stderr ++
      stop.stderr })

end CodeWeave.CommandLine
