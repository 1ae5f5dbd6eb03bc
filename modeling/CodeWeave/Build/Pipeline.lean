import CodeWeave.Build.State
import CodeWeave.Generation.Candidate
import CodeWeave.Path
import CodeWeave.Plan

/-!
# The build pipeline

A build plans, then synthesizes one file after another, then verifies. Planning without a
result ends it. A failure of the planner or of a generator becomes an error of the build
and is not passed on; only an interruption is.

`walk` runs the pipeline with a limit on the number of steps, and keeps the
updates of all steps.
-/

namespace CodeWeave

/-- What a build works with. -/
structure BuildParts where
  client : Option Client
  generator : CandidateSources

/-- The steps of a build. -/
inductive BuildStep where
  | plan
  | synthesize
  | verify
  deriving DecidableEq, Repr

namespace BuildStep

def name : BuildStep → String
  | plan => "plan_node"
  | synthesize => "synthesize_node"
  | verify => "verify_node"

/-! ## The steps -/

/-- Plans the files of the project. -/
def makePlan (client : Option Client) (s : BuildState) : Run BuildUpdate := do
  Outside.log .info "Deep Thinking Planner engaged..."
  match ← Run.outcome (Plan.generate client s.prompt) with
  | .ok paths => pure { plan := some paths, index := some 0, step := some .execute }
  | .error f =>
    if f.isA .ordinary then
      pure
        { errors := some [s!"plan_node error: {f.message}"]
          plan := some []
          step := some .idle }
    else throw f

/-- The planned file that the state is at. -/
def currentPath? (s : BuildState) : Option String :=
  if s.index < 0 then none else s.plan[s.index.toNat]?

def fileOf (path : String) (r : Synthesis) : ProjectFile where
  name :=
    let name := Path.fileName path.toList
    if name.isEmpty then path else String.ofList name
  path := path
  content := r.code
  language := Path.language path
  diff := some r.diff

/-- Synthesizes the file that the state is at. The state moves on whether
that works or not. -/
def synthesizeNext (generator : CandidateSources) (s : BuildState) : Run BuildUpdate := do
  match currentPath? s with
  | none =>
    pure
      { errors := some [s!"synthesize_node: no planned file at index {s.index}"]
        files := some []
        index := some s.plan.length }
  | some path =>
    Outside.log .info s!"Synthesizing {path}..."
    match ← Run.outcome (generator.generate path s.prompt s.context) with
    | .ok r => pure { files := some [fileOf path r], index := some (s.index + 1) }
    | .error f =>
      if f.isA .ordinary then
        pure
          { errors := some [s!"synthesize_node error ({path}): {f.message}"]
            files := some []
            index := some (s.index + 1) }
      else throw f

/-- What is wrong with the produced files: planned ones that are missing, and then those
that still hold sensitive strings. -/
def problems (s : BuildState) : List String :=
  (s.plan.filter fun path => !(s.files.any (·.path == path))).map
    (fun path => s!"verify_node: {path} was not generated") ++
  s.files.filterMap fun file =>
    match Sensitive.find file.content with
    | [] => none
    | leaks => some (s!"verify_node: {file.path} still matches " ++
        String.intercalate ", " (leaks.map Sensitive.name))

/-- Checks that every planned file was produced and that no sensitive string survived. -/
def verifyFiles (s : BuildState) : Run BuildUpdate := do
  let problems := problems s
  if problems.isEmpty then Outside.log .info "System stable. Virtual runtime active."
  pure { step := some .idle, verified := some problems.isEmpty, errors := some problems }

def run (parts : BuildParts) : BuildStep → BuildState → Run BuildUpdate
  | plan, s => makePlan parts.client s
  | synthesize, s => synthesizeNext parts.generator s
  | verify, s => verifyFiles s

/-! ## The order of the steps -/

/-- The state has something to synthesize. -/
def hasPlan (s : BuildState) : Bool := !s.plan.isEmpty

/-- The state is not through with its plan. -/
def hasNext (s : BuildState) : Bool := s.index < s.plan.length

/-- The step after a step. -/
def next : BuildStep → BuildState → Option BuildStep
  | plan, s => if hasPlan s then some synthesize else none
  | synthesize, s => if hasNext s then some synthesize else some verify
  | verify, _ => none

end BuildStep

/-- What a run of the pipeline did: the steps with their updates, and the last state or
the failure that ended it. -/
structure BuildWalk where
  steps : List (BuildStep × BuildUpdate)
  result : Except Failure BuildState

namespace Build

/-- The failure of a run that uses up its steps. -/
def stepLimitFailure : Failure := ⟨.stepLimit, "", [], 0⟩

/-- Runs the pipeline from a step on. A run that uses up all of its `limit` steps fails,
also if the last of them was the end: that is only noticed with a step left. -/
def walk (parts : BuildParts) : Nat → BuildStep → BuildState → Run BuildWalk
  | 0, _, _ => pure ⟨[], .error stepLimitFailure⟩
  | limit + 1, current, s => do
    match ← Run.outcome (current.run parts s) with
    | .error f => pure ⟨[], .error f⟩
    | .ok u =>
      let s := s.apply u
      match current.next s with
      | none =>
        pure ⟨[(current, u)], if limit = 0 then .error stepLimitFailure else .ok s⟩
      | some following => do
        let w ← walk parts limit following s
        pure { w with steps := (current, u) :: w.steps }

/-- The failure of a pipeline that cannot be put together. -/
def assemblyFailure (reason : String) : Failure :=
  ⟨.assembly, s!"Failed to build build-pipeline graph: {reason}", [], 0⟩

/-- Runs the pipeline on a state. `refusal` is why it cannot be put
together, if it cannot. -/
def runPipeline (refusal : Option String) (parts : BuildParts) (limit : Nat)
    (s : BuildState) :
    Run BuildWalk :=
  match refusal with
  | some reason => pure ⟨[], .error (assemblyFailure reason)⟩
  | none => walk parts limit .plan s

end Build

end CodeWeave
