import CodeWeave.Build.State
import CodeWeave.Json.Write

/-!
# Reports

What the program prints about a build: in words, or as JSON. A build succeeds for the
shell if it has no errors.
-/

namespace CodeWeave.CommandLine

/-- What is reported of a build. -/
structure Report where
  prompt : String := ""
  plan : List String := []
  files : List ProjectFile := []
  errors : List String := []
  github : Option Repository := none

namespace Report

/-- The report of a finished build. -/
def ofState (s : BuildState) (github : Option Repository) : Report :=
  ⟨s.prompt, s.plan, s.files, s.errors, github⟩

def rule (width : Nat) : String := String.ofList (List.replicate width '=')

/-- The blocks of a file that come from the local side. -/
def localBlocks (file : ProjectFile) : Nat :=
  ((file.diff.getD []).filter fun b => b.origin == .local).length

def lines (r : Report) : List String :=
  [s!"\n{rule 60}", "Hybrid Architect Results", rule 60, s!"\nPrompt: {r.prompt}",
   s!"\nPlanned files ({r.plan.length}):"] ++
  r.plan.map (fun path => s!"  - {path}") ++
  [s!"\nFiles synthesized: {r.files.length}"] ++
  r.files.map (fun file =>
    s!"  {file.path}: {file.content.length} chars, {localBlocks file} local block(s)") ++
  (match r.github with
    | some g => [s!"\nRepository: {g.url}"]
    | none => []) ++
  (if r.errors.isEmpty then []
    else s!"\nErrors ({r.errors.length}):" :: r.errors.map (fun e => s!"  - {e}")) ++
  [s!"\n{rule 60}"]

def inWords (r : Report) : String := String.join (r.lines.map (· ++ "\n"))

end Report

/-- The code of a build without errors. -/
def successCode : Int := 0

/-- The code of a build with errors. -/
def pipelineErrorsCode : Int := 4

/-- The exit code of a build with the given errors. -/
def exitCode (errors : List String) : Int :=
  if errors.isEmpty then successCode else pipelineErrorsCode

/-- A result as JSON: the state of the build, and its repository if it
has been deployed. -/
def resultRecord (s : BuildState) (github : Option Repository) : Json :=
  .obj (s.toRecord ++ match github with
    | some g => [("github", g.toRecord)]
    | none => [])

end CodeWeave.CommandLine
