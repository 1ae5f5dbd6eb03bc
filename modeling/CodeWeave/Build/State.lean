import CodeWeave.Project.Record

/-!
# The state of a build

A build carries its prompt, its plan, the file it is at, and what it has produced. A step
answers with an update: files and errors are added to those of the state, anything else
takes the place of what was there.
-/

namespace CodeWeave

/-! ## Phases -/

/-- The phase of a build. -/
inductive Phase where
  | idle
  | plan
  | execute
  | verify
  | iterate
  | deploy
  deriving DecidableEq, Repr

namespace Phase

def name : Phase → String
  | idle => "IDLE"
  | plan => "PLAN"
  | execute => "EXECUTE"
  | verify => "VERIFY"
  | iterate => "ITERATE"
  | deploy => "DEPLOY"

def all : List Phase := [idle, plan, execute, verify, iterate, deploy]

def ofName? (name : String) : Option Phase := all.find? (·.name == name)

end Phase

/-! ## States and updates -/

/-- The state of a build. -/
structure BuildState where
  prompt : String
  context : String := ""
  step : Phase := .idle
  plan : List String := []
  index : Int := 0
  files : List ProjectFile := []
  verified : Bool := false
  errors : List String := []

/-- What a step changes. -/
structure BuildUpdate where
  step : Option Phase := none
  plan : Option (List String) := none
  index : Option Int := none
  files : Option (List ProjectFile) := none
  verified : Option Bool := none
  errors : Option (List String) := none

namespace BuildState

/-- The state before the first step. -/
def initial (prompt context : String) : BuildState := { prompt, context }

/-- The state after an update. -/
def apply (s : BuildState) (u : BuildUpdate) : BuildState where
  prompt := s.prompt
  context := s.context
  step := u.step.getD s.step
  plan := u.plan.getD s.plan
  index := u.index.getD s.index
  files := s.files ++ u.files.getD []
  verified := u.verified.getD s.verified
  errors := s.errors ++ u.errors.getD []

/-- The project that a build has produced. -/
def project (s : BuildState) (name : Option String) : Project where
  name := name.getD "Project Alpha"
  files := s.files
  plan := s.plan

def toRecord (s : BuildState) : List (String × Json) :=
  [("prompt", .str s.prompt), ("context", .str s.context), ("step", .str s.step.name),
   ("plan", .ofStrings s.plan), ("current_file_index", .int s.index),
   ("files", .arr (s.files.map ProjectFile.toRecord)), ("verified", .bool s.verified),
   ("errors", .ofStrings s.errors)]

end BuildState

namespace BuildUpdate

/-- The update as a record of what it changes. -/
def toRecord (u : BuildUpdate) : List (String × Json) :=
  [("step", u.step.map fun s => .str s.name), ("plan", u.plan.map .ofStrings),
   ("current_file_index", u.index.map .int),
   ("files", u.files.map fun fs => .arr (fs.map ProjectFile.toRecord)),
   ("verified", u.verified.map .bool), ("errors", u.errors.map .ofStrings)].filterMap
    fun (name, value) => value.map (name, ·)

end BuildUpdate

end CodeWeave
