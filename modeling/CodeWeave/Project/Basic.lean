import CodeWeave.Diff.Block
import CodeWeave.Json.Value

/-!
# Projects

What a build produces and a deployment publishes: generated files with their diffs, the
plan they follow, and the repository they went to.
-/

namespace CodeWeave

/-- A generated file. -/
structure ProjectFile where
  name : String
  path : String
  content : Text
  language : String := "typescript"
  diff : Option (List DiffBlock) := none
  deriving DecidableEq, Repr

/-- The repository that a project was deployed to. The sha of the last commit is kept as
the host gave it. -/
structure Repository where
  repoName : String
  owner : String
  url : String
  lastCommit : Json := .null
  workflowActive : Bool := false

/-- A generated project and its repository. -/
structure Project where
  name : String := "Project Alpha"
  files : List ProjectFile := []
  plan : List String := []
  github : Option Repository := none

end CodeWeave
