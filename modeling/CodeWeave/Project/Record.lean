import CodeWeave.Project.Basic
import CodeWeave.Synthesis.Record

/-!
# Records of a project

Each type has the shape of its record; `ofRecord` reads a checked record and `toRecord`
writes one, with the fields in the order of the shape.
-/

namespace CodeWeave

/-! ## Shapes -/

namespace Shape

/-- The shape of a generated file. -/
def projectFile : Shape :=
  plain "FileNode"
    [required "name" text, required "path" text, required "content" text,
     defaulted "language" text (.str "typescript"),
     defaulted "diff" (optional (list diffBlock)) .null]

def repository : Shape :=
  plain "GitHubState"
    [required "repo_name" text, required "owner" text, required "url" text,
     defaulted "last_commit_sha" (optional text) .null,
     defaulted "workflow_active" flag (.bool false)]

def project : Shape :=
  plain "ProjectState"
    [defaulted "name" text (.str "Project Alpha"),
     defaulted "files" (list projectFile) (.arr []),
     defaulted "plan" (list text) (.arr []),
     defaulted "github" (optional repository) .null]

end Shape

/-! ## Records -/

namespace ProjectFile

def toRecord (f : ProjectFile) : Json :=
  .obj [("name", .str f.name), ("path", .str f.path), ("content", .ofText f.content),
    ("language", .str f.language),
    ("diff", match f.diff with
      | some diff => .arr (diff.map DiffBlock.toRecord)
      | none => .null)]

/-- The file of a checked record. -/
def ofRecord (v : Json) : ProjectFile where
  name := v.textAt "name"
  path := v.textAt "path"
  content := (v.textAt "content").toList
  language := v.textAt "language"
  diff := match v.get? "diff" with
    | some (.arr items) => some (items.map DiffBlock.ofRecord)
    | _ => none

end ProjectFile

namespace Repository

def toRecord (g : Repository) : Json :=
  .obj [("repo_name", .str g.repoName), ("owner", .str g.owner), ("url", .str g.url),
    ("last_commit_sha", g.lastCommit), ("workflow_active", .bool g.workflowActive)]

/-- The repository of a checked record. -/
def ofRecord (v : Json) : Repository where
  repoName := v.textAt "repo_name"
  owner := v.textAt "owner"
  url := v.textAt "url"
  lastCommit := (v.get? "last_commit_sha").getD .null
  workflowActive := v.flagAt "workflow_active"

/-- A new repository, from values that must be texts. -/
def ofHost (repoName owner url : Json) : Except Failure Repository :=
  match Shape.repository.check []
    (.obj [("repo_name", repoName), ("owner", owner), ("url", url),
      ("workflow_active", .bool true)]) with
  | .ok v => .ok (ofRecord v)
  | .error issues => .error (Shape.failure issues)

end Repository

namespace Project

def toRecord (p : Project) : Json :=
  .obj [("name", .str p.name), ("files", .arr (p.files.map ProjectFile.toRecord)),
    ("plan", .ofStrings p.plan),
    ("github", match p.github with
      | some g => g.toRecord
      | none => .null)]

/-- The project of a checked record. -/
def ofRecord (v : Json) : Project where
  name := v.textAt "name"
  files := (v.itemsAt "files").map ProjectFile.ofRecord
  plan := (v.itemsAt "plan").filterMap Json.str?
  github := match v.get? "github" with
    | some (.obj fields) => some (Repository.ofRecord (.obj fields))
    | _ => none

end Project

end CodeWeave
