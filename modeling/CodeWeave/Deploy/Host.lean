import CodeWeave.Project.Record
import CodeWeave.Remote.Outside
import CodeWeave.Text.Base64

/-!
# The repository host

A small client for the host's interface: requests with a token, new repositories, and
commits of whole file sets. A commit reads the branch head, stores each file, makes a tree
on the head and a commit with the head as its parent, and moves the branch last, so that
nothing is visible until all of it worked.
-/

namespace CodeWeave

/-- Why something is not deployed. -/
inductive DeploymentFault where
  | noToken
  | nothingToDeploy
  | unreachable (reason : String)
  | refused (reason : String)
  deriving DecidableEq, Repr

namespace DeploymentFault

def message : DeploymentFault → String
  | noToken => "A GitHub token is required"
  | nothingToDeploy => "No project code to deploy"
  | unreachable reason => s!"GitHub request failed: {reason}"
  | refused reason => reason

def failure (f : DeploymentFault) : Failure := ⟨.deployment, f.message, [], 0⟩

end DeploymentFault

/-- A client of the host; its token is not empty. -/
structure HostClient where
  token : String
  deriving DecidableEq, Repr

namespace HostClient

/-- A client with a token. -/
def withToken (token : String) : Except Failure HostClient :=
  if token.isEmpty then .error DeploymentFault.noToken.failure else .ok ⟨token⟩

/-! ## Requests -/

def address : String := "https://api.github.com"

/-- The branch that is committed to. -/
def branch : String := "main"

/-- How long a request may take, in seconds. -/
def requestTimeout : Int := 30

def requestFor (h : HostClient) (endpoint method : String) (body : Json) :
    HttpRequest where
  method := method
  url := address ++ endpoint
  body := body
  headers :=
    [("Authorization", s!"token {h.token}"), ("Accept", "application/vnd.github.v3+json")]
  timeout := requestTimeout

/-- The reason that a refusing response gives. -/
def refusal (body : Except Failure Json) : Except Failure String :=
  let standard := "GitHub API Error"
  match body with
  | .error f => if f.isA .value then .ok standard else .error f
  | .ok v => do
    match ← v.lookup? "message" with
    | some m => .ok (if m.isNothing then standard else m.display)
    | none => .ok standard

/-- Sends a request and decodes the response. -/
def request (h : HostClient) (endpoint method : String) (body : Json) : Run Json := do
  match ← Outside.request (h.requestFor endpoint method body) with
  | .failed f =>
    if f.isA .request then throw (DeploymentFault.unreachable f.message).failure
      else throw f
  | .answered status body =>
    if OkStatus status then ofExcept body
    else
      let reason ← ofExcept (refusal body)
      throw (DeploymentFault.refused reason).failure

def createRepository (h : HostClient) (name : String) : Run Json :=
  h.request "/user/repos" "POST"
    (.obj [("name", .str name), ("auto_init", .bool true),
      ("description", .str "Built with Hybrid Architect")])

/-! ## Commits -/

/-- Where the objects of a repository are. -/
def gitStem (owner repository : String) : String := s!"/repos/{owner}/{repository}/git"

/-- The branch head. -/
def headEndpoint (owner repository : String) : String :=
  s!"{gitStem owner repository}/refs/heads/{branch}"

/-- The stored form of a file. -/
def blobBody (file : ProjectFile) : Json :=
  .obj [("content", .ofText (Text.encode64 (Text.utf8 file.content))),
    ("encoding", .str "base64")]

/-- The entry of a stored file in a tree. -/
def treeEntry (file : ProjectFile) (sha : Json) : Json :=
  .obj [("path", .str file.path), ("mode", .str "100644"),
    ("type", .str "blob"), ("sha", sha)]

/-- Stores files, and gives their entries. -/
def storeFiles (h : HostClient) (owner repository : String) :
    List ProjectFile → Run (List Json)
  | [] => pure []
  | file :: files => do
    let blob ← h.request s!"{gitStem owner repository}/blobs" "POST" (blobBody file)
    let sha ← ofExcept (blob.lookup "sha")
    let entries ← storeFiles h owner repository files
    pure (treeEntry file sha :: entries)

/-- Commits files on top of the branch head and moves the branch. -/
def commitFiles (h : HostClient) (owner repository : String) (files : List ProjectFile)
    (message : String) : Run Json := do
  let ref ← h.request (headEndpoint owner repository) "GET" .null
  let head ← ofExcept (ref.lookup "object" >>= Json.lookup "sha")
  let entries ← h.storeFiles owner repository files
  let tree ← h.request s!"{gitStem owner repository}/trees" "POST"
    (.obj [("base_tree", head), ("tree", .arr entries)])
  let treeSha ← ofExcept (tree.lookup "sha")
  let commit ← h.request s!"{gitStem owner repository}/commits" "POST"
    (.obj [("message", .str message), ("tree", treeSha), ("parents", .arr [head])])
  let commitSha ← ofExcept (commit.lookup "sha")
  h.request (headEndpoint owner repository) "PATCH" (.obj [("sha", commitSha)])

/-- The message of a commit without one of its own. -/
def standardMessage : String := "Agentic Architecture Sync"

/-! ## The workflow -/

/-- The workflow that builds a deployed project. -/
def workflowText : String :=
  "name: Agent Architect CI/CD\n" ++
  "on:\n" ++
  "  push:\n" ++
  "    branches: [ main ]\n" ++
  "jobs:\n" ++
  "  build:\n" ++
  "    runs-on: ubuntu-latest\n" ++
  "    steps:\n" ++
  "      - uses: actions/checkout@v4\n" ++
  "      - name: Install dependencies\n" ++
  "        run: npm install\n" ++
  "      - name: Run build\n" ++
  "        run: npm run build\n"

def workflowFile : ProjectFile where
  name := "main.yml"
  path := ".github/workflows/main.yml"
  content := workflowText.toList
  language := "yaml"

def addWorkflow (h : HostClient) (owner repository : String) : Run Json :=
  h.commitFiles owner repository [workflowFile] "Setup CI/CD Pipeline"

end HostClient

end CodeWeave
