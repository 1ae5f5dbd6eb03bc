import CodeWeave.Deploy.Host

/-!
# Deployment

A project is committed to its repository and gets a workflow. A project without a
repository gets a new one, named by the clock. The project remembers its repository only
after everything has worked.
-/

namespace CodeWeave.Deploy

/-- The name of a new repository: the milliseconds of the clock, whose product with a
thousand is rounded as a binary number before its fraction is dropped. -/
def repositoryName (seconds : Binary64) : String :=
  s!"architect-{(seconds.mulNat 1000).truncate?.getD 0}"

/-- The repository of a project: its own, or a new one. -/
def provision (h : HostClient) (clock : Binary64) (project : Project) :
    Run Repository := do
  match project.github with
  | some g => pure g
  | none =>
    Outside.log .info "[GITHUB] Provisioning new repository..."
    let repository ← h.createRepository (repositoryName clock)
    let name ← ofExcept (repository.lookup "name")
    let owner ← ofExcept (repository.lookup "owner" >>= Json.lookup "login")
    let url ← ofExcept (repository.lookup "html_url")
    let g ← ofExcept (Repository.ofHost name owner url)
    Outside.log .info s!"[GITHUB] Repository created: {g.url}"
    pure g

/-- The sha that the response to a moved branch names, if it names one. -/
def movedSha (ref : Json) : Except Failure Json := do
  let target ← ref.lookup? "object"
  let sha ← (target.getD (.obj [])).lookup? "sha"
  pure (sha.getD .null)

/-! ## Deploying in place -/

/-- An action on a project and the outside. A failure undoes nothing, neither what went
out nor what was changed in the project. -/
abbrev Attempt := ExceptT Failure (StateT Project (StateM Outside))

/-- An action on the outside alone. -/
def Attempt.ofRun {α : Type} (action : Run α) : Attempt α := fun p o =>
  let (r, o) := action o
  ((r, p), o)

/-- Deploys the project that is at hand, and gives its repository. -/
def attempt (h : HostClient) (clock : Binary64) : Attempt Repository := do
  let project ← get
  if project.files.isEmpty then throw DeploymentFault.nothingToDeploy.failure
  let g ← .ofRun (provision h clock project)
  .ofRun (Outside.log .info "[GITHUB] Committing file set to main branch...")
  let _ ← .ofRun (h.commitFiles g.owner g.repoName project.files
      HostClient.standardMessage)
  .ofRun (Outside.log .info "[CI/CD] Injecting GitHub Actions workflow...")
  let ref ← .ofRun (h.addWorkflow g.owner g.repoName)
  let sha ← ofExcept (movedSha ref)
  let g := { g with lastCommit := sha, workflowActive := true }
  set { project with github := some g }
  .ofRun (Outside.log .info "[CI/CD] Deployment complete. Pipeline is now RUNNING.")
  pure g

/-- Deploys a project, and gives it with its repository. -/
def deploy (h : HostClient) (clock : Binary64) (project : Project) :
    Run Project := fun o =>
  let ((r, project), o) := attempt h clock project o
  (r.map fun _ => project, o)

end CodeWeave.Deploy
