import CodeWeave.Deploy.Deployment
import CodeWeave.Proofs.Deploy.Commit
import CodeWeave.Proofs.Remote.Exchange

/-!
# What a deployment exchanges with the host

A deployment provisions a repository for a project without one, and then publishes the
project there: one commit for its files and one for the workflow.

> `exchanges_commitFiles`: every request of a commit is about its repository, and a commit
> that works has moved a branch once, with its last request.

> `exchanges_publish`: so a project is published with two moves of the branch, and the sha
> of its last commit is from the answer to the second.

> `exchanges_provision`: a new repository is one request, and no request of a
commit is one of these.
-/

namespace CodeWeave.Deploy

/-! ## Requests -/

/-- The request is for a new repository. -/
def CreatesRepository (q : HttpRequest) : Prop :=
  q.method = "POST" ∧ q.url = HostClient.address ++ "/user/repos"

/-- The request is about the objects of the repository. -/
def IsAbout (owner repository : String) (q : HttpRequest) : Prop :=
  ∃ rest, q.url = HostClient.address ++ (s!"/repos/{owner}/{repository}/git" ++ rest)

/-- The exchanges that move a branch. -/
def branchMoves (es : List Exchange) : List Exchange :=
  es.filter fun e => e.1.method == "PATCH"

/-- A request about a repository is not the one that makes one. -/
theorem not_creates_of_isAbout {owner repository : String} {q : HttpRequest}
    (hq : IsAbout owner repository q) : ¬ CreatesRepository q := by
  rintro ⟨-, hcreate⟩
  obtain ⟨rest, habout⟩ := hq
  rw [habout] at hcreate
  have hchars := congrArg String.toList hcreate
  simp [String.toList_append, toString] at hchars

/-! ## Commits -/

section Commit

open HostClient

variable (h : HostClient) (owner repository : String) (files : List ProjectFile)
  (message : String)

/-- Every request of a commit is about the repository that it is for. -/
theorem isAbout_of_mem_commitRequests {sha : Nat → Json} {q : HttpRequest}
    (hq : q ∈ h.commitRequests owner repository files message sha) :
    IsAbout owner repository q := by
  simp only [commitRequests, preparations, List.mem_cons, List.mem_append, List.mem_map,
    List.not_mem_nil, or_false] at hq
  have habout : ∀ part method body, IsAbout owner repository
      (h.requestFor (gitStem owner repository ++ part) method body) :=
    fun part _ _ => ⟨part, rfl⟩
  have hhead : headEndpoint owner repository =
      gitStem owner repository ++ ("/refs/heads/" ++ branch) :=
    String.append_assoc
  have hbranch : ∀ method body, IsAbout owner repository
      (h.requestFor (headEndpoint owner repository) method body) := by
    intro method body
    rw [hhead]
    exact habout _ _ _
  rcases hq with (rfl | ⟨file, _, rfl⟩ | rfl | rfl) | rfl
  · exact hbranch _ _
  · exact habout "/blobs" _ _
  · exact habout "/trees" _ _
  · exact habout "/commits" _ _
  · exact hbranch _ _

/-- A whole commit moves a branch with its last request, and with no other. -/
theorem branchMoves_commitRequests (c : Channel HttpOutcome) (sha : Nat → Json) :
    branchMoves (c.exchanges (h.commitRequests owner repository files message sha)) =
      [(h.moveRequest owner repository files.length sha,
        c.answer (files.length + 3))] := by
  have hnone : ∀ e ∈ c.exchanges (h.preparations owner repository files message sha),
      ¬ (e.1.method == "PATCH") = true := by
    intro e he
    have hmethod := h.method_of_mem_preparations owner repository files message
      (Channel.mem_of_mem_exchanges he)
    simp [hmethod]
  rw [commitRequests, Channel.exchanges_append, branchMoves, List.filter_append,
    List.filter_eq_nil_iff.mpr hnone, List.nil_append, length_preparations]
  show [(_, (c.skip (files.length + 3)).answer 0)] = _
  rw [c.answer_skip]

/-- What a commit promises: it is about its repository only, and if it works, it has moved
a branch once, with the answer as its result. -/
def Commits (owner repository : String) (es : List Exchange)
    (r : Except Failure Json) : Prop :=
  (∀ e ∈ es, IsAbout owner repository e.1) ∧
    ∀ ref, r = .ok ref → ∃ e, branchMoves es = [e] ∧ decode e.2 = .ok ref

/-- Whatever the host answers, a commit exchanges what `Commits` allows. -/
theorem exchanges_commitFiles :
    Exchanges (Commits owner repository) (h.commitFiles owner repository files
      message) := by
  intro o
  obtain ⟨k, hk, result, happly, -, hfail, hlast⟩ :=
    h.commitFiles_apply owner repository files message o
  rw [happly]
  refine ⟨_, Sends.after o _, fun e he => ?_, fun ref href => ?_⟩
  · exact isAbout_of_mem_commitRequests h owner repository files message
      (List.mem_of_mem_take (Channel.mem_of_mem_exchanges he))
  · -- a commit that works has gone through all its steps
    obtain rfl : result = .ok ref := href
    rcases Nat.lt_or_eq_of_le hk with hlt | hall
    · obtain ⟨f, -, hresult⟩ := hfail hlt
      exact nomatch hresult
    · have hlength := h.length_commitRequests owner repository files message
        fun i => valueOf (shaAt o.host i)
      have hdecode := hlast hall
      rw [hall] at hdecode ⊢
      rw [List.take_of_length_le (Nat.le_of_eq hlength), branchMoves_commitRequests]
      exact ⟨_, rfl, hdecode.symm⟩

end Commit

/-! ## Publishing -/

theorem lookup?_eq_ok {key : String} {v : Json} {part : Option Json}
    (h : v.lookup? key = .ok part) :
    part = v.get? key := by
  cases v with
  | obj fields => exact (Except.ok.inj h).symm
  | _ => exact nomatch h

/-- The sha that the response to a moved branch names, and null if it names none. -/
theorem movedSha_eq {ref sha : Json} (h : movedSha ref = .ok sha) :
    sha = ((ref.get? "object").bind (Json.get? "sha")).getD .null := by
  unfold movedSha at h
  cases htarget : ref.lookup? "object" with
  | error f =>
    rw [htarget] at h
    exact nomatch h
  | ok target =>
    rw [htarget] at h
    cases hsha : (target.getD (.obj [])).lookup? "sha" with
    | error f =>
      simp only [bind, Except.bind, hsha] at h
      exact nomatch h
    | ok part =>
      simp only [bind, Except.bind, hsha, pure, Except.pure] at h
      rw [← Except.ok.inj h, lookup?_eq_ok hsha, ← lookup?_eq_ok htarget]
      cases target <;> rfl

/-- Commits a project to a repository, and gives the repository as it is then. -/
def publish (h : HostClient) (project : Project) (g : Repository) : Run Repository := do
  Outside.log .info "[GITHUB] Committing file set to main branch..."
  let _ ← h.commitFiles g.owner g.repoName project.files HostClient.standardMessage
  Outside.log .info "[CI/CD] Injecting GitHub Actions workflow..."
  let ref ← h.addWorkflow g.owner g.repoName
  let sha ← ofExcept (movedSha ref)
  pure { g with lastCommit := sha, workflowActive := true }

/-- What the rest of a deployment promises behind `n` moves of the branch: it is about
the repository only, and if it works, it gives the repository with the sha from the
answer to the last move. -/
def Publishes (g : Repository) (n : Nat) (es : List Exchange)
    (r : Except Failure Repository) : Prop :=
  (∀ e ∈ es, IsAbout g.owner g.repoName e.1) ∧
    ∀ g', r = .ok g' → ∃ earlier last ref sha, branchMoves es = earlier ++ [last] ∧
      earlier.length = n ∧ HostClient.decode last.2 = .ok ref ∧ movedSha ref = .ok sha ∧
      g' = { g with lastCommit := sha, workflowActive := true }

/-- A commit in front of a publication is part of it. -/
theorem Publishes.of_commits {g : Repository} {es es' : List Exchange} {ref : Json}
    {n : Nat} {r : Except Failure Repository}
    (hes : Commits g.owner g.repoName es (.ok ref)) (hes' : Publishes g n es' r) :
    Publishes g (n + 1) (es ++ es') r := by
  obtain ⟨habout, hmoves⟩ := hes
  obtain ⟨habout', hmoves'⟩ := hes'
  refine ⟨fun e he => ?_, fun g' hg' => ?_⟩
  · rcases List.mem_append.mp he with he | he
    · exact habout e he
    · exact habout' e he
  · obtain ⟨first, hfirst, -⟩ := hmoves ref rfl
    obtain ⟨earlier, last, ref', sha, hlast, hlength, hrest⟩ := hmoves' g' hg'
    refine ⟨first :: earlier, last, ref', sha, ?_, congrArg (· + 1) hlength, hrest⟩
    unfold branchMoves at hfirst hlast ⊢
    rw [List.filter_append, hfirst, hlast]
    rfl

/-- A deployment moves the branch twice, for the files and for the workflow. -/
theorem exchanges_publish (h : HostClient) (project : Project) (g : Repository) :
    Exchanges (Publishes g 1) (publish h project g) := by
  have hstop : ∀ n es f, Commits g.owner g.repoName es (.error f) →
      Publishes g n es (.error f) :=
    fun n es f hes => ⟨hes.1, fun g' hg' => nomatch hg'⟩
  have hworkflow : Exchanges (Publishes g 0) (do
      let ref ← h.addWorkflow g.owner g.repoName
      let sha ← ofExcept (movedSha ref)
      pure { g with lastCommit := sha, workflowActive := true }) := by
    have hcommit := exchanges_commitFiles h g.owner g.repoName [HostClient.workflowFile]
      "Setup CI/CD Pipeline"
    refine hcommit.bind (q := fun ref es r => es = [] ∧ ∀ g', r = .ok g' → ∃ sha,
      movedSha ref = .ok sha ∧ g' = { g with lastCommit := sha, workflowActive := true })
      (fun ref => ?_) (hstop 0) ?_
    · refine Exchanges.ofExcept_bind (fun f _ => ⟨rfl, fun g' hg' => nomatch hg'⟩)
        fun sha hsha => ?_
      exact exchanges_pure ⟨rfl, fun g' hg' => ⟨sha, hsha, (Except.ok.inj hg').symm⟩⟩
    · rintro es ref _ r ⟨habout, hmoves⟩ ⟨rfl, hr⟩
      rw [List.append_nil]
      refine ⟨habout, fun g' hg' => ?_⟩
      obtain ⟨sha, hsha, hgsha⟩ := hr g' hg'
      obtain ⟨last, hlast, hdecode⟩ := hmoves ref rfl
      exact ⟨[], last, ref, sha, hlast, rfl, hdecode, hsha, hgsha⟩
  have hfiles :=
    exchanges_commitFiles h g.owner g.repoName project.files HostClient.standardMessage
  refine Exchanges.log_bind (hfiles.bind (fun _ => Exchanges.log_bind hworkflow _ _)
    (hstop 1) ?_) _ _
  exact fun es ref es' r hes hes' => Publishes.of_commits hes hes'

/-! ## Provisioning -/

/-- A project without a repository gets one with a request of its own,
whatever becomes of it. -/
theorem exchanges_provision (h : HostClient) (clock : Binary64) {project : Project}
    (hnew : project.github = none) :
    Exchanges (fun es _ => ∃ e, es = [e] ∧ CreatesRepository e.1)
      (provision h clock project) := by
  unfold provision
  rw [hnew]
  refine Exchanges.log_bind (Exchanges.bind (exchanges_request h _ _ _)
    (q := fun _ es _ => es = []) (fun repository => ?_) ?_ ?_) _ _
  · refine Exchanges.ofExcept_bind (fun _ _ => rfl) fun name _ => ?_
    refine Exchanges.ofExcept_bind (fun _ _ => rfl) fun owner _ => ?_
    refine Exchanges.ofExcept_bind (fun _ _ => rfl) fun url _ => ?_
    refine Exchanges.ofExcept_bind (fun _ _ => rfl) fun g _ => ?_
    refine Exchanges.log_bind ?_ _ _
    exact exchanges_pure rfl
  · rintro _ f ⟨answer, rfl, -⟩
    exact ⟨_, rfl, rfl, rfl⟩
  · rintro _ repository _ r ⟨answer, rfl, -⟩ rfl
    exact ⟨_, rfl, rfl, rfl⟩

end CodeWeave.Deploy
