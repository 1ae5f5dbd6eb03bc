import CodeWeave.Proofs.Deploy.Publish

/-!
# Deploying again and again

An attempt to deploy a project talks to the host first and changes the project last, so an
attempt that fails leaves the project as it was, although not the host. A run of attempts
keeps the project in this way, and whatever the host answers:

> `attempt_apply`: everything that can fail comes before the one change.

> `Call.creates_iff`, `Call.keepsTo`: a project without a repository gets one, and a
> project with one keeps it.

> `trials_keep_repository`: so behind the first attempt that works all others are
about one repository.
-/

namespace CodeWeave.Deploy

/-! ## One attempt -/

namespace Attempt

variable {α β γ : Type}

/-- An action on the outside leaves the project as it is. -/
theorem ofRun_bind_apply (x : Run α) (f : α → Attempt β) (p : Project) (o : Outside) :
    (Attempt.ofRun x >>= f) p o = match x o with
      | (.ok a, o') => f a p o'
      | (.error e, o') => ((.error e, p), o') := by
  show (ExceptT.bindCont f (x o).1 : StateT Project (StateM Outside) _) p (x o).2 = _
  rcases x o with ⟨a | a, o'⟩ <;> rfl

theorem ofRun_bind (x : Run α) (f : α → Run β) (k : β → Attempt γ) :
    (Attempt.ofRun (x >>= f) >>= k) =
      Attempt.ofRun x >>= fun a => Attempt.ofRun (f a) >>= k := by
  funext p o
  rw [ofRun_bind_apply, ofRun_bind_apply]
  rcases hxo : x o with ⟨e | a, o'⟩
  · rw [Run.bind_error hxo]
  · rw [Run.bind_ok hxo]
    exact (ofRun_bind_apply (f a) k p o').symm

theorem ofRun_pure_bind (a : α) (k : α → Attempt β) :
    (Attempt.ofRun (pure a) >>= k) = k a := rfl

theorem ofRun_ofExcept (e : Except Failure α) :
    Attempt.ofRun (ofExcept e) = ofExcept e := by
  cases e <;> rfl

end Attempt

/-- An attempt at a project with files changes the project once, after
everything has worked. -/
theorem attempt_apply (h : HostClient) (clock : Binary64) {project : Project}
    (hfiles : project.files ≠ []) (o : Outside) :
    attempt h clock project o =
      match (provision h clock project >>= publish h project) o with
      | (.error f, o') => ((.error f, project), o')
      | (.ok g, o') => ((.ok g, { project with github := some g }),
          (Outside.log .info "[CI/CD] Deployment complete. Pipeline is now RUNNING."
            o').2) := by
  have hempty : project.files.isEmpty = false := List.isEmpty_eq_false_iff.mpr hfiles
  let finish : Repository → Attempt Repository := fun g => do
    set { project with github := some g }
    Attempt.ofRun
      (Outside.log .info "[CI/CD] Deployment complete. Pipeline is now RUNNING.")
    pure g
  have hattempt : attempt h clock project o =
      (Attempt.ofRun (provision h clock project >>= publish h project) >>= finish)
        project o := by
    unfold publish
    simp only [Attempt.ofRun_bind, Attempt.ofRun_pure_bind, Attempt.ofRun_ofExcept]
    unfold attempt
    show (if project.files.isEmpty then _ else _ : Attempt Repository) project o = _
    rw [hempty, if_neg Bool.false_ne_true]
  rw [hattempt, Attempt.ofRun_bind_apply]
  rcases (provision h clock project >>= publish h project) o with ⟨f | g, o'⟩ <;> rfl

/-! ## Calls -/

/-- A call for a deployment, with everything that it depends on beside the project. -/
structure Call where
  client : HostClient
  clock : Binary64
  outside : Outside

/-- What a call did: the project before and after it, its outcome, and
what it exchanged. -/
structure Trial where
  before : Project
  after : Project
  result : Except Failure Repository
  exchanges : List Exchange

def Call.run (c : Call) (project : Project) : Trial :=
  let ended := attempt c.client c.clock project c.outside
  ⟨project, ended.1.2, ended.1.1, c.outside.exchangesTo ended.2⟩

/-- One call after the other, each at the project that the earlier ones left. -/
def trials (project : Project) : List Call → List Trial
  | [] => []
  | c :: calls => c.run project :: trials (c.run project).after calls

namespace Call

variable (c : Call) {project : Project}

/-- What an attempt does before it changes the project. -/
theorem promises (hfiles : project.files ≠ [])
    {p : List Exchange → Except Failure Repository → Prop}
    (hp : Exchanges p (provision c.client c.clock project >>= publish c.client project)) :
    p (c.run project).exchanges (c.run project).result := by
  obtain ⟨qs, hsends, hr⟩ := hp c.outside
  unfold run
  rw [attempt_apply c.client c.clock hfiles]
  rcases hrun : (provision c.client c.clock project >>= publish c.client project)
    c.outside with
    ⟨f | g, o'⟩
  · rw [hrun] at hsends hr
    show p (c.outside.exchangesTo o') _
    rw [hsends.exchangesTo_eq]
    exact hr
  · rw [hrun] at hsends hr
    have hlog :=
      hsends.trans
      (Sends.log o' .info "[CI/CD] Deployment complete. Pipeline is now RUNNING.")
    rw [List.append_nil] at hlog
    show p (c.outside.exchangesTo _) _
    rw [hlog.exchangesTo_eq]
    exact hr

/-- A call that fails leaves the project as it was, and one that works changes
its repository. -/
theorem after_run (hfiles : project.files ≠ []) :
    (c.run project).after = match (c.run project).result with
      | .error _ => project
      | .ok g => { project with github := some g } := by
  unfold run
  rw [attempt_apply c.client c.clock hfiles]
  rcases (provision c.client c.clock project >>= publish c.client project) c.outside
    with ⟨f | g, o'⟩
  · rfl
  · rfl

theorem publishes (hfiles : project.files ≠ []) {g : Repository}
    (hg : project.github = some g) :
    Publishes g 1 (c.run project).exchanges (c.run project).result := by
  refine c.promises hfiles ?_
  have hprovision : provision c.client c.clock project = pure g := by
    unfold provision
    rw [hg]
  rw [hprovision, pure_bind]
  exact exchanges_publish c.client project g

/-- A call creates a repository exactly if the project has none. -/
theorem creates_iff (hfiles : project.files ≠ []) :
    (∃ e ∈ (c.run project).exchanges, CreatesRepository e.1) ↔ project.github = none := by
  cases hgithub : project.github with
  | none =>
    refine iff_of_true (c.promises hfiles (p := fun es _ => ∃ e ∈ es,
      CreatesRepository e.1) ?_) rfl
    refine (exchanges_provision c.client c.clock hgithub).bind
      (exchanges_publish c.client project) ?_ ?_
    · rintro _ f ⟨e, rfl, he⟩
      exact ⟨e, List.mem_singleton_self e, he⟩
    · rintro _ g es' r ⟨e, rfl, he⟩ -
      exact ⟨e, List.mem_cons_self, he⟩
  | some g =>
    refine iff_of_false ?_ (Option.some_ne_none g)
    rintro ⟨e, he, hcreates⟩
    exact not_creates_of_isAbout ((c.publishes hfiles hgithub).1 e he) hcreates

theorem files_after_run (hfiles : project.files ≠ []) :
    (c.run project).after.files = project.files := by
  rw [c.after_run hfiles]
  cases (c.run project).result <;> rfl

end Call

/-! ## Runs -/

/-- A trial of a run is that of one call at the project that is there, and the trials
behind it are a run from the project that it leaves. -/
theorem exists_of_trials_eq {project : Project} (hfiles : project.files ≠ [])
    {calls : List Call} {earlier later : List Trial} {t : Trial}
    (h : trials project calls = earlier ++ t :: later) :
    ∃ (c : Call) (p : Project) (calls' : List Call),
      p.files ≠ [] ∧ t = c.run p ∧ later = trials t.after calls' := by
  induction calls generalizing project earlier with
  | nil =>
    rw [trials] at h
    exact absurd h (by simp)
  | cons c calls ih =>
    rw [trials] at h
    cases earlier with
    | nil =>
      obtain ⟨rfl, rfl⟩ := List.cons.inj h
      exact ⟨c, project, calls, hfiles, rfl, rfl⟩
    | cons s earlier =>
      refine ih ?_ (List.cons.inj h).2
      rw [c.files_after_run hfiles]
      exact hfiles

/-- The repositories are one and the same, up to the last commit and the state
of the workflow. -/
structure SameRepository (g g' : Repository) : Prop where
  name : g'.repoName = g.repoName
  owner : g'.owner = g.owner
  url : g'.url = g.url

/-- The trial keeps to a repository: everything it sends is about that, and creates none,
and the project has it afterwards, with the sha from the second move of its branch if the
trial has worked. -/
def KeepsTo (g : Repository) (t : Trial) : Prop :=
  (∀ e ∈ t.exchanges, IsAbout g.owner g.repoName e.1 ∧ ¬ CreatesRepository e.1) ∧
    ∃ g', t.after.github = some g' ∧ SameRepository g g' ∧
      ∀ r, t.result = .ok r → r = g' ∧ g'.workflowActive = true ∧
        ∃ first second ref, branchMoves t.exchanges = [first, second] ∧
          HostClient.decode second.2 = .ok ref ∧
          g'.lastCommit = ((ref.get? "object").bind (Json.get? "sha")).getD .null

theorem Call.keepsTo (c : Call) {project : Project} (hfiles : project.files ≠ [])
    {g : Repository} (hg : project.github = some g) : KeepsTo g (c.run project) := by
  obtain ⟨habout, hmoves⟩ := c.publishes hfiles hg
  have hafter := c.after_run hfiles
  refine ⟨fun e he => ⟨habout e he, not_creates_of_isAbout (habout e he)⟩, ?_⟩
  cases hresult : (c.run project).result with
  | error f =>
    rw [hresult] at hafter
    exact ⟨g, by rw [hafter, hg], ⟨rfl, rfl, rfl⟩, fun r hr => nomatch hr⟩
  | ok g' =>
    rw [hresult] at hafter
    obtain ⟨earlier, second, ref, sha, hbranch, hlength, hdecode, hsha, hg'⟩ :=
      hmoves g' hresult
    obtain ⟨first, rfl⟩ := List.length_eq_one_iff.mp hlength
    refine ⟨g', by rw [hafter], by rw [hg']; exact ⟨rfl, rfl, rfl⟩, fun r hr => ?_⟩
    refine ⟨(Except.ok.inj hr).symm, by rw [hg'], first, second, ref,
      hbranch, hdecode, ?_⟩
    rw [hg']
    exact movedSha_eq hsha

theorem KeepsTo.congr {g g' : Repository} {t : Trial} (hsame : SameRepository g g')
    (h : KeepsTo g' t) : KeepsTo g t := by
  obtain ⟨habout, g'', hafter, hsame', hresult⟩ := h
  rw [hsame.owner, hsame.name] at habout
  exact ⟨habout, g'', hafter, ⟨hsame'.name.trans hsame.name,
    hsame'.owner.trans hsame.owner,
    hsame'.url.trans hsame.url⟩, hresult⟩

/-- All trials at a project with a repository keep to that. -/
theorem keepsTo_of_mem_trials {project : Project} (hfiles : project.files ≠ [])
    {g : Repository} (hg : project.github = some g) {calls : List Call} :
    ∀ t ∈ trials project calls, KeepsTo g t := by
  induction calls generalizing project g with
  | nil => exact fun t ht => absurd ht List.not_mem_nil
  | cons c calls ih =>
    have hfirst := c.keepsTo hfiles hg
    intro t ht
    rcases List.mem_cons.mp ht with rfl | ht
    · exact hfirst
    · -- the later trials keep to what the first one leaves, which is the same repository
      obtain ⟨-, g', hafter, hsame, -⟩ := hfirst
      have hkept : (c.run project).after.files ≠ [] := by
        rw [c.files_after_run hfiles]
        exact hfiles
      exact (ih hkept hafter t ht).congr hsame

/-- Attempts to deploy a project are atomic, over a whole run of them. One that fails
leaves the project as it was, a repository is created exactly by an attempt at a
project that has none, and behind the first attempt that works all others keep to the
repository that it gave. -/
theorem trials_keep_repository (project : Project) (hfiles : project.files ≠ [])
    (calls : List Call) :
    (∀ t ∈ trials project calls, (∀ f, t.result = .error f → t.after = t.before) ∧
      ((∃ e ∈ t.exchanges, CreatesRepository e.1) ↔ t.before.github = none)) ∧
    ∀ earlier t later, trials project calls = earlier ++ t :: later →
      ∀ r, t.result = .ok r →
      t.after.github = some r ∧ ∀ u ∈ later, KeepsTo r u := by
  constructor
  · intro t ht
    obtain ⟨earlier, later, hsplit⟩ := List.append_of_mem ht
    obtain ⟨c, p, -, hp, rfl, -⟩ := exists_of_trials_eq hfiles hsplit
    refine ⟨fun f hf => ?_, c.creates_iff hp⟩
    rw [c.after_run hp, hf]
    rfl
  · intro earlier t later hsplit r hr
    obtain ⟨c, p, calls', hp, rfl, rfl⟩ := exists_of_trials_eq hfiles hsplit
    have hafter : (c.run p).after.github = some r := by
      rw [c.after_run hp, hr]
    refine ⟨hafter, keepsTo_of_mem_trials ?_ hafter⟩
    rw [c.files_after_run hp]
    exact hp

/-- A project with one file and no repository. -/
def draft : Project :=
  { files := [⟨"App.tsx", "src/App.tsx", ['a'], "typescript", none⟩] }

/-- A call while the host does the same about every request. -/
def callWith (answer : HttpOutcome) : Call :=
  let outside := Outside.silent ⟨.connection, "offline", [], 0⟩
  ⟨⟨"token"⟩, .finite false 1700000000 0, { outside with host := ⟨[], answer⟩ }⟩

def offline : Call := callWith (.failed ⟨.connection, "offline", [], 0⟩)

/-- Every answer has all that a deployment reads from any. -/
def online : Call :=
  callWith
    (.answered 200
    (.ok (.obj [("name", .str "demo"), ("owner", .obj [("login", .str "octocat")]),
    ("html_url", .str "demo.url"), ("object", .obj [("sha", .str "c0ffee")]),
      ("sha", .str "c0ffee")])))

/-- A failed attempt, one that works, and a failed one: the first two create a repository,
and the last keeps to that of the second. -/
theorem trials_keep_repository_draft :
    draft.files ≠ [] ∧ ∃ t₁ t₂ t₃ g, trials draft [offline, online, offline] =
      [t₁, t₂, t₃] ∧
      t₁.after = t₁.before ∧ (∃ e ∈ t₁.exchanges, CreatesRepository e.1) ∧
      (∃ e ∈ t₂.exchanges, CreatesRepository e.1) ∧ t₂.after.github = some g ∧
        KeepsTo g t₃ := by
  have hfiles : draft.files ≠ [] := by decide
  have hoffline : (offline.run draft).result.isOk = false := by decide +kernel
  have honline : (online.run draft).result.isOk = true := by decide +kernel
  obtain ⟨f, hfailed⟩ : ∃ f, (offline.run draft).result = .error f := by
    cases hresult : (offline.run draft).result with
    | ok g => rw [hresult] at hoffline; exact nomatch hoffline
    | error f => exact ⟨f, rfl⟩
  obtain ⟨g, hworked⟩ : ∃ g, (online.run draft).result = .ok g := by
    cases hresult : (online.run draft).result with
    | ok g => exact ⟨g, rfl⟩
    | error f => rw [hresult] at honline; exact nomatch honline
  have hfirst : (offline.run draft).after = draft := by
    rw [offline.after_run hfiles, hfailed]
  have htrials : trials draft [offline, online, offline] =
      [offline.run draft, online.run draft, offline.run (online.run draft).after] := by
    rw [trials, trials, trials, trials, hfirst]
  obtain ⟨hall, hafter⟩ := trials_keep_repository draft hfiles [offline, online, offline]
  rw [htrials] at hall hafter
  obtain ⟨hgithub, hkeeps⟩ :=
    hafter [offline.run draft] (online.run draft) _ rfl g hworked
  refine ⟨hfiles, _, _, _, g, htrials, ?_, ?_, ?_, hgithub, hkeeps _ List.mem_cons_self⟩
  · exact (hall _ List.mem_cons_self).1 f hfailed
  · exact (hall _ List.mem_cons_self).2.mpr rfl
  · exact (hall _ (List.mem_cons_of_mem _ List.mem_cons_self)).2.mpr rfl

end CodeWeave.Deploy
