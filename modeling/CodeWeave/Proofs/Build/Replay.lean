import CodeWeave.Build.Pipeline
import CodeWeave.Proofs.Build.Planning

/-!
# Builds, replayed

A build asks the outside for two candidates a file, and everything else that it does
follows from the answers. So a run of the pipeline is the replay of its attempts, and what
holds of all runs is proved about the replay, by induction on the attempts:

> `walk_eq_replay`: from the first file on, the pipeline does what `replay` says of the
> attempts at the files of the plan.

> `run_of_plan`, `run_of_no_plan`: so does the whole run, behind the step that plans.
-/

namespace CodeWeave

open BuildStep

/-! ## Attempts -/

/-- What became of the two candidates for a planned file. -/
structure Attempt where
  path : String
  cloud : Except Failure String
  loc : Except Failure String
  deriving DecidableEq

namespace Attempt

/-- The synthesis of the two candidates; of two failures the local one counts. -/
def synthesis (a : Attempt) : Except Failure Synthesis :=
  match a.loc, a.cloud with
  | .error f, _ => .error f
  | .ok _, .error f => .error f
  | .ok loc, .ok cloud => .ok (synthesize (some cloud.toList) (some loc.toList))

/-- What the attempt changes in a build that is at its file. -/
def change (index : Int) (a : Attempt) : BuildUpdate :=
  match a.synthesis with
  | .ok r => { files := some [fileOf a.path r], index := some (index + 1) }
  | .error f =>
    { errors := some [s!"synthesize_node error ({a.path}): {f.message}"],
      files := some [],
      index := some (index + 1) }

/-- An attempt changes the build, except that an interruption is passed on. -/
def update (index : Int) (a : Attempt) : Except Failure BuildUpdate :=
  match a.synthesis with
  | .ok _ => .ok (a.change index)
  | .error f => if f.isA .ordinary then .ok (a.change index) else .error f

theorem change_keeps (index : Int) (a : Attempt) :
    (a.change index).plan = none ∧ (a.change index).index = some (index + 1) := by
  unfold change
  split <;> exact ⟨rfl, rfl⟩

/-- An attempt that is no interruption changes the build. -/
theorem update_eq_ok_iff {index : Int} {a : Attempt} {u : BuildUpdate} :
    a.update index = .ok u ↔ Answered a.synthesis ∧ u = a.change index := by
  unfold update
  cases a.synthesis with
  | ok r => exact ⟨fun h => ⟨trivial, by cases h; rfl⟩, fun h => by rw [h.2]⟩
  | error f =>
    show
      (if f.isA .ordinary = true then Except.ok (a.change index) else .error f) = .ok u ↔
      f.isA .ordinary = true ∧ u = a.change index
    by_cases hf : f.isA .ordinary = true
    · rw [if_pos hf]
      exact ⟨fun h => ⟨hf, by cases h; rfl⟩, fun h => by rw [h.2]⟩
    · rw [if_neg hf]
      exact ⟨fun h => (nomatch h), fun h => absurd h.1 hf⟩

end Attempt

/-- Requests both candidates for a file. -/
def request (g : CandidateSources) (prompt context path : String) (o : Outside) :
    Attempt × Outside :=
  let cloud := g.cloud.generate path prompt context o
  let loc := LocalSource.generate g.settings path prompt cloud.2
  (⟨path, cloud.1, loc.1⟩,
    match loc.1, cloud.1 with
    | .ok l, .ok c =>
      (Outside.log .debug s!"{path}: cloud={c.length} chars, local={l.length} chars"
        loc.2).2
    | _, _ => loc.2)

def attempt (g : CandidateSources) (prompt context path : String) (o : Outside) :
    Attempt × Outside :=
  request g prompt context path (Outside.log .info s!"Synthesizing {path}..." o).2

/-- Requests both candidates for one file after another. -/
def attempts (g : CandidateSources) (prompt context : String) :
    List String → Outside → List Attempt
  | [], _ => []
  | p :: ps, o => (attempt g prompt context p o).1 ::
      attempts g prompt context ps (attempt g prompt context p o).2

theorem map_path_attempts (g : CandidateSources) (prompt context : String)
    (ps : List String) (o : Outside) :
    (attempts g prompt context ps o).map (·.path) = ps := by
  induction ps generalizing o with
  | nil => rfl
  | cons p ps ih =>
    unfold attempts
    rw [List.map_cons, ih]
    rfl

theorem generate_apply (g : CandidateSources) (path prompt context : String)
    (o : Outside) :
    g.generate path prompt context o =
      ((request g prompt context path o).1.synthesis,
        (request g prompt context path o).2) := by
  unfold CandidateSources.generate request Attempt.synthesis
  rw [Run.outcome_bind, Run.outcome_bind]
  dsimp only
  cases (LocalSource.generate g.settings path prompt
    (g.cloud.generate path prompt context o).2).1 with
  | error f => rfl
  | ok loc =>
    cases (g.cloud.generate path prompt context o).1 with
    | error f => rfl
    | ok cloud => rfl

/-- On an ordinary outside no attempt is interrupted. -/
theorem answered_attempts {g : CandidateSources}
    (hclient : ∀ c ∈ g.cloud.client, c.Ordinary) (prompt context : String)
    {ps : List String} {o : Outside} (ho : o.Ordinary) :
    ∀ a ∈ attempts g prompt context ps o, Answered a.synthesis := by
  induction ps generalizing o with
  | nil => exact fun a ha => nomatch ha
  | cons p ps ih =>
    have hlog := (contained_log .info s!"Synthesizing {p}..." o ho).2
    obtain ⟨hanswered, ho'⟩ := contained_generate hclient p prompt context _ hlog
    rw [generate_apply] at hanswered ho'
    intro a ha
    rcases List.mem_cons.mp ha with rfl | ha
    · exact hanswered
    · exact ih ho' a ha

/-- The step that synthesizes a file is an attempt at it. -/
theorem synthesizeNext_apply {g : CandidateSources} {s : BuildState} {path : String}
    (h : currentPath? s = some path) (o : Outside) :
    synthesizeNext g s o =
      ((attempt g s.prompt s.context path o).1.update s.index,
        (attempt g s.prompt s.context path o).2) := by
  unfold synthesizeNext attempt Attempt.update Attempt.change
  rw [h]
  dsimp only
  rw [Outside.log_bind, Run.outcome_bind, generate_apply]
  generalize (Outside.log _ _ o).2 = o'
  show (match (request g s.prompt s.context path o').1.synthesis with
    | .ok r => _
    | .error f => _ : Run BuildUpdate) (request g s.prompt s.context path o').2 = _
  cases (request g s.prompt s.context path o').1.synthesis with
  | ok r => rfl
  | error f =>
    dsimp only
    split <;> rfl

/-! ## The replay -/

namespace Build

def verifyUpdate (s : BuildState) : BuildUpdate :=
  { step := some .idle, verified := some (problems s).isEmpty,
    errors := some (problems s) }

/-- What a run does from its first file on, given the attempts at the files that
are still to come. -/
def replay : Nat → List Attempt → BuildState → BuildWalk
  | 0, _, _ => ⟨[], .error stepLimitFailure⟩
  | limit + 1, [], s =>
    ⟨[(.verify, verifyUpdate s)],
      if limit = 0 then .error stepLimitFailure else .ok (s.apply (verifyUpdate s))⟩
  | limit + 1, a :: as, s =>
    match a.update s.index with
    | .error f => ⟨[], .error f⟩
    | .ok u =>
      let w := replay limit as (s.apply u)
      { w with steps := (.synthesize, u) :: w.steps }

/-- The step that comes next when these files are still to come. -/
def upcoming (rest : List String) : BuildStep :=
  if rest.isEmpty then .verify else .synthesize

section Steps

variable {parts : BuildParts} {limit : Nat} {current : BuildStep} {s : BuildState}
  {o o' : Outside}

/-- A run whose first step fails is over. -/
theorem walk_failed {f : Failure} (hrun : current.run parts s o = (.error f, o')) :
    (walk parts (limit + 1) current s o).1 = .ok ⟨[], .error f⟩ := by
  rw [walk, Run.outcome_bind, hrun]
  rfl

/-- A run whose first step is the last one is over, and that is noticed
with a step left. -/
theorem walk_last {u : BuildUpdate} (hrun : current.run parts s o = (.ok u, o'))
    (hnext : current.next (s.apply u) = none) :
    (walk parts (limit + 1) current s o).1 =
      .ok ⟨[(current, u)],
        if limit = 0 then .error stepLimitFailure else .ok (s.apply u)⟩ := by
  rw [walk, Run.outcome_bind, hrun]
  dsimp only
  rw [hnext]
  rfl

/-- Otherwise a run is its first step and a shorter run. -/
theorem walk_on {u : BuildUpdate} (hrun : current.run parts s o = (.ok u, o'))
    {following : BuildStep} (hnext : current.next (s.apply u) = some following)
    {w : BuildWalk} (hwalk : (walk parts limit following (s.apply u) o').1 = .ok w) :
    (walk parts (limit + 1) current s o).1 =
      .ok { w with steps := (current, u) :: w.steps } := by
  rw [walk, Run.outcome_bind, hrun]
  dsimp only
  rw [hnext]
  dsimp only
  -- only the result of the shorter run is known, not the outside behind it
  rcases hwalk' : walk parts limit following (s.apply u) o' with ⟨r, o''⟩
  rw [hwalk'] at hwalk
  obtain rfl : r = .ok w := hwalk
  rw [Run.bind_ok hwalk']
  rfl

end Steps

theorem verifyFiles_apply (s : BuildState) (o : Outside) :
    (verifyFiles s o).1 = .ok (verifyUpdate s) := by
  unfold verifyFiles
  dsimp only
  split <;> rfl

/-- Once all files are done, a run verifies and ends. -/
theorem walk_verify (parts : BuildParts) (limit : Nat) (s : BuildState) (o : Outside) :
    (walk parts limit .verify s o).1 = .ok (replay limit [] s) := by
  cases limit with
  | zero => rfl
  | succ limit =>
    have hverify := verifyFiles_apply s o
    rcases hrun : verifyFiles s o with ⟨r, o'⟩
    rw [hrun] at hverify
    obtain rfl : r = .ok (verifyUpdate s) := hverify
    exact walk_last hrun rfl

/-- The state is at the first of the files that are still to come. -/
def At (s : BuildState) (rest : List String) : Prop :=
  ∃ before, s.plan = before ++ rest ∧ s.index = before.length

theorem At.currentPath {s : BuildState} {p : String} {rest : List String}
    (h : At s (p :: rest)) :
    currentPath? s = some p := by
  obtain ⟨before, hplan, hindex⟩ := h
  unfold currentPath?
  rw [hindex, hplan, if_neg (by omega), Int.toNat_natCast]
  simp

theorem At.advance {s : BuildState} {p : String} {rest : List String}
    (h : At s (p :: rest)) {u : BuildUpdate} (hplan : u.plan = none)
    (hindex : u.index = some (s.index + 1)) :
    At (s.apply u) rest := by
  obtain ⟨before, hsplit, hat⟩ := h
  refine ⟨before ++ [p], ?_, ?_⟩
  · show u.plan.getD s.plan = _
    rw [hplan, hsplit, List.append_assoc]
    rfl
  · show u.index.getD s.index = _
    rw [hindex, hat, List.length_append]
    rfl

theorem At.next {s : BuildState} {rest : List String} (h : At s rest) :
    BuildStep.synthesize.next s = some (upcoming rest) := by
  obtain ⟨before, hplan, hindex⟩ := h
  show (if hasNext s = true then some BuildStep.synthesize else some BuildStep.verify) = _
  unfold hasNext upcoming
  rw [hplan, hindex, List.length_append]
  cases rest with
  | nil => simp
  | cons p rest =>
    have hlt : (before.length : Int) < (before.length + (p :: rest).length : Nat) := by
      rw [List.length_cons]
      omega
    rw [decide_eq_true hlt]
    rfl

/-- From a file on, a run is the replay of the attempts at it and the files behind it. -/
theorem walk_eq_replay (parts : BuildParts) (limit : Nat) (rest : List String)
    (s : BuildState) (o : Outside) (h : At s rest) :
    (walk parts limit (upcoming rest) s o).1 =
      .ok (replay limit (attempts parts.generator s.prompt s.context rest o) s) := by
  -- on the files to come: `At` is what makes the step find the next one, and it moves
  -- on with the step
  induction rest generalizing limit s o with
  | nil => exact walk_verify parts limit s o
  | cons p rest ih =>
    cases limit with
    | zero => rfl
    | succ limit =>
      have hrun : BuildStep.synthesize.run parts s o = _ :=
        synthesizeNext_apply h.currentPath o
      unfold attempts replay
      show (walk parts (limit + 1) .synthesize s o).1 = _
      rcases hattempt : attempt parts.generator s.prompt s.context p o with ⟨a, o'⟩
      rw [hattempt] at hrun
      dsimp only at hrun ⊢
      cases hupdate : a.update s.index with
      | error f =>
        rw [hupdate] at hrun
        exact walk_failed hrun
      | ok u =>
        rw [hupdate] at hrun
        obtain ⟨-, rfl⟩ := Attempt.update_eq_ok_iff.mp hupdate
        have hat := h.advance (a.change_keeps s.index).1 (a.change_keeps s.index).2
        exact walk_on hrun hat.next (ih limit _ o' hat)

/-! ## What a replay does -/

def after : List Attempt → BuildState → BuildState
  | [], s => s
  | a :: as, s => after as (s.apply (a.change s.index))

/-- The steps that synthesize files, from the file with this number on. -/
def fileSteps (start : Nat) (as : List Attempt) : List (BuildStep × BuildUpdate) :=
  (as.zipIdx start).map fun (a, i) => (.synthesize, a.change i)

theorem length_fileSteps (start : Nat) (as : List Attempt) :
    (fileSteps start as).length = as.length := by
  unfold fileSteps
  rw [List.length_map, List.length_zipIdx]

/-- A run without an interruption goes through all files and verifies, as far as
its limit allows. -/
theorem replay_ordinary {as : List Attempt} (h : ∀ a ∈ as, Answered a.synthesis)
    (limit : Nat) {s : BuildState} {start : Nat} (hindex : s.index = start) :
    (replay limit as s).steps =
        (fileSteps start as ++
          [(BuildStep.verify, verifyUpdate (after as s))]).take limit ∧
      (replay limit as s).result =
        if limit ≤ as.length + 1 then .error stepLimitFailure
        else .ok ((after as s).apply (verifyUpdate (after as s))) := by
  induction as generalizing limit s start with
  | nil =>
    cases limit with
    | zero => exact ⟨rfl, rfl⟩
    | succ limit =>
      refine ⟨(List.take_of_length_le (Nat.succ_le_succ (Nat.zero_le limit))).symm, ?_⟩
      show (if limit = 0 then _ else _) = _
      by_cases hlimit : limit = 0
      · rw [if_pos hlimit, if_pos (by simp [hlimit])]
      · rw [if_neg hlimit, if_neg (by simp; omega)]
        rfl
  | cons a as ih =>
    cases limit with
    | zero => exact ⟨rfl, rfl⟩
    | succ limit =>
      have hupdate : a.update s.index = .ok (a.change s.index) :=
        Attempt.update_eq_ok_iff.mpr ⟨h a List.mem_cons_self, rfl⟩
      have hnext : (s.apply (a.change s.index)).index = ((start + 1 : Nat) : Int) := by
        show (a.change s.index).index.getD s.index = _
        rw [(a.change_keeps s.index).2, hindex]
        rfl
      obtain ⟨hsteps, hresult⟩ :=
        ih (fun b hb => h b (List.mem_cons_of_mem a hb)) limit hnext
      unfold replay
      rw [hupdate]
      refine ⟨?_, ?_⟩
      · show (.synthesize, a.change s.index) :: (replay limit as _).steps = _
        rw [hsteps]
        show _ = (.synthesize, a.change start) ::
          List.take limit (fileSteps (start + 1) as ++ _)
        rw [← hindex]
        rfl
      · show (replay limit as _).result = _
        rw [hresult, List.length_cons]
        by_cases hlimit : limit ≤ as.length + 1
        · rw [if_pos hlimit, if_pos (by omega)]
        · rw [if_neg hlimit, if_neg (by omega)]
          rfl

/-- What the planner answers, and the outside behind it. -/
def planned (client : Option Client) (prompt : String) (o : Outside) :
    Except Failure (List String) × Outside :=
  Plan.generate client prompt (Outside.log .info "Deep Thinking Planner engaged..." o).2

/-- What the step changes that has found a plan. -/
def planningUpdate (plan : List String) : BuildUpdate :=
  { plan := some plan, index := some 0, step := some .execute }

/-- What the step that plans changes; an interruption is passed on. -/
def planUpdate : Except Failure (List String) → Except Failure BuildUpdate
  | .ok paths => .ok (planningUpdate paths)
  | .error f =>
    if f.isA .ordinary then
      .ok
        { errors := some [s!"plan_node error: {f.message}"]
          plan := some []
          step := some .idle }
    else .error f

theorem makePlan_apply (client : Option Client) (s : BuildState) (o : Outside) :
    makePlan client s o =
      (planUpdate (planned client s.prompt o).1, (planned client s.prompt o).2) := by
  unfold makePlan planned planUpdate
  rw [Outside.log_bind, Run.outcome_bind]
  cases (Plan.generate client s.prompt (Outside.log _ _ o).2).1 with
  | ok paths => rfl
  | error f =>
    dsimp only
    split <;> rfl

/-- The state behind a step that has planned. -/
def planState (prompt context : String) (plan : List String) : BuildState :=
  (BuildState.initial prompt context).apply (planningUpdate plan)

/-- With a plan, a run is the step that plans and then the replay. -/
theorem run_of_plan {parts : BuildParts} {prompt : String} {o o' : Outside}
    {plan : List String} (h : planned parts.client prompt o = (.ok plan, o'))
    (hne : plan ≠ []) (context : String) (limit : Nat) :
    (runPipeline none parts (limit + 1) (.initial prompt context) o).1 =
      let w := replay limit (attempts parts.generator prompt context plan o')
        (planState prompt context plan)
      .ok { w with steps := (.plan, planningUpdate plan) :: w.steps } := by
  have hrun : BuildStep.plan.run parts (.initial prompt context) o = _ :=
    makePlan_apply parts.client (.initial prompt context) o
  rw [show planned parts.client (BuildState.initial prompt context).prompt o = _
    from h] at hrun
  have hupcoming : upcoming plan = .synthesize := by
    unfold upcoming
    rw [if_neg (by simpa using hne)]
  have hnext : BuildStep.plan.next (planState prompt context plan) =
      some .synthesize := by
    show (if (!plan.isEmpty) = true then some BuildStep.synthesize else none) = _
    rw [if_pos (by simpa using hne)]
  have hreplay :=
    walk_eq_replay parts limit plan (planState prompt context plan) o' ⟨[], rfl, rfl⟩
  rw [hupcoming] at hreplay
  exact walk_on hrun hnext hreplay

/-- Without a plan, a run ends behind the step that looked for one. -/
theorem run_of_no_plan {parts : BuildParts} {prompt : String} {o : Outside}
    {u : BuildUpdate} (h : planUpdate (planned parts.client prompt o).1 = .ok u)
    (hempty : u.plan = some []) (context : String) (limit : Nat) :
    (runPipeline none parts (limit + 1) (.initial prompt context) o).1 =
      .ok ⟨[(.plan, u)],
        if limit = 0 then .error stepLimitFailure
        else .ok ((BuildState.initial prompt context).apply u)⟩ := by
  have hrun : BuildStep.plan.run parts (.initial prompt context) o = _ :=
    makePlan_apply parts.client (.initial prompt context) o
  rw [show planUpdate (planned parts.client
    (BuildState.initial prompt context).prompt o).1 = _
    from h] at hrun
  refine walk_last hrun ?_
  show
    (if (!(u.plan.getD []).isEmpty) = true then some BuildStep.synthesize else none) = none
  rw [hempty]
  rfl

end Build

end CodeWeave
