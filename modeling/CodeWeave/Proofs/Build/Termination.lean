import CodeWeave.CommandLine.Session
import CodeWeave.Proofs.Build.Replay

/-!
# Builds finish

On an ordinary outside a build passes no failure on. It plans, and with a plan it
synthesizes every file once, in order, and verifies. The number of steps is known once the
plan is, and no plan has more files than the limit of the command line allows for:

> `steps_of_run`: a run does the steps of its `Trace` as far as its limit allows. Its
> result is a state if a step is left behind them, and otherwise the failure of a run that
> uses up its steps.

The run needs that step more than the trace has: the pipeline notices the end of a run
only when it looks for another step (`run_at_limit`).
-/

namespace CodeWeave.Build

open BuildStep

/-- The steps of a build with this plan, and what they change. -/
inductive Trace : List String → List (BuildStep × BuildUpdate) → Prop where
  /-- Nothing was planned. -/
  | planOnly (u : BuildUpdate) : Trace [] [(.plan, u)]
  /-- The files of the plan are attempted one by one, and then verified. -/
  | planned (as : List Attempt) (v : BuildUpdate) (nonempty : as ≠ []) :
      Trace (as.map (·.path)) ((.plan, planningUpdate (as.map (·.path))) ::
        (fileSteps 0 as ++ [(.verify, v)]))

/-- The number of steps of a build with this plan. -/
def stepCount (plan : List String) : Nat := if plan.isEmpty then 1 else plan.length + 2

theorem map_fst_fileSteps (start : Nat) (as : List Attempt) :
    (fileSteps start as).map Prod.fst = List.replicate as.length .synthesize := by
  have hlength : (as.zipIdx start).length = as.length := List.length_zipIdx
  unfold fileSteps
  rw [List.map_map, ← hlength]
  exact List.map_const'

/-- With a plan the build plans, synthesizes once for each file, and verifies. -/
theorem Trace.map_fst {plan : List String} {trace : List (BuildStep × BuildUpdate)}
    (h : Trace plan trace) (hne : plan ≠ []) :
    trace.map Prod.fst =
      .plan :: (List.replicate plan.length .synthesize ++ [.verify]) := by
  cases h with
  | planOnly u => exact absurd rfl hne
  | planned as v nonempty =>
    rw [List.map_cons, List.map_append, map_fst_fileSteps, List.length_map]
    rfl

theorem Trace.length {plan : List String} {trace : List (BuildStep × BuildUpdate)}
    (h : Trace plan trace) : trace.length = stepCount plan := by
  cases h with
  | planOnly u => rfl
  | planned as v nonempty =>
    unfold stepCount
    rw [if_neg (by simpa using nonempty), List.length_cons, List.length_append,
      length_fileSteps,
      List.length_map]
    rfl

/-- What planning comes to on an ordinary outside: a proper plan, or none. -/
theorem planned_cases {client : Option Client} (hclient : ∀ c ∈ client, c.Ordinary)
    (prompt : String) {o : Outside} (ho : o.Ordinary) :
    (∃ plan o', planned client prompt o = (.ok plan, o') ∧ Plan.Proper plan ∧
      o'.Ordinary) ∨
      ∃ f o', planned client prompt o = (.error f, o') ∧ f.isA .ordinary = true := by
  have hlog := (contained_log .info "Deep Thinking Planner engaged..." o ho).2
  obtain ⟨hends, ho'⟩ := contained_plan hclient prompt _ hlog
  unfold planned
  rcases hplan : Plan.generate client prompt
    (Outside.log .info "Deep Thinking Planner engaged..." o).2
    with ⟨r, o'⟩
  rw [hplan] at hends ho'
  cases r with
  | ok plan =>
    exact Or.inl ⟨plan, o', rfl, Plan.proper_of_generate (congrArg Prod.fst hplan), ho'⟩
  | error f => exact Or.inr ⟨f, o', rfl, hends⟩

/-- A run under a limit does the steps of the trace that the limit allows. If a step is
left behind them it ends in a state, and otherwise it fails for want of steps. -/
structure Follows (trace : List (BuildStep × BuildUpdate)) (limit : Nat)
    (w : BuildWalk) : Prop where
  steps : w.steps = trace.take limit
  stopped : w.result = .error stepLimitFailure ↔ limit ≤ trace.length
  finished : trace.length < limit → ∃ s, w.result = .ok s

/-- What a result that depends on the limit alone says about the limit. -/
theorem Follows.of_result {trace : List (BuildStep × BuildUpdate)} {limit : Nat}
    {w : BuildWalk} {s : BuildState} (hsteps : w.steps = trace.take limit)
    (hresult : w.result = if limit ≤ trace.length
      then .error stepLimitFailure else .ok s) :
    Follows trace limit w := by
  refine ⟨hsteps, ?_, ?_⟩
  · by_cases hlimit : limit ≤ trace.length
    · rw [hresult, if_pos hlimit]
      exact iff_of_true rfl hlimit
    · rw [hresult, if_neg hlimit]
      exact iff_of_false (fun h => nomatch h) hlimit
  · intro hlimit
    rw [if_neg (by omega)] at hresult
    exact ⟨s, hresult⟩

/-- A run without a plan follows the one step that looked for it. -/
theorem follows_of_no_plan {parts : BuildParts} {prompt : String} {o : Outside}
    {u : BuildUpdate} (h : planUpdate (planned parts.client prompt o).1 = .ok u)
    (hempty : u.plan = some []) (context : String) (limit : Nat) :
    ∃ w, (runPipeline none parts limit (.initial prompt context) o).1 = .ok w ∧
      Follows [(.plan, u)] limit w := by
  cases limit with
  | zero => exact ⟨_, rfl, .of_result (s := .initial prompt context) rfl rfl⟩
  | succ limit =>
    refine ⟨_, run_of_no_plan h hempty context limit,
      .of_result (s := (BuildState.initial prompt context).apply u) ?_ ?_⟩
    · exact (List.take_of_length_le (Nat.succ_le_succ (Nat.zero_le limit))).symm
    · by_cases hlimit : limit = 0
      · rw [if_pos hlimit, if_pos (by simp [hlimit])]
      · rw [if_neg hlimit, if_neg (by simp; omega)]

/-- A run with a plan follows the attempts at its files, if none of them
is interrupted. -/
theorem follows_of_plan {parts : BuildParts} {prompt : String} {o o' : Outside}
    {plan : List String} (h : planned parts.client prompt o = (.ok plan, o'))
    (hne : plan ≠ []) (hgenerator : ∀ c ∈ parts.generator.cloud.client, c.Ordinary)
    (ho' : o'.Ordinary) (context : String) :
    ∃ trace, Trace plan trace ∧ ∀ limit,
      ∃ w, (runPipeline none parts limit (.initial prompt context) o).1 = .ok w ∧
        Follows trace limit w := by
  have hordinary :
      ∀ a ∈ attempts parts.generator prompt context plan o', Answered a.synthesis :=
    answered_attempts hgenerator prompt context ho'
  have hpaths := map_path_attempts parts.generator prompt context plan o'
  -- from here on only the paths and the outcomes of the attempts count
  generalize has : attempts parts.generator prompt context plan o' =
    as at hordinary hpaths
  have hnonempty : as ≠ [] := by
    intro hnil
    rw [hnil] at hpaths
    exact hne hpaths.symm
  have htrace :=
    Trace.planned as (verifyUpdate (after as (planState prompt context plan))) hnonempty
  rw [hpaths] at htrace
  refine ⟨_, htrace, fun limit => ?_⟩
  cases limit with
  | zero => exact ⟨_, rfl, .of_result (s := .initial prompt context) rfl rfl⟩
  | succ limit =>
    have hstart : (planState prompt context plan).index = ((0 : Nat) : Int) := rfl
    obtain ⟨hsteps, hresult⟩ := replay_ordinary hordinary limit hstart
    rw [← has] at hsteps hresult
    let last := after as (planState prompt context plan)
    refine ⟨_, run_of_plan h hne context limit,
      .of_result (s := last.apply (verifyUpdate last)) ?_ ?_⟩
    · show (.plan, planningUpdate plan) ::
        (replay limit _ (planState prompt context plan)).steps = _
      rw [hsteps, has]
      rfl
    · show (replay limit _ (planState prompt context plan)).result = _
      rw [hresult, has, List.length_cons, List.length_append, length_fileSteps]
      by_cases hlimit : limit ≤ as.length + 1
      · rw [if_pos hlimit, if_pos (by simpa using hlimit)]
      · rw [if_neg hlimit, if_neg (by simpa using hlimit)]

/-- Builds finish. If no party answers with an interruption, planning comes to a plan or
to none, and the run follows the trace of the plan: it passes no failure on, and it fails
only for want of steps. The limit of the command line leaves a step behind every trace. -/
theorem steps_of_run {parts : BuildParts} (hplanner : ∀ c ∈ parts.client, c.Ordinary)
    (hgenerator : ∀ c ∈ parts.generator.cloud.client, c.Ordinary)
    (prompt context : String) {o : Outside} (ho : o.Ordinary) :
    ∃ plan trace, Trace plan trace ∧
      ((planned parts.client prompt o).1 = .ok plan ∨
        plan = [] ∧ ∃ f, (planned parts.client prompt o).1 = .error f) ∧
      plan.length ≤ Plan.maxFiles ∧
      trace.length = stepCount plan ∧ stepCount plan < CommandLine.stepLimit ∧
      ∀ limit, ∃ w, (runPipeline none parts limit (.initial prompt context) o).1 = .ok w ∧
        Follows trace limit w := by
  have hcount : ∀ plan : List String, plan.length ≤ Plan.maxFiles →
      stepCount plan < CommandLine.stepLimit := by
    intro plan hplan
    unfold Plan.maxFiles at hplan
    unfold stepCount CommandLine.stepLimit Plan.maxFiles
    split <;> omega
  rcases planned_cases hplanner prompt ho with ⟨plan, o', h, hproper, ho'⟩ |
    ⟨f, o', h, hf⟩
  · by_cases hne : plan = []
    · have hupdate : planUpdate (planned parts.client prompt o).1 =
          .ok (planningUpdate []) := by
        rw [h, hne]
        rfl
      have htrace := Trace.planOnly (planningUpdate [])
      exact ⟨[], _, htrace, Or.inl (by rw [h, hne]), Nat.zero_le _, htrace.length,
        hcount [] (Nat.zero_le _), follows_of_no_plan hupdate rfl context⟩
    · obtain ⟨trace, htrace, hfollows⟩ := follows_of_plan h hne hgenerator ho' context
      exact ⟨plan, trace, htrace, Or.inl (by rw [h]), hproper.length_le, htrace.length,
        hcount plan hproper.length_le, hfollows⟩
  · have hupdate :
        ∃ u, planUpdate (planned parts.client prompt o).1 = .ok u ∧ u.plan = some [] := by
      rw [h]
      unfold planUpdate
      simp only [hf, if_true]
      exact ⟨_, rfl, rfl⟩
    obtain ⟨u, hu, hempty⟩ := hupdate
    have htrace := Trace.planOnly u
    exact ⟨[], _, htrace, Or.inr ⟨rfl, f, by rw [h]⟩, Nat.zero_le _, htrace.length,
      hcount [] (Nat.zero_le _), follows_of_no_plan hu hempty context⟩

/-- Of two planned files the cloud fails for the first, and the run goes on
with the second. -/
theorem steps_of_direct_run :
    let down : Failure := ⟨.generation, "down", [], 0⟩
    let parts : BuildParts := ⟨some .direct, ⟨⟨some .direct, true⟩, {}⟩⟩
    let o : Outside := { Outside.silent down with
      client :=
        ⟨[.ok "[\"a.ts\", \"b.ts\"]", .error down, .ok "return 1;"], .error down⟩ }
    (∀ c ∈ parts.client, c.Ordinary) ∧ (∀ c ∈ parts.generator.cloud.client, c.Ordinary) ∧
      o.Ordinary ∧ ∃ trace, Trace ["a.ts", "b.ts"] trace ∧
        trace.map Prod.fst = [.plan, .synthesize, .synthesize, .verify] ∧ ∀ limit,
          ∃ w, (runPipeline none parts limit (.initial "a page" "") o).1 = .ok w ∧
            Follows trace limit w := by
  intro down parts o
  have hdirect : ∀ c ∈ some Client.direct, c.Ordinary := by
    intro c hc
    obtain rfl : Client.direct = c := Option.some.inj hc
    exact ordinary_direct
  have hsilent : (Outside.silent down).Ordinary := Outside.ordinary_silent rfl
  have ho : o.Ordinary := by
    refine ⟨⟨rfl, ?_⟩, hsilent.anthropic, hsilent.openai, hsilent.backends⟩
    exact List.forall_mem_cons.mpr ⟨trivial,
      List.forall_mem_cons.mpr ⟨rfl, List.forall_mem_singleton.mpr trivial⟩⟩
  obtain ⟨plan, trace, htrace, hplan, -, -, -, hfollows⟩ :=
    @steps_of_run parts hdirect hdirect "a page" "" o ho
  have hplanned : (planned parts.client "a page" o).1 = .ok ["a.ts", "b.ts"] := by
    decide +kernel
  rw [hplanned] at hplan
  obtain hplan | ⟨-, f, hf⟩ := hplan
  · obtain rfl := Except.ok.inj hplan
    exact ⟨hdirect, hdirect, ho, trace, htrace,
      htrace.map_fst (List.cons_ne_nil _ _), hfollows⟩
  · cases hf

/-- A run of one step under a limit of one step fails, although it never
needed another. -/
theorem run_at_limit :
    let parts : BuildParts := ⟨none, ⟨⟨none, true⟩, {}⟩⟩
    let o := Outside.silent ⟨.connection, "refused", [], 0⟩
    (runPipeline none parts 2 (.initial "" "") o).1.map (·.steps.length) = .ok 1 ∧
      (runPipeline none parts 1 (.initial "" "") o).1.map (·.steps.length) = .ok 1 ∧
      ∃ w, (runPipeline none parts 1 (.initial "" "") o).1 = .ok w ∧
        w.result = .error stepLimitFailure ∧ ¬ 1 < w.steps.length :=
  ⟨rfl, rfl, _, rfl, rfl, by decide⟩

end CodeWeave.Build
