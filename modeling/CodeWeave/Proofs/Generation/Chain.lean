import CodeWeave.Proofs.Remote.Ordinary
import Mathlib.Data.List.Nodup

/-!
# The completion chain

A chain asks its primary choice, and after a failure the fallback choice, if it may. The
choice of the first provider leads there, and every other choice leads to the second one.
So does the open choice, which names no provider. As the primary choice it is resolved,
but as the fallback it stays as it is:

> `configured_spec`: which options make a chain, and which chain they make.

> `call_apply`: a call sends at most one request, and reads the next answer of the
provider that it leads to.

> `exists_completion`, by induction on the choices: a completion is the text of the first
> choice that answers, and fails with the last failure if none does.

> `complete_asks_once_iff`: each provider is asked at most once, unless an open fallback
> choice stands behind the second provider.
-/

namespace CodeWeave

/-! ## Choices and providers -/

/-- The provider that a choice leads to. -/
def ProviderChoice.provider : ProviderChoice → Provider
  | anthropic => .anthropic
  | _ => .openai

theorem ProviderChoice.ofName?_eq_some_iff {name : String} {p : ProviderChoice} :
    ofName? name = some p ↔ p.name = name := by
  constructor
  · intro h
    have hname := List.find?_some h
    exact eq_of_beq hname
  · intro h
    subst h
    cases p <;> decide

/-- The fallback choice is the open one, and may be used. -/
def ClientOptions.FallsBackOpenly (options : ClientOptions) : Prop :=
  options.allowFallback = true ∧ options.fallback = some "auto"

/-- The event is a call of the provider. -/
def Event.calls (p : Provider) : Event → Bool
  | .called q _ => q = p
  | _ => false

namespace CompletionChain

/-! ## The options of a chain -/

/-- The given key, or the one that is found in the environment. -/
def keyOf (given found : Option String) : Option String :=
  (nonEmpty? given).or (nonEmpty? found)

def announce (p : Provider) : Option String → Run Unit
  | some key => Outside.emit (.connected p key)
  | none => pure ()

/-- The fallback choice, if the options name one. -/
def chooseFallback (name : Option String) : Except Failure (Option ProviderChoice) :=
  match nonEmpty? name with
  | none => .ok none
  | some name => match ProviderChoice.ofName? name with
    | some p => .ok (some p)
    | none => .error (ClientFault.unsupported name).failure

/-- The chain that the options make with the keys, if they allow one. -/
def configured (options : ClientOptions) (anthropicKey openaiKey : Option String) :
    Except Failure CompletionChain :=
  if anthropicKey.isNone && openaiKey.isNone then .error ClientFault.noKey.failure
  else match ProviderChoice.ofName? options.provider with
    | none => .error (ClientFault.unsupported options.provider).failure
    | some provider => match chooseFallback options.fallback with
      | .error f => .error f
      | .ok fallback =>
        if provider = .anthropic && anthropicKey.isNone
          then .error ClientFault.noAnthropicKey.failure
        else if provider = .openai && openaiKey.isNone
          then .error ClientFault.noOpenAIKey.failure
        else .ok ⟨options.model, options.maxTokens, provider, fallback,
          options.allowFallback,
          anthropicKey.isSome, openaiKey.isSome⟩

/-- The keys are announced first, and what is checked then sends nothing. -/
theorem connect_eq (environment : Environment) (options : ClientOptions) :
    connect environment options = (do
      announce .anthropic (keyOf options.anthropicKey (environment "ANTHROPIC_API_KEY"))
      announce .openai (keyOf options.openaiKey (environment "OPENAI_API_KEY"))
      ofExcept
        (configured options (keyOf options.anthropicKey (environment "ANTHROPIC_API_KEY"))
        (keyOf options.openaiKey (environment "OPENAI_API_KEY")))) := by
  unfold connect configured chooseFallback choose keyOf
  generalize (nonEmpty? options.anthropicKey).or _ = anthropicKey
  generalize (nonEmpty? options.openaiKey).or _ = openaiKey
  generalize ProviderChoice.ofName? options.provider = provider
  generalize nonEmpty? options.fallback = fallback
  cases provider with
  | none => cases anthropicKey <;> cases openaiKey <;> rfl
  | some p =>
    cases fallback with
    | none => cases anthropicKey <;> cases openaiKey <;> cases p <;> rfl
    | some name =>
      dsimp only
      generalize ProviderChoice.ofName? name = fallback
      cases fallback with
      | none => cases anthropicKey <;> cases openaiKey <;> rfl
      | some q => cases anthropicKey <;> cases openaiKey <;> cases p <;> rfl

theorem announce_apply (p : Provider) (key : Option String) (o : Outside) :
    ∃ o', announce p key o = (.ok (), o') := by
  cases key <;> exact ⟨_, rfl⟩

/-- Whether there is a chain depends on the options and the keys only. -/
theorem configured_of_connect {environment : Environment} {options : ClientOptions}
    {o o' : Outside} {c : CompletionChain}
    (h : connect environment options o = (.ok c, o')) :
    configured options (keyOf options.anthropicKey (environment "ANTHROPIC_API_KEY"))
      (keyOf options.openaiKey (environment "OPENAI_API_KEY")) = .ok c := by
  obtain ⟨o₁, h₁⟩ := announce_apply .anthropic
    (keyOf options.anthropicKey (environment "ANTHROPIC_API_KEY")) o
  obtain ⟨o₂, h₂⟩ :=
    announce_apply .openai (keyOf options.openaiKey (environment "OPENAI_API_KEY")) o₁
  rw [connect_eq, Run.bind_ok h₁, Run.bind_ok h₂, Run.ofExcept_apply] at h
  exact congrArg Prod.fst h

theorem eq_of_nonEmpty {given : Option String} {text : String}
    (h : nonEmpty? given = some text) :
    given = some text := by
  cases given with
  | none => exact nomatch h
  | some s =>
    unfold nonEmpty? at h
    dsimp only at h
    split at h
    · exact nomatch h
    · exact h

/-- The fallback is left to be chosen only if it is named so. -/
theorem chooseFallback_eq_auto_iff {name : Option String}
    {fallback : Option ProviderChoice} (h : chooseFallback name = .ok fallback) :
    fallback = some .auto ↔ name = some "auto" := by
  unfold chooseFallback at h
  cases hname : nonEmpty? name with
  | none =>
    rw [hname] at h
    obtain rfl : none = fallback := Except.ok.inj h
    refine iff_of_false (fun h => nomatch h) fun hauto => ?_
    rw [hauto] at hname
    exact absurd hname (by decide)
  | some text =>
    rw [eq_of_nonEmpty hname, Option.some.injEq]
    simp only [hname] at h
    cases hchoice : ProviderChoice.ofName? text with
    | none =>
      rw [hchoice] at h
      exact nomatch h
    | some p =>
      rw [hchoice] at h
      obtain rfl : some p = fallback := Except.ok.inj h
      rw [← ProviderChoice.ofName?_eq_some_iff.mp hchoice]
      cases p <;> decide

/-- The key of a provider is there. -/
def hasKey (c : CompletionChain) : Provider → Bool
  | .anthropic => c.hasAnthropic
  | .openai => c.hasOpenAI

/-- What the options promise of their chain: the primary choice has a key, and the
fallback choice is open if they say so. -/
structure Configured (options : ClientOptions) (c : CompletionChain) : Prop where
  hasKey : c.hasKey c.primary.provider = true
  fallsBackOpenly : options.FallsBackOpenly ↔ c.allowFallback = true ∧
    c.fallback = some .auto

/-- A client that can be made has its options, and a primary provider with a key. -/
theorem configured_spec {options : ClientOptions} {anthropicKey openaiKey : Option String}
    {c : CompletionChain} (h : configured options anthropicKey openaiKey = .ok c) :
    Configured options c := by
  unfold configured at h
  split at h
  · exact nomatch h
  next hkeys =>
    split at h
    · exact nomatch h
    next provider _ =>
      split at h
      · exact nomatch h
      next fallback hfallback =>
        split at h
        · exact nomatch h
        next hanthropic =>
          split at h
          · exact nomatch h
          next hopenai =>
            obtain rfl := Except.ok.inj h
            refine ⟨?_,
              and_congr_right fun _ => (chooseFallback_eq_auto_iff hfallback).symm⟩
            -- an open primary choice is resolved to a provider with a key
            cases provider <;> cases anthropicKey <;> cases openaiKey <;>
              first
              | rfl
              | exact absurd rfl hkeys
              | exact absurd rfl hanthropic
              | exact absurd rfl hopenai

/-! ## The choices of a chain -/

/-- The primary provider is always settled. -/
theorem primary_ne_auto (c : CompletionChain) : c.primary ≠ .auto := by
  unfold primary
  by_cases hauto : c.provider = .auto
  · rw [if_pos hauto]
    split <;> decide
  · rw [if_neg hauto]
    exact hauto

/-- The providers are the primary one, and perhaps a fallback; the fallback is left open
exactly in the unresolved case. -/
theorem providers_cases (c : CompletionChain) :
    c.providers = [c.primary] ∧ ¬ (c.allowFallback = true ∧ c.fallback = some .auto) ∨
      ∃ p, c.providers = [c.primary, p] ∧ p ≠ c.primary ∧
        (c.allowFallback = true ∧ c.fallback = some .auto ↔ p = .auto) := by
  unfold providers
  cases hfallback : c.fallback with
  | none => exact Or.inl ⟨rfl, fun h => nomatch h.2⟩
  | some p =>
    dsimp only
    by_cases hused : (c.allowFallback && p != c.primary) = true
    · rw [if_pos hused]
      obtain ⟨hallow, hne⟩ := Bool.and_eq_true_iff.mp hused
      refine Or.inr ⟨p, rfl, bne_iff_ne.mp hne, ?_⟩
      rw [Option.some.injEq]
      exact and_iff_right hallow
    · rw [if_neg hused]
      refine Or.inl ⟨rfl, fun h => hused ?_⟩
      obtain rfl := Option.some.inj h.2
      rw [h.1]
      exact bne_iff_ne.mpr (primary_ne_auto c).symm

/-! ## One call -/

/-- The request for a completion to a provider. -/
def requestTo (c : CompletionChain) (prompt : String) : Provider → Event
  | .anthropic => .called .anthropic (c.callFor .anthropic prompt)
  | .openai => .called .openai (c.callFor .openai prompt)

/-- The outside after a provider got the request and answered it. -/
def afterRequest (c : CompletionChain) (prompt : String) (o : Outside) :
    Provider → Outside
  | .anthropic => o.afterAnthropic (c.callFor .anthropic prompt)
  | .openai => o.afterOpenAI (c.callFor .openai prompt)

/-- The text in a provider's answer after `n` others. -/
def textOf (o : Outside) (n : Nat) : Provider → Except Failure String
  | .anthropic => (o.anthropic.answer n).map joinBlocks
  | .openai => o.openai.answer n >>= firstChoice

/-- The fault of asking a provider without a key. -/
def unavailable : Provider → CompletionFault
  | .anthropic => .anthropicUnavailable
  | .openai => .openaiUnavailable

/-- What is read when a provider is asked after `n` times. -/
def reading (c : CompletionChain) (o : Outside) (n : Nat) (p : Provider) :
    Except Failure String :=
  if c.hasKey p then textOf o n p else .error (unavailable p).failure

/-- What is sent when a provider is asked: one request, if it has a key. -/
def requests (c : CompletionChain) (prompt : String) (p : Provider) : List Event :=
  if c.hasKey p then [c.requestTo prompt p] else []

/-- A call of the first provider reads its answer, if there is a key for it. -/
theorem call_anthropic (c : CompletionChain) (prompt : String) (o : Outside) :
    c.call .anthropic prompt o = (c.reading o 0 .anthropic,
      if c.hasKey .anthropic then c.afterRequest prompt o .anthropic else o) := by
  unfold call reading
  show _ = (if c.hasAnthropic then _ else _, if c.hasAnthropic then _ else _)
  cases c.hasAnthropic with
  | false => rfl
  | true =>
    show (Outside.callAnthropic _ >>= _) o = _
    rw [Run.bind_apply, Outside.callAnthropic_apply]
    unfold textOf
    cases o.anthropic.answer 0 <;> rfl

/-- Every other choice calls the second provider, also the one that was left open. -/
theorem call_of_ne_anthropic (c : CompletionChain) {p : ProviderChoice}
    (hp : p ≠ .anthropic) (prompt : String) (o : Outside) :
    c.call p prompt o = (c.reading o 0 .openai,
      if c.hasKey .openai then c.afterRequest prompt o .openai else o) := by
  unfold call reading
  rw [if_neg hp]
  show _ = (if c.hasOpenAI then _ else _, if c.hasOpenAI then _ else _)
  cases c.hasOpenAI with
  | false => rfl
  | true =>
    show (Outside.callOpenAI _ >>= _) o = _
    rw [Run.bind_apply, Outside.callOpenAI_apply]
    unfold textOf
    cases o.openai.answer 0 with
    | error f => rfl
    | ok choices => exact Run.ofExcept_apply (firstChoice choices) _

/-- Whichever provider is called, its next answer is read. -/
theorem call_eq (c : CompletionChain) (p : ProviderChoice) (prompt : String)
    (o : Outside) :
    c.call p prompt o = (c.reading o 0 p.provider,
      if c.hasKey p.provider then c.afterRequest prompt o p.provider else o) := by
  cases p with
  | anthropic => exact c.call_anthropic prompt o
  | openai => exact c.call_of_ne_anthropic (by decide) prompt o
  | auto => exact c.call_of_ne_anthropic (by decide) prompt o

/-- A call takes one answer of its own provider. -/
theorem textOf_afterRequest (c : CompletionChain) (prompt : String) (o : Outside)
    (n : Nat) (p q : Provider) :
    textOf (c.afterRequest prompt o p) n q =
      textOf o ((if p = q then 1 else 0) + n) q := by
  cases p <;> cases q <;> simp [afterRequest, textOf, Outside.afterAnthropic,
    Outside.afterOpenAI, Channel.answer_skip]

/-- A call reads the next answer of its provider, and leaves the ones behind it. -/
theorem call_apply (c : CompletionChain) (p : ProviderChoice) (prompt : String)
    (o : Outside) :
    ∃ o', c.call p prompt o = (c.reading o 0 p.provider, o') ∧
      o.Sent o' (c.requests prompt p.provider) ∧
      ∀ n q, c.reading o' n q =
        c.reading o ((if p.provider = q then 1 else 0) + n) q := by
  refine ⟨_, c.call_eq p prompt o, ?_⟩
  unfold requests reading
  cases hkey : c.hasKey p.provider with
  | false =>
    refine ⟨⟨[], (List.append_nil _).symm, rfl⟩, fun n q => ?_⟩
    -- what is read of a provider without a key is the same every time
    by_cases hq : p.provider = q
    · rw [← hq, hkey]
      rfl
    · rw [if_neg hq, Nat.zero_add]
      rfl
  | true =>
    refine ⟨?_, fun n q => ?_⟩
    · cases p.provider <;> exact ⟨_, rfl, rfl⟩
    · exact congrArg (ite (c.hasKey q = true) · _)
        (c.textOf_afterRequest prompt o n p.provider q)

/-! ## A completion -/

/-- What is read by the choices, tried one after the other. -/
def readings (c : CompletionChain) (o : Outside) (ps : List ProviderChoice) :
    List (Except Failure String) :=
  ps.mapIdx fun i p => c.reading o ((ps.take i).countP (·.provider = p.provider))
    p.provider

/-- The readings of the choices behind the first are those after its call. -/
theorem readings_cons {c : CompletionChain} {o o' : Outside} {p : ProviderChoice}
    (h : ∀ n q, c.reading o' n q = c.reading o ((if p.provider = q then 1 else 0) + n) q)
    (ps : List ProviderChoice) :
    c.readings o (p :: ps) = c.reading o 0 p.provider :: c.readings o' ps := by
  unfold readings
  rw [List.mapIdx_cons]
  refine congrArg _ (List.mapIdx_eq_mapIdx_iff.mpr fun i hi => ?_)
  rw [h, List.take_succ_cons, List.countP_cons, Nat.add_comm]
  simp only [decide_eq_true_eq]

/-- How a completion ends: with the text of the first choice that answers, behind which no
other is tried, or with the last failure if all fail. -/
inductive Completes (c : CompletionChain) (prompt : String) (o : Outside)
    (ps : List ProviderChoice) :
    List Event → Except Failure String → Prop
  | answered {fs : List Failure} {text : String} {rest : List (Except Failure String)}
      (h : c.readings o ps = fs.map .error ++ .ok text :: rest) :
      Completes c prompt o ps ((ps.take (fs.length + 1)).flatMap fun p =>
        c.requests prompt p.provider) (.ok text)
  | exhausted {fs : List Failure} {f : Failure}
      (h : c.readings o ps = (fs ++ [f]).map .error) :
      Completes c prompt o ps (ps.flatMap fun p => c.requests prompt p.provider)
        (.error (CompletionFault.exhausted f.message).failure)

/-- Logging changes no reading. -/
theorem reading_log (c : CompletionChain) (level : LogLevel) (message : String)
    (o : Outside) :
    c.reading (Outside.log level message o).2 = c.reading o := by
  funext n p
  unfold reading
  cases p <;> rfl

namespace Completes

variable {c : CompletionChain} {prompt : String} {o o₁ : Outside} {p : ProviderChoice}
  {ps : List ProviderChoice}
  {es : List Event} {r : Except Failure String} {f : Failure}

/-- A completion goes on behind a choice that failed. -/
theorem cons (hread : c.readings o (p :: ps) = .error f :: c.readings o₁ ps)
    (h : Completes c prompt o₁ ps es r) :
    Completes c prompt o (p :: ps) (c.requests prompt p.provider ++ es) r := by
  cases h with
  | @answered fs text rest h =>
    have hfails : c.readings o (p :: ps) = (f :: fs).map .error ++ .ok text :: rest := by
      rw [hread, h]
      rfl
    exact .answered hfails
  | @exhausted fs g h =>
    have hfails : c.readings o (p :: ps) = (f :: fs ++ [g]).map .error := by
      rw [hread, h]
      rfl
    exact .exhausted hfails

end Completes

/-- Trying choices always ends as a completion does. -/
theorem exists_completion (c : CompletionChain) (prompt : String)
    {ps : List ProviderChoice} (hps : ps ≠ []) (o : Outside) (last : String)
    (h : ∀ r ∈ c.readings o ps, Answered r) :
    ∃ r o' es, c.tryAll prompt last ps o = (r, o') ∧ o.Sent o' es ∧
      Completes c prompt o ps es r := by
  induction ps generalizing o last with
  | nil => exact absurd rfl hps
  | cons p ps ih =>
    obtain ⟨o₁, hcall, hsent, hnext⟩ := c.call_apply p prompt o
    have hread := readings_cons hnext ps
    unfold tryAll
    rw [Run.outcome_bind, hcall]
    cases hreading : c.reading o 0 p.provider with
    | ok text =>
      rw [hreading] at hread
      have hfirst : c.readings o (p :: ps) = [].map .error ++ .ok text ::
          c.readings o₁ ps := hread
      refine ⟨_, _, c.requests prompt p.provider ++ [], rfl, ?_, .answered hfirst⟩
      rw [List.append_nil]
      exact hsent
    | error f =>
      rw [hreading] at hread
      rw [hread] at h
      have hordinary : f.isA .ordinary = true := h _ List.mem_cons_self
      simp only [hordinary, if_true]
      rw [Outside.log_bind]
      generalize hlog : Outside.log .warning _ o₁ = logged
      have hlogged : o.Sent logged.2 (c.requests prompt p.provider) :=
        hlog ▸ hsent.trans_log .warning _
      have hsame : c.readings logged.2 ps = c.readings o₁ ps := by
        unfold readings
        rw [← hlog, reading_log]
      by_cases hlast : ps = []
      · -- the last failure ends the completion
        subst hlast
        have hall : c.readings o [p] = ([] ++ [f]).map .error := hread
        refine ⟨_, _, c.requests prompt p.provider ++ [], rfl, ?_, .exhausted hall⟩
        rw [List.append_nil]
        exact hlogged
      · obtain ⟨r, o', es, hrun, hrest, hcompletes⟩ := ih hlast logged.2 f.message
          (fun r hr => h r (List.mem_cons_of_mem _ (hsame ▸ hr)))
        exact ⟨r, o', _, hrun, hlogged.trans hrest, hcompletes.cons (hsame ▸ hread)⟩

/-! ## Ordinary answers -/

theorem answered_textOf {o : Outside} (hanthropic : o.anthropic.All Answered)
    (hopenai : o.openai.All Answered) (n : Nat) (p : Provider) :
    Answered (textOf o n p) := by
  cases p with
  | anthropic =>
    have hanswer := hanthropic.answer n
    show Answered ((o.anthropic.answer n).map joinBlocks)
    cases hread : o.anthropic.answer n with
    | error f =>
      rw [hread] at hanswer
      exact hanswer
    | ok blocks => exact trivial
  | openai =>
    refine answered_bind (hopenai.answer n) fun choices => ?_
    cases choices with
    | nil => exact rfl
    | cons choice rest => exact trivial

/-- If nobody answers with an interruption no reading is one. -/
theorem answered_readings (c : CompletionChain) {o : Outside}
    (hanthropic : o.anthropic.All Answered) (hopenai : o.openai.All Answered)
    (ps : List ProviderChoice) : ∀ r ∈ c.readings o ps, Answered r := by
  intro r hr
  obtain ⟨i, hi, rfl⟩ := List.mem_mapIdx.mp hr
  unfold reading
  split
  · exact answered_textOf hanthropic hopenai _ _
  · generalize ps[i].provider = p
    cases p <;> exact rfl

/-- What completing a prompt comes to, with all that was sent. -/
theorem complete_apply (c : CompletionChain) (prompt : String) {o : Outside}
    (hanthropic : o.anthropic.All Answered) (hopenai : o.openai.All Answered) :
    ∃ r o' es, c.complete prompt o = (r, o') ∧ o.Sent o' es ∧
      Completes c prompt o c.providers es r := by
  have hne : c.providers ≠ [] := by
    cases c.providers_cases with
    | inl h => rw [h.1]; exact List.cons_ne_nil _ _
    | inr h =>
      obtain ⟨p, hp, -⟩ := h
      rw [hp]
      exact List.cons_ne_nil _ _
  exact c.exists_completion prompt hne o "" (c.answered_readings hanthropic hopenai _)

/-! ## How often a provider is asked -/

/-- A provider with a key is called once for each of its turns. -/
theorem countP_requests (c : CompletionChain) (prompt : String) (p q : Provider) :
    (c.requests prompt q).countP (Event.calls p) = if c.hasKey q = true ∧
      q = p then 1 else 0 := by
  unfold requests
  by_cases hkey : c.hasKey q = true
  · rw [if_pos hkey]
    cases p <;> cases q <;> simp [requestTo, Event.calls, hkey]
  · rw [if_neg hkey, if_neg fun h => hkey h.1]
    rfl

/-- A provider is asked no more often than choices lead to it. -/
theorem countP_flatMap_requests_le (c : CompletionChain) (prompt : String) (p : Provider)
    (ps : List ProviderChoice) :
    (ps.flatMap fun q => c.requests prompt q.provider).countP (Event.calls p) ≤
      ps.countP (·.provider = p) := by
  induction ps with
  | nil => exact Nat.le_refl 0
  | cons q ps ih =>
    rw [List.flatMap_cons, List.countP_append, List.countP_cons, countP_requests]
    by_cases hq : q.provider = p
    · simp only [hq, and_true, decide_true, if_true]
      split <;> omega
    · simp only [hq, and_false, if_false, decide_false, Bool.false_eq_true]
      omega

/-- No provider is called more often than it has turns. -/
theorem Completes.countP_le {c : CompletionChain} {prompt : String} {o : Outside}
    {ps : List ProviderChoice} {es : List Event} {r : Except Failure String}
    (h : Completes c prompt o ps es r) (p : Provider) :
    es.countP (Event.calls p) ≤ ps.countP (·.provider = p) := by
  cases h with
  | answered =>
    exact Nat.le_trans (c.countP_flatMap_requests_le prompt p _)
      ((List.take_sublist _ _).countP_le)
  | exhausted => exact c.countP_flatMap_requests_le prompt p ps

/-- With an open fallback behind the second provider, two choices lead there. -/
theorem providers_of_openly {c : CompletionChain} (hprimary : c.primary = .openai)
    (hopenly : c.allowFallback = true ∧ c.fallback = some .auto) :
    c.providers = [.openai, .auto] := by
  cases c.providers_cases with
  | inl h => exact absurd hopenly h.2
  | inr h =>
    obtain ⟨p, hp, -, hauto⟩ := h
    rw [hp, hprimary, hauto.mp hopenly]

/-- Otherwise no two choices lead to the same provider. -/
theorem countP_providers_le {c : CompletionChain}
    (h : ¬ (c.primary = .openai ∧ c.allowFallback = true ∧ c.fallback = some .auto))
    (p : Provider) :
    c.providers.countP (·.provider = p) ≤ 1 := by
  cases c.providers_cases with
  | inl hsingle =>
    rw [hsingle.1]
    exact List.countP_le_length
  | inr hpair =>
    obtain ⟨q, hq, hne, hauto⟩ := hpair
    rw [hauto] at h
    rw [hq]
    have hprimary := c.primary_ne_auto
    revert h hne hprimary
    generalize c.primary = primary
    cases primary <;> cases q <;> cases p <;> decide

/-- What the chain lists: the primary choice first, no choice twice, and open choices only
if they are given. -/
theorem providers_spec (c : CompletionChain) :
    c.providers.head? = some c.primary ∧ c.providers.Nodup ∧
      (.auto ∉ c.providers ↔ ¬ (c.allowFallback = true ∧ c.fallback = some .auto)) := by
  have hprimary := c.primary_ne_auto
  cases c.providers_cases with
  | inl h =>
    rw [h.1]
    exact ⟨rfl, List.nodup_singleton _, iff_of_true
      (fun hmem => hprimary (List.mem_singleton.mp hmem).symm) h.2⟩
  | inr h =>
    obtain ⟨p, hp, hne, hauto⟩ := h
    rw [hp, hauto]
    refine ⟨rfl, by simpa using hne.symm, not_congr ?_⟩
    constructor
    · intro hmem
      cases List.mem_cons.mp hmem with
      | inl h => exact absurd h.symm hprimary
      | inr h => exact (List.mem_singleton.mp h).symm
    · intro hp
      rw [hp]
      exact List.mem_cons_of_mem _ List.mem_cons_self

/-- Where every request fails, a completion asks through all choices. -/
theorem completes_silent {c : CompletionChain} {prompt : String} {f : Failure}
    {ps : List ProviderChoice} {es : List Event} {r : Except Failure String}
    (h : Completes c prompt (Outside.silent f) ps es r) :
    es = ps.flatMap fun p => c.requests prompt p.provider := by
  cases h with
  | exhausted => rfl
  | @answered fs text rest h =>
    have hmem : .ok text ∈ c.readings (Outside.silent f) ps := by
      rw [h]
      exact List.mem_append_right _ List.mem_cons_self
    obtain ⟨i, hi, hread⟩ := List.mem_mapIdx.mp hmem
    unfold reading at hread
    split at hread
    · generalize ps[i].provider = p at hread
      cases p <;> exact nomatch hread
    · exact nomatch hread

/-! ## The main result -/

/-- Whatever the providers answer, no completion asks one of them twice. -/
def AsksOnce (c : CompletionChain) : Prop :=
  ∀ (prompt : String) (o : Outside) (es : List Event), o.anthropic.All Answered →
    o.openai.All Answered →
    o.Sent (c.complete prompt o).2 es → ∀ p, es.countP (Event.calls p) ≤ 1

/-- A chain that can be made lists its primary choice first, which has a key. Its
choices are distinct providers exactly if no open fallback choice may be used. For every
prompt, and whatever the providers answer, a completion asks through the choices in
order up to the first that answers, and gives its text or fails with the last failure.
No provider is asked more than once exactly if no open fallback choice stands behind the
second provider. -/
theorem complete_asks_once_iff {environment : Environment} {options : ClientOptions}
    {o₀ o₁ : Outside} {c : CompletionChain}
    (h : connect environment options o₀ = (.ok c, o₁)) :
    (c.providers.head? = some c.primary ∧ c.primary ≠ .auto ∧
      c.hasKey c.primary.provider = true) ∧
      (c.providers.Nodup ∧ .auto ∉ c.providers ↔ ¬ options.FallsBackOpenly) ∧
      (∀ (prompt : String) (o : Outside), o.anthropic.All Answered →
        o.openai.All Answered →
        ∃ r o' es, c.complete prompt o = (r, o') ∧ o.Sent o' es ∧
          Completes c prompt o c.providers es r) ∧
      (c.AsksOnce ↔ ¬ (c.primary = .openai ∧ options.FallsBackOpenly)) := by
  obtain ⟨hkey, hopenly⟩ := configured_spec (configured_of_connect h)
  obtain ⟨hhead, hnodup, hauto⟩ := c.providers_spec
  refine ⟨⟨hhead, c.primary_ne_auto, hkey⟩, ?_,
    fun prompt o => c.complete_apply prompt, ?_⟩
  · rw [hopenly, ← hauto]
    exact and_iff_right hnodup
  rw [hopenly]
  constructor
  · intro honce hopen
    -- with failures only, the second provider is asked through both choices
    let f : Failure := ⟨.runtime, "", [], 0⟩
    have hordinary : (Outside.silent f).Ordinary := Outside.ordinary_silent rfl
    obtain ⟨r, o', es, hrun, hsent, hcompletes⟩ :=
      c.complete_apply "" hordinary.anthropic hordinary.openai
    have hcount := honce "" (Outside.silent f) es hordinary.anthropic hordinary.openai
      (hrun ▸ hsent) .openai
    rw [hopen.1] at hkey
    rw [completes_silent hcompletes, providers_of_openly hopen.1 hopen.2,
      List.flatMap_cons, List.flatMap_singleton, List.countP_append, countP_requests,
      countP_requests, if_pos ⟨hkey, rfl⟩, if_pos ⟨hkey, rfl⟩] at hcount
    omega
  · intro hopen prompt o es hanthropic hopenai hsent p
    obtain ⟨r, o', fs, hrun, hsent', hcompletes⟩ :=
      c.complete_apply prompt hanthropic hopenai
    rw [hrun] at hsent
    rw [hsent.unique hsent']
    exact Nat.le_trans (hcompletes.countP_le p) (countP_providers_le hopen p)

/-- The first provider is overloaded, and the text comes from the second one. -/
theorem complete_asks_once_fallback :
    let options : ClientOptions :=
      { anthropicKey := some "a", openaiKey := some "o", fallback := some "openai",
        allowFallback := true }
    let f : Failure := ⟨.runtime, "overloaded", [], 0⟩
    let o : Outside :=
      { Outside.silent f with openai := ⟨[.ok [some "text", none]], .error f⟩ }
    let c : CompletionChain :=
      ⟨options.model, 8192, .auto, some .openai, true, true, true⟩
    (∃ o₁, connect (fun _ => none) options o = (.ok c, o₁)) ∧ c.AsksOnce ∧
      ∃ o' es, c.complete "prompt" o = (.ok "text", o') ∧ o.Sent o' es ∧
        Completes c "prompt" o [.anthropic, .openai] es (.ok "text") := by
  intro options f o c
  obtain ⟨o₁, hconnect⟩ : ∃ o₁, connect (fun _ => none) options o = (.ok c, o₁) :=
    ⟨_, rfl⟩
  obtain ⟨-, -, hruns, honce⟩ := complete_asks_once_iff hconnect
  have hanthropic : o.anthropic.All Answered := ⟨rfl, fun _ ha => nomatch ha⟩
  have hopenai : o.openai.All Answered := by
    refine ⟨rfl, fun a ha => ?_⟩
    rw [List.mem_singleton.mp ha]
    trivial
  obtain ⟨r, o', es, hrun, hsent, hcompletes⟩ := hruns "prompt" o hanthropic hopenai
  have htext : (c.complete "prompt" o).1 = .ok "text" := rfl
  rw [hrun] at htext
  obtain rfl : r = .ok "text" := htext
  exact ⟨⟨o₁, hconnect⟩, honce.mpr (fun h => absurd h.1 (by decide)), o', es, hrun,
    hsent, hcompletes⟩

/-- With a key for the second provider only and an open fallback, one completion asks that
provider twice. -/
theorem open_fallback_asks_twice :
    let options : ClientOptions :=
      { openaiKey := some "o", fallback := some "auto", allowFallback := true }
    let o := Outside.silent ⟨.runtime, "down", [], 0⟩
    ∃ c o₁, connect (fun _ => none) options o = (.ok c, o₁) ∧ c.providers =
      [.openai, .auto] ∧
      ∃ es, o₁.Sent (c.complete "prompt" o₁).2 es ∧ es.countP (Event.calls .openai) = 2 :=
  ⟨⟨_, _, .auto, some .auto, true, false, true⟩, _, rfl, rfl, _, ⟨_, rfl, rfl⟩, rfl⟩

end CompletionChain

end CodeWeave
