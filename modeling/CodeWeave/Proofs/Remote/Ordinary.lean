import CodeWeave.Generation.Candidate
import CodeWeave.Plan
import CodeWeave.Proofs.Remote.Run

/-!
# Actions without interruptions

The handlers of the program take ordinary failures and pass interruptions on. If no party
answers with an interruption, the outside is `Ordinary`, and every action of planning and
generating keeps it so and fails, if at all, in the ordinary way:

> `Ensures`: what an action promises on an ordinary outside, with `Ensures.bind` to follow
> a chain of actions.

> `contained_plan`, `contained_cloud`, `contained_local`: planning and both candidates
> keep to it, for every client that does.

> `ordinary_direct`, `CompletionChain.ordinary_client`: both clients of the program do.
-/

namespace CodeWeave

/-! ## Ordinary outsides -/

/-- A result has the property, a failure is no interruption. -/
def Ends {α : Type} (q : α → Prop) : Except Failure α → Prop
  | .ok a => q a
  | .error f => f.isA .ordinary = true

/-- What a party answers is no interruption. -/
def Answered {α : Type} : Except Failure α → Prop := Ends fun _ => True

/-- What becomes of a request is no interruption. -/
def HttpOutcome.Ordinary : HttpOutcome → Prop
  | .failed f => f.isA .ordinary = true
  | .answered _ body => Answered body

/-- Every answer of a party has the property, also the one after its list. -/
def Channel.All {α : Type} (p : α → Prop) (c : Channel α) : Prop :=
  p c.silence ∧ ∀ a ∈ c.pending, p a

/-- No party of planning and generating answers with an interruption. -/
structure Outside.Ordinary (o : Outside) : Prop where
  client : o.client.All Answered
  anthropic : o.anthropic.All Answered
  openai : o.openai.All Answered
  backends : o.backends.All HttpOutcome.Ordinary

/-- An outside that gives the same ordinary failure to everything is ordinary. -/
theorem Outside.ordinary_silent {f : Failure} (h : f.isA .ordinary = true) :
    (Outside.silent f).Ordinary :=
  ⟨⟨h, fun _ ha => nomatch ha⟩, ⟨h, fun _ ha => nomatch ha⟩, ⟨h, fun _ ha => nomatch ha⟩,
    ⟨h, fun _ ha => nomatch ha⟩⟩

/-- The next answer has the property, and the rest of the channel keeps it. -/
theorem Channel.All.next {α : Type} {p : α → Prop} {c : Channel α} (h : c.All p) :
    p c.next.1 ∧ c.next.2.All p := by
  obtain ⟨hsilence, hpending⟩ := h
  unfold Channel.next
  split
  next heq => exact ⟨hsilence, hsilence, hpending⟩
  next a rest heq =>
    rw [heq] at hpending
    exact ⟨hpending a List.mem_cons_self, hsilence,
      fun b hb => hpending b (List.mem_cons_of_mem a hb)⟩

theorem Channel.All.answer {α : Type} {p : α → Prop} {c : Channel α} (h : c.All p)
    (i : Nat) : p (c.answer i) := by
  unfold Channel.answer
  cases hi : c.pending[i]? with
  | none => exact h.1
  | some a => exact h.2 a (List.mem_of_getElem? hi)

/-- On an ordinary outside the action keeps it ordinary, its result has the property, and
its failure is an ordinary one. -/
def Ensures {α : Type} (q : α → Prop) (x : Run α) : Prop :=
  ∀ o : Outside, o.Ordinary → Ends q (x o).1 ∧ (x o).2.Ordinary

/-- The action promises to keep to ordinary failures, and nothing about its result. -/
def Contained {α : Type} (x : Run α) : Prop := Ensures (fun _ => True) x

section Chains

variable {α β : Type} {x : Run α} {f : α → Run β} {p : α → Prop} {q : β → Prop}

/-- Two actions in sequence: the second may rely on what the first
ensures of its result. -/
theorem Ensures.bind (hx : Ensures p x) (hf : ∀ a, p a → Ensures q (f a)) :
    Ensures q (x >>= f) := by
  intro o ho
  obtain ⟨hp, ho'⟩ := hx o ho
  rcases hxo : x o with ⟨r, o'⟩
  rw [hxo] at hp ho'
  cases r with
  | ok a =>
    rw [Run.bind_ok hxo]
    exact hf a hp o' ho'
  | error e =>
    rw [Run.bind_error hxo]
    exact ⟨hp, ho'⟩

theorem ensures_pure {a : α} (h : p a) : Ensures p (pure a) := fun _ ho => ⟨h, ho⟩

theorem ensures_throw {g : Failure} (h : g.isA .ordinary = true) : Ensures p (throw g) :=
  fun _ ho => ⟨h, ho⟩

/-- Behind a failure nothing runs. -/
theorem ensures_throw_bind {g : Failure} (h : g.isA .ordinary = true) :
    Ensures q ((throw g : Run α) >>= f) :=
  Ensures.bind (p := fun _ => False) (ensures_throw h) fun _ hfalse => hfalse.elim

/-- A value that is known ends as it says, and the outside stays as it is. -/
theorem ensures_ofExcept {e : Except Failure α} (h : Ends p e) :
    Ensures p (ofExcept e) := by
  intro o ho
  rw [Run.ofExcept_apply]
  exact ⟨h, ho⟩

/-- The outcome of an action is a result with its property or an ordinary failure. -/
theorem Ensures.outcome (hx : Ensures p x) : Ensures (Ends p) (Run.outcome x) := hx

theorem contained_emit (e : Event) : Contained (Outside.emit e) :=
  fun _ ho => ⟨trivial, ho.client, ho.anthropic, ho.openai, ho.backends⟩

/-- Logging leaves the answers of every party as they are. -/
theorem contained_log (level : LogLevel) (message : String) :
    Contained (Outside.log level message) :=
  contained_emit (.logged level message)

/-- An answer that is taken from outside is an answer of an ordinary party. -/
theorem contained_take {γ : Type} {r : γ → Prop} {take : Outside → γ × Outside}
    (h : ∀ o : Outside, o.Ordinary → r (take o).1 ∧ (take o).2.Ordinary) :
    Ensures r (modifyGet take : Run γ) := h

end Chains

/-! ## The parties -/

theorem contained_ask (prompt : String) : Contained (Outside.ask prompt) := by
  unfold Outside.ask
  refine (contained_emit _).bind fun _ _ => Ensures.bind (p := Answered)
    (contained_take ?_) fun e he => ?_
  · intro o ho
    have hnext := ho.client.next
    exact ⟨hnext.1, hnext.2, ho.anthropic, ho.openai, ho.backends⟩
  · exact ensures_ofExcept he

theorem contained_callAnthropic (call : CompletionCall) :
    Contained (Outside.callAnthropic call) := by
  unfold Outside.callAnthropic
  refine (contained_emit _).bind fun _ _ => Ensures.bind (p := Answered)
    (contained_take ?_) fun e he => ?_
  · intro o ho
    have hnext := ho.anthropic.next
    exact ⟨hnext.1, ho.client, hnext.2, ho.openai, ho.backends⟩
  · exact ensures_ofExcept he

theorem contained_callOpenAI (call : CompletionCall) :
    Contained (Outside.callOpenAI call) := by
  unfold Outside.callOpenAI
  refine (contained_emit _).bind fun _ _ => Ensures.bind (p := Answered)
    (contained_take ?_) fun e he => ?_
  · intro o ho
    have hnext := ho.openai.next
    exact ⟨hnext.1, ho.client, ho.anthropic, hnext.2, ho.backends⟩
  · exact ensures_ofExcept he

/-- What becomes of a posted request is no interruption. -/
theorem ensures_post (request : HttpRequest) :
    Ensures HttpOutcome.Ordinary (Outside.post request) := by
  unfold Outside.post
  refine (contained_emit _).bind fun _ _ => contained_take ?_
  intro o ho
  have hnext := ho.backends.next
  exact ⟨hnext.1, ho.client, ho.anthropic, ho.openai, hnext.2⟩

/-! ## The clients of the program -/

/-- On an ordinary outside the client fails in the ordinary way only. -/
def Client.Ordinary (c : Client) : Prop := ∀ prompt, Contained (c.complete prompt)

/-- The client that passes prompts on keeps to what its party answers. -/
theorem ordinary_direct : Client.direct.Ordinary := contained_ask

namespace CompletionChain

/-- A provider that cannot be called is an ordinary failure too. -/
theorem contained_call (c : CompletionChain) (provider : ProviderChoice)
    (prompt : String) :
    Contained (c.call provider prompt) := by
  unfold call
  split
  · have hcall : Contained (do
        let blocks ← Outside.callAnthropic (c.callFor .anthropic prompt)
        pure (joinBlocks blocks)) :=
      (contained_callAnthropic _).bind fun _ _ => ensures_pure trivial
    split
    · exact ensures_throw_bind rfl
    · exact hcall
  · have hcall : Contained (do
        let choices ← Outside.callOpenAI (c.callFor .openai prompt)
        ofExcept (firstChoice choices)) := by
      refine (contained_callOpenAI _).bind fun choices _ => ensures_ofExcept ?_
      cases choices with
      | nil => exact rfl
      | cons choice rest => exact trivial
    split
    · exact ensures_throw_bind rfl
    · exact hcall

/-- By induction on the providers that are left to be tried. -/
theorem contained_tryAll (c : CompletionChain) (prompt : String)
    (ps : List ProviderChoice) (last : String) : Contained (c.tryAll prompt last ps) := by
  induction ps generalizing last with
  | nil => exact ensures_throw rfl
  | cons p ps ih =>
    -- an ordinary failure is logged, and the next provider is tried
    unfold tryAll
    refine (contained_call c p prompt).outcome.bind fun r hr => ?_
    cases r with
    | ok text => exact ensures_pure trivial
    | error f =>
      have hordinary : f.isA .ordinary = true := hr
      simp only [hordinary, if_true]
      exact (contained_log _ _).bind fun _ _ => ih f.message

/-- Every client that is made from keys keeps to ordinary failures. -/
theorem ordinary_client (c : CompletionChain) : c.client.Ordinary :=
  fun prompt => contained_tryAll c prompt c.providers ""

end CompletionChain

/-! ## Candidates -/

/-- Without a client there is nothing that could fail. -/
theorem contained_cloud {g : CloudSource} (h : ∀ c ∈ g.client, c.Ordinary)
    (path prompt context : String) : Contained (g.generate path prompt context) := by
  unfold CloudSource.generate
  cases hclient : g.client with
  | none => exact ensures_pure trivial
  | some c =>
    show Contained (if g.enabled = true then _ else _)
    split
    · exact h c hclient _
    · exact ensures_pure trivial

theorem answered_lookup (key : String) (v : Json) : Answered (v.lookup? key) := by
  cases v <;> first | exact trivial | exact rfl

theorem answered_bind {α β : Type} {e : Except Failure α} {f : α → Except Failure β}
    (he : Answered e) (hf : ∀ a, Answered (f a)) : Answered (e >>= f) := by
  cases e with
  | ok a => exact hf a
  | error g => exact he

/-- A body without the part that is asked for is an ordinary failure. -/
theorem answered_candidate (b : Backend) (body : Json) : Answered (b.candidate body) := by
  unfold Backend.candidate
  split
  · exact trivial
  · cases b with
    | inference =>
      dsimp only
      split <;> exact trivial
    | bridge =>
      refine answered_bind (answered_lookup "response" _) fun v => ?_
      split <;> exact trivial
    | ollama =>
      refine answered_bind (answered_lookup "response" _) fun v => ?_
      split <;> exact trivial

theorem contained_backend (s : Settings) (prompt : String) (b : Backend) :
    Contained (b.ask s prompt) := by
  unfold Backend.ask
  refine (ensures_post _).bind fun r hr => ?_
  cases r with
  | failed f => exact ensures_throw hr
  | answered status body =>
    show Contained (if OkStatus status then _ else _)
    -- only the body of a successful answer is decoded
    split
    · exact Ensures.bind (p := fun _ => True) (ensures_ofExcept hr) fun v _ =>
        ensures_ofExcept (answered_candidate b v)
    · exact (contained_log _ _).bind fun _ _ => ensures_pure trivial

/-- By induction on the backends; each of them can only be passed over or
end the search. -/
theorem contained_tryBackends (s : Settings) (path prompt : String) (bs : List Backend) :
    Contained (LocalSource.tryBackends s path prompt bs) := by
  induction bs with
  | nil => exact (contained_log _ _).bind fun _ _ => ensures_pure trivial
  | cons b bs ih =>
    unfold LocalSource.tryBackends
    refine (contained_backend s prompt b).outcome.bind fun r hr => ?_
    cases r with
    | ok v =>
      cases v with
      | none => exact ih
      | some v => exact (contained_log _ _).bind fun _ _ => ensures_pure trivial
    | error f =>
      -- a failure that is not passed over ends the search, but is ordinary too
      show Contained (if Backend.passesOver f = true then _ else _)
      split
      · exact (contained_log _ _).bind fun _ _ => ih
      · exact ensures_throw hr

/-- So is the search for a local candidate. -/
theorem contained_local (s : Settings) (path prompt : String) :
    Contained (LocalSource.generate s path prompt) :=
  contained_tryBackends s path _ _

/-- A file is synthesized without an interruption, and what is outside
stays without one. -/
theorem contained_generate {g : CandidateSources} (h : ∀ c ∈ g.cloud.client, c.Ordinary)
    (path prompt context : String) : Contained (g.generate path prompt context) := by
  unfold CandidateSources.generate
  refine (contained_cloud h path prompt context).outcome.bind fun cloud hcloud => ?_
  refine (contained_local g.settings path prompt).outcome.bind fun loc hloc => ?_
  refine (ensures_ofExcept hloc).bind fun l _ => ?_
  refine (ensures_ofExcept hcloud).bind fun c _ => ?_
  exact (contained_log _ _).bind fun _ _ => ensures_pure trivial

/-! ## Plans -/

namespace Plan

open Text

/-- What is asked for a prompt that can be planned. -/
def asked (client : Option Client) (prompt : String) : Run (List String) :=
  match client with
  | none => pure standard
  | some c => do
    match ← Run.outcome (c.complete (request prompt)) with
    | .ok raw => ofAnswer raw.toList
    | .error f =>
      if f.isA .generation then throw (Fault.callFailed f.message).failure else throw f

/-- Planning refuses a prompt before anyone is asked. -/
theorem generate_eq (client : Option Client) (prompt : String) :
    generate client prompt =
      if (strip prompt.toList).isEmpty then throw Fault.emptyPrompt.failure
      else if maxPromptLength < prompt.length then throw
        (Fault.longPrompt prompt.length).failure
      else asked client prompt := by
  unfold generate
  by_cases hempty : (strip prompt.toList).isEmpty = true
  · simp only [hempty, if_true]
    rfl
  · by_cases hlong : maxPromptLength < prompt.length
    · simp only [hempty, hlong, if_true]
      rfl
    · simp only [hempty, hlong, if_false]
      rfl
end Plan

/-- Reading an answer fails, if at all, at a number that is too long. -/
theorem Plan.contained_parse (raw : Text) : Contained (Plan.parse raw) := by
  have hanswer : Answered (Plan.readAnswer raw) := by
    unfold Plan.readAnswer
    dsimp only
    split
    · exact trivial
    · exact rfl
    · split <;> exact trivial
  unfold Plan.parse
  refine Ensures.bind (p := fun _ => True) (ensures_ofExcept hanswer) fun answer _ => ?_
  cases answer with
  | paths ps => exact ensures_pure trivial
  | notJson => exact (contained_log _ _).bind fun _ _ => ensures_pure trivial
  | notPaths => exact (contained_log _ _).bind fun _ _ => ensures_pure trivial

theorem Plan.contained_ofAnswer (raw : Text) : Contained (Plan.ofAnswer raw) :=
  (Plan.contained_parse raw).bind fun _ _ => ensures_pure trivial

theorem Plan.contained_asked {client : Option Client} (h : ∀ c ∈ client, c.Ordinary)
    (prompt : String) : Contained (Plan.asked client prompt) := by
  cases client with
  | none => exact ensures_pure trivial
  | some c =>
    refine (h c rfl (Plan.request prompt)).outcome.bind fun r hr => ?_
    cases r with
    | ok raw => exact Plan.contained_ofAnswer raw.toList
    | error f =>
      show Contained (if f.isA .generation = true then _ else _)
      split
      · exact ensures_throw rfl
      · exact ensures_throw hr

/-- Planning as a whole is contained if the client is. -/
theorem contained_plan {client : Option Client} (h : ∀ c ∈ client, c.Ordinary)
    (prompt : String) :
    Contained (Plan.generate client prompt) := by
  rw [Plan.generate_eq]
  split
  · exact ensures_throw rfl
  · split
    · exact ensures_throw rfl
    · exact Plan.contained_asked h prompt

end CodeWeave
