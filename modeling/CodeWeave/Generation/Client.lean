import CodeWeave.Environment
import CodeWeave.Remote.Outside

/-!
# Completion clients

A client answers a prompt with a text, or fails. `Client.direct` passes the prompt on as
it is; `CompletionChain` tries the configured providers in order, each at most once, and
the first one that answers wins.
-/

namespace CodeWeave

/-- Something that completes prompts. -/
structure Client where
  complete : String → Run String

/-- The client whose answers come from outside one by one. -/
def Client.direct : Client where
  complete := Outside.ask

/-! ## Choosing providers -/

/-- A choice of provider: one of the two, or the first that has a key. -/
inductive ProviderChoice where
  | auto
  | anthropic
  | openai
  deriving DecidableEq, Repr

namespace ProviderChoice

def name : ProviderChoice → String
  | auto => "auto"
  | anthropic => "anthropic"
  | openai => "openai"

def ofName? (name : String) : Option ProviderChoice :=
  [auto, anthropic, openai].find? (·.name == name)

end ProviderChoice

/-- What a client is made from. Keys that are missing or empty are looked up in
the environment. -/
structure ClientOptions where
  anthropicKey : Option String := none
  openaiKey : Option String := none
  model : String := "claude-sonnet-4-5-20250929"
  provider : String := "auto"
  fallback : Option String := none
  allowFallback : Bool := false
  maxTokens : Int := 8192

/-- Why no client can be made. -/
inductive ClientFault where
  | noKey
  | noAnthropicKey
  | noOpenAIKey
  | unsupported (provider : String)
  deriving DecidableEq, Repr

def ClientFault.message : ClientFault → String
  | noKey => "No Anthropic or OpenAI API key found. " ++
      "Provide via parameter, ANTHROPIC_API_KEY or OPENAI_API_KEY env vars."
  | noAnthropicKey => "No Anthropic API key found for provider 'anthropic'."
  | noOpenAIKey => "No OpenAI API key found for provider 'openai'."
  | unsupported provider => s!"Unsupported provider: {provider}"

def ClientFault.failure (f : ClientFault) : Failure := ⟨.agent, f.message, [], 0⟩

/-- Why a prompt is not completed. -/
inductive CompletionFault where
  | anthropicUnavailable
  | openaiUnavailable
  | exhausted (last : String)
  deriving DecidableEq, Repr

def CompletionFault.message : CompletionFault → String
  | anthropicUnavailable => "Anthropic client unavailable"
  | openaiUnavailable => "OpenAI client unavailable"
  | exhausted last => s!"Failed to call LLM: {last}"

def CompletionFault.failure (f : CompletionFault) : Failure :=
  ⟨.generation, f.message, [], 0⟩

/-- A client over the providers that have a key. -/
structure CompletionChain where
  model : String
  maxTokens : Int
  provider : ProviderChoice
  fallback : Option ProviderChoice
  allowFallback : Bool
  hasAnthropic : Bool
  hasOpenAI : Bool
  deriving DecidableEq, Repr

namespace CompletionChain

def choose (name : String) : Run ProviderChoice :=
  match ProviderChoice.ofName? name with
  | some c => pure c
  | none => throw (ClientFault.unsupported name).failure

/-- Makes a client. Both providers are connected before anything is checked. -/
def connect (environment : Environment) (options : ClientOptions) :
    Run CompletionChain := do
  let anthropicKey := (nonEmpty? options.anthropicKey).or
    (nonEmpty? (environment "ANTHROPIC_API_KEY"))
  let openaiKey :=
    (nonEmpty? options.openaiKey).or (nonEmpty? (environment "OPENAI_API_KEY"))
  if let some key := anthropicKey then Outside.emit (.connected .anthropic key)
  if let some key := openaiKey then Outside.emit (.connected .openai key)
  if anthropicKey.isNone && openaiKey.isNone then throw ClientFault.noKey.failure
  let provider ← choose options.provider
  let fallback ← match nonEmpty? options.fallback with
    | some name => some <$> choose name
    | none => pure none
  if provider = .anthropic && anthropicKey.isNone
    then throw ClientFault.noAnthropicKey.failure
  if provider = .openai && openaiKey.isNone then throw ClientFault.noOpenAIKey.failure
  pure ⟨options.model, options.maxTokens, provider, fallback, options.allowFallback,
    anthropicKey.isSome, openaiKey.isSome⟩

/-- Makes a client, or none if the options or the keys do not allow one. -/
def connect? (environment : Environment) (options : ClientOptions) :
    Run (Option CompletionChain) := do
  match ← Run.outcome (connect environment options) with
  | .ok chain => pure (some chain)
  | .error f =>
    if f.isA .agent then
      Outside.log .info s!"Cloud LLM unavailable: {f.message}"
      pure none
    else throw f

/-- The provider that is tried first. -/
def primary (c : CompletionChain) : ProviderChoice :=
  if c.provider = .auto then (if c.hasAnthropic then .anthropic else .openai)
    else c.provider

/-- The providers in the order in which they are tried. -/
def providers (c : CompletionChain) : List ProviderChoice :=
  match c.fallback with
  | some f => if c.allowFallback && f != c.primary then [c.primary, f] else [c.primary]
  | none => [c.primary]

/-- What stands in for a model of the other provider. -/
def openaiDefaultModel : String := "gpt-4o-mini"

/-- The model that a provider is asked for. -/
def modelFor (c : CompletionChain) (provider : ProviderChoice) : String :=
  if provider = .openai ∧ "claude-".toList.isPrefixOf c.model.toList
    then openaiDefaultModel
  else c.model

def callFor (c : CompletionChain) (provider : ProviderChoice) (prompt : String) :
    CompletionCall :=
  ⟨c.modelFor provider, c.maxTokens, prompt⟩

/-- The text blocks of a completion, joined. -/
def joinBlocks (blocks : List ContentBlock) : String :=
  String.join ((blocks.filter (·.kind == "text")).map (·.text))

/-- The first choice of a completion; one without content is empty. -/
def firstChoice (choices : List (Option String)) : Except Failure String :=
  match choices with
  | [] => .error ⟨.outOfRange, "list index out of range", [], 0⟩
  | c :: _ => .ok (c.getD "")

def call (c : CompletionChain) (provider : ProviderChoice) (prompt : String) :
    Run String := do
  if provider = .anthropic then
    if !c.hasAnthropic then throw CompletionFault.anthropicUnavailable.failure
    let blocks ← Outside.callAnthropic (c.callFor .anthropic prompt)
    pure (joinBlocks blocks)
  else
    if !c.hasOpenAI then throw CompletionFault.openaiUnavailable.failure
    let choices ← Outside.callOpenAI (c.callFor .openai prompt)
    ofExcept (firstChoice choices)

/-- Tries the providers in order; `last` is the message of the latest failure. -/
def tryAll (c : CompletionChain) (prompt : String) (last : String) :
    List ProviderChoice → Run String
  | [] => throw (CompletionFault.exhausted last).failure
  | p :: ps => do
    match ← Run.outcome (c.call p prompt) with
    | .ok text => pure text
    | .error f =>
      if f.isA .ordinary then
        Outside.log .warning s!"{p.name} completion failed: {f.message}"
        tryAll c prompt f.message ps
      else throw f

/-- Completes a prompt with the first provider that answers. -/
def complete (c : CompletionChain) (prompt : String) : Run String :=
  c.tryAll prompt "" c.providers

def client (c : CompletionChain) : Client := ⟨c.complete⟩

end CompletionChain

end CodeWeave
