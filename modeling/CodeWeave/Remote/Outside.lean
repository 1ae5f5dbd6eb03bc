import CodeWeave.Failure

/-!
# The outside

The program talks to a completion client, to two completion providers, to the local
backends, to the repository host and to the log. What each party is going to answer is
a list that is consumed in order; what goes out is one list of events, in order. An
action reads and changes this state and may fail, and a failure undoes nothing that
went out before it.

Each party has an answer for the time after its list: `Channel.silence`.
-/

namespace CodeWeave

/-! ## What goes out and what comes back -/

/-- The completion providers. -/
inductive Provider where
  | anthropic
  | openai
  deriving DecidableEq, Repr

namespace Provider

def name : Provider → String
  | anthropic => "anthropic"
  | openai => "openai"

end Provider

/-- A request for one completion of a prompt. -/
structure CompletionCall where
  model : String
  maxTokens : Int
  prompt : String
  deriving DecidableEq, Repr

/-- A block of a completion, of which only those of the kind `text` count. -/
structure ContentBlock where
  kind : String
  text : String
  deriving DecidableEq, Repr

/-- A request over HTTP. -/
structure HttpRequest where
  method : String
  url : String
  body : Json
  headers : List (String × String)
  timeout : Int

/-- What becomes of a request: no response, or a status and a body, which may
not be decodable. -/
inductive HttpOutcome where
  | failed (failure : Failure)
  | answered (status : Int) (body : Except Failure Json)

/-- The status is that of a response that is ok: neither side of it has failed. -/
def OkStatus (status : Int) : Prop := status < 400

instance (status : Int) : Decidable (OkStatus status) :=
  inferInstanceAs (Decidable (status < 400))

/-- The severity of a log entry. -/
inductive LogLevel where
  | debug
  | info
  | warning
  deriving DecidableEq, Repr

def LogLevel.name : LogLevel → String
  | debug => "DEBUG"
  | info => "INFO"
  | warning => "WARNING"

/-- Something that goes out. -/
inductive Event where
  /-- The completion client is asked. -/
  | asked (prompt : String)
  /-- A provider gets the key that it is used with. -/
  | connected (provider : Provider) (key : String)
  /-- A provider is called. -/
  | called (provider : Provider) (call : CompletionCall)
  /-- A local backend is requested. -/
  | posted (request : HttpRequest)
  /-- The repository host is requested. -/
  | requested (request : HttpRequest)
  | logged (level : LogLevel) (message : String)

/-! ## The state -/

/-- The answers that a party is going to give, and what it answers after them. -/
structure Channel (α : Type) where
  pending : List α
  silence : α

/-- The next answer. -/
def Channel.next {α : Type} (c : Channel α) : α × Channel α :=
  match c.pending with
  | [] => (c.silence, c)
  | a :: rest => (a, { c with pending := rest })

/-- All parties, and what went out so far. -/
structure Outside where
  client : Channel (Except Failure String)
  anthropic : Channel (Except Failure (List ContentBlock))
  openai : Channel (Except Failure (List (Option String)))
  backends : Channel HttpOutcome
  host : Channel HttpOutcome
  events : List Event := []

/-! ## Actions -/

/-- An action on the outside that may fail. -/
abbrev Run := ExceptT Failure (StateM Outside)

namespace Run

/-- The action with its outcome, a result or a failure, as the result. -/
def outcome {α : Type} (action : Run α) : Run (Except Failure α) := fun o =>
  let (r, o) := action o
  (.ok r, o)

end Run

namespace Outside

def emit (e : Event) : Run Unit := modify fun o => { o with events := o.events ++ [e] }

def log (level : LogLevel) (message : String) : Run Unit := emit (.logged level message)

def ask (prompt : String) : Run String := do
  emit (.asked prompt)
  let answer ← modifyGet fun o => let (a, c) := o.client.next; (a, { o with client := c })
  ofExcept answer

def callAnthropic (call : CompletionCall) : Run (List ContentBlock) := do
  emit (.called .anthropic call)
  let answer ← modifyGet fun o => let (a, c) :=
    o.anthropic.next; (a, { o with anthropic := c })
  ofExcept answer

def callOpenAI (call : CompletionCall) : Run (List (Option String)) := do
  emit (.called .openai call)
  let answer ← modifyGet fun o => let (a, c) := o.openai.next; (a, { o with openai := c })
  ofExcept answer

def post (request : HttpRequest) : Run HttpOutcome := do
  emit (.posted request)
  modifyGet fun o => let (a, c) := o.backends.next; (a, { o with backends := c })

def request (request : HttpRequest) : Run HttpOutcome := do
  emit (.requested request)
  modifyGet fun o => let (a, c) := o.host.next; (a, { o with host := c })

end Outside

end CodeWeave
