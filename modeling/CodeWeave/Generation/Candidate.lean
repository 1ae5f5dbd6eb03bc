import CodeWeave.Generation.Client
import CodeWeave.Settings.Basic
import CodeWeave.Synthesis

/-!
# Candidates

A file has two candidates. The cloud candidate comes from the completion client. The local
candidate comes from the first usable of up to three backends: a local bridge, a local
model server and, with a token, a hosted inference service. A backend that fails in an
expected way is passed over, and if all do, a placeholder stands for the candidate.
-/

namespace CodeWeave

/-! ## The cloud candidate -/

/-- The generator of cloud candidates. -/
structure CloudSource where
  client : Option Client
  enabled : Bool := true

namespace CloudSource

/-- Stands for the cloud candidate when there is no cloud. -/
def disabledPlaceholder : String := "// Cloud supervision disabled"

def prompt (path prompt context : String) : String :=
  s!"Write React/Vite code for {path}. Prompt: {prompt}. Context: {context}. " ++
    "Focus on architectural safety. Handle complex logic with deep reasoning."

/-- The cloud candidate for a file. -/
def generate (g : CloudSource) (path prompt context : String) : Run String :=
  match g.client with
  | none => pure disabledPlaceholder
  | some c =>
    if g.enabled then c.complete (CloudSource.prompt path prompt context)
    else pure disabledPlaceholder

end CloudSource

/-! ## The local candidate -/

/-- The backends for local candidates. -/
inductive Backend where
  | bridge
  | ollama
  | inference
  deriving DecidableEq, Repr

namespace Backend

def name : Backend → String
  | bridge => "hf-bridge"
  | ollama => "ollama"
  | inference => "hf-inference"

/-- Stands for an answer of the hosted service without text. -/
def emptyPlaceholder : String := "// HF Remote Empty Response"

def inferenceStem : String := "https://api-inference.huggingface.co/models/"

/-- The backends that the settings allow, in the order in which they are tried. -/
def available (s : Settings) : List Backend :=
  if (nonEmpty? s.hfToken).isSome then [bridge, ollama, inference] else [bridge, ollama]

/-- The request to a backend for a prompt. -/
def request (s : Settings) (prompt : String) : Backend → HttpRequest
  | bridge =>
    ⟨"POST", s!"{s.hfUrl}/generate", .obj [("prompt", .str prompt)], [], s.requestTimeout⟩
  | ollama => ⟨"POST", s!"{s.ollamaUrl}/api/generate",
      .obj [("model", .str s.ollamaModel), ("prompt", .str prompt),
        ("stream", .bool false)], [],
      s.requestTimeout⟩
  | inference => ⟨"POST", inferenceStem ++ s.hfModel, .obj [("inputs", .str prompt)],
      [("Authorization", "Bearer " ++ s.hfToken.getD "")], s.requestTimeout⟩

/-- The generated text of an answer of the hosted service, which may be in a list. -/
def generatedText : Json → Option Json
  | .arr (.obj fields :: _) => Json.field? fields "generated_text"
  | .obj fields => Json.field? fields "generated_text"
  | _ => none

/-- The candidate in the body of a response, if there is one. -/
def candidate (b : Backend) (body : Json) : Except Failure (Option Json) :=
  match body with
  | .null => .ok none
  | body => match b with
    | inference =>
      match generatedText body with
      | some v => .ok (some (if v.isNothing then .str emptyPlaceholder else v))
      | none => .ok (some (.str emptyPlaceholder))
    | _ => do
      match ← body.lookup? "response" with
      | some .null => .ok none
      | v => .ok v

def ask (s : Settings) (prompt : String) (b : Backend) : Run (Option Json) := do
  let request := b.request s prompt
  match ← Outside.post request with
  | .failed f => throw f
  | .answered status body =>
    if OkStatus status then
      let body ← ofExcept body
      ofExcept (b.candidate body)
    else
      Outside.log .debug s!"{request.url} responded with status {status}"
      pure none

/-- The failures that make the next backend be tried. -/
def passesOver (f : Failure) : Bool :=
  f.isA .request || f.isA .value || f.isA .missingPart

end Backend

namespace LocalSource

/-- Stands for the local candidate when no backend gives one. -/
def failedPlaceholder : String := "// All local/hybrid workers failed"

def prompt (path prompt : String) : String :=
  s!"Write optimized code for {path}. Prompt: {prompt}. " ++
    "Focus on local speed and hardware efficiency."

/-- Tries backends in order. -/
def tryBackends (s : Settings) (path prompt : String) : List Backend → Run String
  | [] => do
    Outside.log .warning s!"All local backends failed for {path}"
    pure failedPlaceholder
  | b :: bs => do
    match ← Run.outcome (b.ask s prompt) with
    | .ok (some v) =>
      Outside.log .debug s!"Local candidate for {path} produced by {b.name}"
      pure v.display
    | .ok none => tryBackends s path prompt bs
    | .error f =>
      if Backend.passesOver f then
        Outside.log .warning s!"Local backend '{b.name}' failed: {f.message}"
        tryBackends s path prompt bs
      else throw f

/-- The local candidate for a file. -/
def generate (s : Settings) (path prompt : String) : Run String :=
  tryBackends s path (LocalSource.prompt path prompt) (Backend.available s)

end LocalSource

/-! ## Both -/

/-- The generator of files from both candidates. -/
structure CandidateSources where
  cloud : CloudSource
  settings : Settings

namespace CandidateSources

/-- Synthesizes a file. Both candidates are requested whatever becomes of the other; of
two failures the local one counts. -/
def generate (g : CandidateSources) (path prompt context : String) : Run Synthesis := do
  let cloud ← Run.outcome (g.cloud.generate path prompt context)
  let loc ← Run.outcome (LocalSource.generate g.settings path prompt)
  let loc ← ofExcept loc
  let cloud ← ofExcept cloud
  Outside.log .debug s!"{path}: cloud={cloud.length} chars, local={loc.length} chars"
  pure (synthesize (some cloud.toList) (some loc.toList))

end CandidateSources

end CodeWeave
