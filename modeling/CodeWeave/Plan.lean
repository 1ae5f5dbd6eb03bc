import CodeWeave.Distinct
import CodeWeave.Generation.Client
import CodeWeave.Json.Read
import CodeWeave.Text.Scan

/-!
# Plans

A plan is a list of file paths. The client answers with a JSON list of paths, perhaps in a
code fence. Anything else gives the fallback plan. The paths of a plan are stripped, not
empty, distinct, and limited in number.

An answer can spell half of a character in a path. Such paths are read as they are, and a
build names its files by what is shown of them.
-/

namespace CodeWeave

open Text

namespace Plan

/-! ## Faults -/

/-- Why there is no plan. -/
inductive Fault where
  | emptyPrompt
  | longPrompt (length : Nat)
  | callFailed (reason : String)
  deriving DecidableEq, Repr

/-- The longest prompt that is planned. -/
def maxPromptLength : Nat := 4000

/-- The most files of a plan. -/
def maxFiles : Nat := 25

def Fault.message : Fault → String
  | emptyPrompt => "Prompt must not be empty"
  | longPrompt length => s!"Prompt exceeds {maxPromptLength} characters ({length})"
  | callFailed reason => s!"Planning call failed: {reason}"

def Fault.failure (f : Fault) : Failure := ⟨.planning, f.message, [], 0⟩

/-! ## Reading a plan -/

/-- The plan without a client. -/
def standard : List String := ["src/App.tsx", "src/index.css", "package.json"]

/-- The plan for an answer that is no list of paths. -/
def fallback : List String := ["src/App.tsx"]

def fence : Text := ['\x60', '\x60', '\x60']

/-- The text after a code fence at its start, with the fence's tag and the white
space behind it. -/
def dropOpening (t : Text) : Text :=
  match skip fence t with
  | some r => trimStart (r.dropWhile Char.isAlpha)
  | none => t

/-- The text before a code fence at its end, without the white space before the fence. -/
def dropClosing (t : Text) : Text :=
  match dropEnding? fence t with
  | some r => trimEnd r
  | none => t

/-- The text inside a code fence. -/
def unfence (t : Text) : Text := dropClosing (dropOpening (strip t))

/-- The paths of a plan. -/
def clean (paths : List WideText) : List WideText :=
  (distinct ((paths.map WideText.strip).filter (!·.isEmpty))).take maxFiles

/-- What the answer to a request for a plan is. -/
inductive Answer where
  | paths (ps : List WideText)
  | notJson
  | notPaths
  deriving DecidableEq, Repr

/-- Reads an answer. An overlong number in it is a failure. -/
def readAnswer (raw : Text) : Except Failure Answer :=
  let t := unfence raw
  match Json.readDocument (if t.isEmpty then ['[', ']'] else t) with
  | .error .malformed => .ok .notJson
  | .error (.longInteger digits) => .error ⟨.value, Json.longIntegerMessage digits, [], 0⟩
  | .ok v => match v.strings? with
    | some ps => .ok (.paths (clean ps))
    | none => .ok .notPaths

/-- The plan in an answer. -/
def parse (raw : Text) : Run (List WideText) := do
  match ← ofExcept (readAnswer raw) with
  | .paths ps => pure ps
  | .notJson =>
    Outside.log .warning "Planner returned non-JSON output; using fallback plan"
    pure (fallback.map .ofString)
  | .notPaths =>
    Outside.log .warning "Planner output is not a list of paths; using fallback plan"
    pure (fallback.map .ofString)

/-- What a build names the files of a plan. -/
def names (ps : List WideText) : List String := distinct (ps.map WideText.shown)

def ofAnswer (raw : Text) : Run (List String) := do
  let ps ← parse raw
  pure (names ps)

/-! ## Asking for a plan -/

def request (prompt : String) : String :=
  s!"You are the ARCHITECT. Create a file structure for: {prompt}. " ++
    "Return ONLY a JSON array of file paths."

def generate (client : Option Client) (prompt : String) : Run (List String) := do
  if (strip prompt.toList).isEmpty then throw Fault.emptyPrompt.failure
  if maxPromptLength < prompt.length then throw (Fault.longPrompt prompt.length).failure
  match client with
  | none => pure standard
  | some c =>
    match ← Run.outcome (c.complete (request prompt)) with
    | .ok raw => ofAnswer raw.toList
    | .error f =>
      if f.isA .generation then throw (Fault.callFailed f.message).failure else throw f

end Plan

end CodeWeave
