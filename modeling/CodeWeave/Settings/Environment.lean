import CodeWeave.Environment
import CodeWeave.Failure
import CodeWeave.Number.Integer
import CodeWeave.Settings.Basic

/-!
# Settings from the environment

Variables with the program's prefix change single settings; one that is empty counts as
missing. The two tokens may also come from their conventional variables. Only the timeout
can be unusable, so it is the only reason for a fault.
-/

namespace CodeWeave

open Text

namespace Settings

/-- Why a setting cannot be used. -/
inductive Fault where
  | timeoutNotWhole (value : String)
  | timeoutNotPositive (value : String)
  deriving DecidableEq, Repr

def variableStem : String := "HYBRID_ARCHITECT_"

def Fault.message : Fault → String
  | timeoutNotWhole value =>
    s!"{variableStem}REQUEST_TIMEOUT must be a whole number of seconds, got " ++
      String.ofList (quoted value.toList)
  | timeoutNotPositive value =>
    s!"{variableStem}REQUEST_TIMEOUT must be positive, got " ++
      String.ofList (quoted value.toList)

def Fault.failure (f : Fault) : Failure := ⟨.configuration, f.message, [], 0⟩

/-- The value of one of the program's variables. -/
def own? (environment : Environment) (name : String) : Option String :=
  nonEmpty? (environment (variableStem ++ name))

/-- A token: from the program's variable, or from the conventional one. -/
def token? (environment : Environment) (name : String) : Option String :=
  (own? environment name).or (nonEmpty? (environment name))

/-- The words that switch something on. -/
def isTruthy (value : String) : Bool :=
  ["1", "true", "yes", "on"].contains (String.ofList (lowerAscii (strip value.toList)))

/-- The timeout that a variable gives. -/
def readTimeout (value : String) : Except Fault Int :=
  match Number.integer? value.toList with
  | none => .error (.timeoutNotWhole value)
  | some n => if n ≤ 0 then .error (.timeoutNotPositive value) else .ok n

def timeout (environment : Environment) : Except Fault Int :=
  match own? environment "REQUEST_TIMEOUT" with
  | none => .ok ({} : Settings).requestTimeout
  | some value => readTimeout value

def load (environment : Environment) : Except Fault Settings := do
  let standard : Settings := {}
  let own := own? environment
  let seconds ← timeout environment
  .ok {
    ollamaUrl := (own "OLLAMA_URL").getD standard.ollamaUrl
    ollamaModel := (own "OLLAMA_MODEL").getD standard.ollamaModel
    hfUrl := (own "HF_URL").getD standard.hfUrl
    hfToken := token? environment "HF_TOKEN"
    hfModel := (own "HF_MODEL").getD standard.hfModel
    useCloud := ((own "USE_CLOUD").map isTruthy).getD standard.useCloud
    cloudModel := (own "CLOUD_MODEL").getD standard.cloudModel
    githubToken := token? environment "GITHUB_TOKEN"
    requestTimeout := seconds }

end Settings

end CodeWeave
