import CodeWeave.Redaction.Sensitive
import CodeWeave.Text.Upper

/-!
# Redaction

A text loses its API keys, then its assigned secrets, then its e-mail
addresses; paths stay. A key and a secret become a reference to an environment
variable, an address a marker.

`isSecured` is the trace that redaction leaves: a reference to the
environment or a marker.
-/

namespace CodeWeave

open Text

namespace Redaction

/-- How a reference to the environment starts. -/
def environmentStem : Text := "process.env.".toList

/-- How the name of an environment variable starts. -/
def variableStem : Text := "VITE_".toList

/-- What stands for an API key. -/
def apiKeyPlaceholder : Text :=
  environmentStem ++ variableStem ++ "AI_API_KEY /* REDACTED FOR PRIVACY */".toList

/-- What stands for an e-mail address. -/
def emailPlaceholder : Text := "[REDACTED_EMAIL]".toList

def markerStem : Text := "[REDACTED".toList

/-- The environment variable of a secret: its name in upper case, white space
as underscores. -/
def variableName (key : Text) : Text :=
  variableStem ++ (upper key).map fun c => if isBlank c then '_' else c

/-- What stands for the assignment of a secret. -/
def secretReference (key : Text) : Text :=
  key ++ ": ".toList ++ environmentStem ++ variableName key

/-- The replacement of one assignment. -/
def replaceSecret (assignment : Text) : Text :=
  match Sensitive.cutSecretWord assignment with
  | some (key, _) => secretReference key
  | none => assignment

def redactApiKeys (t : Text) : Text :=
  Sensitive.apiKeys.pattern.replace (fun _ => apiKeyPlaceholder) t

def redactSecrets (t : Text) : Text := Sensitive.secrets.pattern.replace replaceSecret t

def redactEmails (t : Text) : Text :=
  Sensitive.emails.pattern.replace (fun _ => emailPlaceholder) t

end Redaction

open Redaction

/-- The text without API keys, assigned secrets and e-mail addresses. -/
def redact (t : Text) : Text := redactEmails (redactSecrets (redactApiKeys t))

/-- The text refers to the environment or carries a redaction marker. -/
def isSecured (t : Text) : Bool := contains environmentStem t || contains markerStem t

end CodeWeave
