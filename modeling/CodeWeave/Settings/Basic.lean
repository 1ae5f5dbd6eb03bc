import CodeWeave.Record.Shape

/-!
# Settings

Where the code generators are, which models they use, and the tokens they need.
`publicView` is the part of the settings that may be printed: no token is in it.
-/

namespace CodeWeave

/-- Addresses, models and tokens of the code generators. -/
structure Settings where
  ollamaUrl : String := "http://localhost:11434"
  ollamaModel : String := "codestral"
  hfUrl : String := "http://localhost:8000"
  hfToken : Option String := none
  hfModel : String := "microsoft/Phi-3-mini-4k-instruct"
  useCloud : Bool := true
  cloudModel : String := "claude-sonnet-4-5-20250929"
  githubToken : Option String := none
  requestTimeout : Int := 60
  deriving DecidableEq, Repr

namespace Shape

def settings : Shape :=
  plain "ProviderSettings"
    [defaulted "ollama_url" text (.str "http://localhost:11434"),
     defaulted "ollama_model" text (.str "codestral"),
     defaulted "hf_url" text (.str "http://localhost:8000"),
     defaulted "hf_token" (optional text) .null,
     defaulted "hf_model" text (.str "microsoft/Phi-3-mini-4k-instruct"),
     defaulted "use_cloud" flag (.bool true),
     defaulted "cloud_model" text (.str "claude-sonnet-4-5-20250929"),
     defaulted "github_token" (optional text) .null,
     defaulted "request_timeout" whole (.int 60)]

end Shape

namespace Settings

def toRecord (s : Settings) : Json :=
  .obj [("ollama_url", .str s.ollamaUrl), ("ollama_model", .str s.ollamaModel),
    ("hf_url", .str s.hfUrl), ("hf_token", .ofOption s.hfToken),
      ("hf_model", .str s.hfModel),
    ("use_cloud", .bool s.useCloud), ("cloud_model", .str s.cloudModel),
    ("github_token", .ofOption s.githubToken), ("request_timeout", .int s.requestTimeout)]

/-- The settings of a checked record. -/
def ofRecord (v : Json) : Settings where
  ollamaUrl := v.textAt "ollama_url"
  ollamaModel := v.textAt "ollama_model"
  hfUrl := v.textAt "hf_url"
  hfToken := v.textAt? "hf_token"
  hfModel := v.textAt "hf_model"
  useCloud := v.flagAt "use_cloud"
  cloudModel := v.textAt "cloud_model"
  githubToken := v.textAt? "github_token"
  requestTimeout := match v.get? "request_timeout" with
    | some (.int i) => i
    | _ => 0

/-- The settings that may be printed. -/
def publicView (s : Settings) : List (String × Json) :=
  [("ollama_url", .str s.ollamaUrl), ("ollama_model", .str s.ollamaModel),
   ("hf_url", .str s.hfUrl), ("hf_model", .str s.hfModel),
     ("use_cloud", .bool s.useCloud),
   ("cloud_model", .str s.cloudModel), ("request_timeout", .int s.requestTimeout)]

end Settings

end CodeWeave
