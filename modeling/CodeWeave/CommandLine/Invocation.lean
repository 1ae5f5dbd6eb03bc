import CodeWeave.CommandLine.Options

/-!
# Invocations

The three commands of the program with their texts, and what a command line asks for. The
program's own words are read up to the command; all words after it belong to the command.
-/

namespace CodeWeave.CommandLine

/-- What a command line asks for. -/
inductive Invocation where
  | synthesize (cloudFile localFile : String) (asJson showDiff : Bool) (pins : List Int)
  | build (prompt context outputDir : String) (deploys dryRun asJson : Bool)
  | deploy (projectDir : String)
  deriving DecidableEq, Repr

/-! ## The commands -/

/-- The option that asks for help. -/
def helpOption : OptionSpec := ⟨["-h", "--help"], .help⟩

/-- The option that asks for more output. -/
def verboseOption : OptionSpec := ⟨["--verbose"], .flag⟩

/-- Where generated files go without a directory of their own. -/
def standardOutputDir : String := "./generated"

/-- The program before its command. -/
def programSpec : CommandSpec where
  program := "hybrid-architect"
  usage :=
    "usage: hybrid-architect [-h] [--verbose] \x7bsynthesize,build,deploy\x7d ...\n"
  help :=
    "usage: hybrid-architect [-h] [--verbose] \x7bsynthesize,build,deploy\x7d ...\n\n" ++
    "Prompt-to-project assistant with cloud/local code synthesis\n\n" ++
    "positional arguments:\n" ++
    "  \x7bsynthesize,build,deploy\x7d\n" ++
    "    synthesize          Merge a cloud and a local candidate file\n" ++
    "    build               Generate a project from a prompt\n" ++
    "    deploy              Commit an existing directory to GitHub\n\n" ++
    "options:\n" ++
    "  -h, --help            show this help message and exit\n" ++
    "  --verbose             Enable verbose output\n"
  options := [helpOption, verboseOption]
  arguments := ["command"]

def synthesizeUsage : String :=
  "usage: hybrid-architect synthesize [-h] [--verbose] [--output-json]\n" ++
  "                                   [--show-diff] [--pin N]\n" ++
  "                                   cloud_file local_file\n"

def synthesizeSpec : CommandSpec where
  program := "hybrid-architect synthesize"
  usage := synthesizeUsage
  help := synthesizeUsage ++
    "\npositional arguments:\n" ++
    "  cloud_file     Path to the cloud candidate\n" ++
    "  local_file     Path to the local candidate\n\n" ++
    "options:\n" ++
    "  -h, --help     show this help message and exit\n" ++
    "  --verbose      Enable verbose output\n" ++
    "  --output-json  Output code and diff as JSON\n" ++
    "  --show-diff    Print the tagged diff after the code\n" ++
    "  --pin N        Flip diff block N (restore a cloud block or reject a local\n" ++
    "                 one); repeatable\n"
  options :=
    [helpOption, verboseOption, ⟨["--output-json"], .flag⟩, ⟨["--show-diff"], .flag⟩,
    ⟨["--pin"], .number⟩]
  arguments := ["cloud_file", "local_file"]

def buildUsage : String :=
  "usage: hybrid-architect build [-h] [--verbose] [--context CONTEXT]\n" ++
  "                              [--output-dir OUTPUT_DIR] [--deploy] [--dry-run]\n" ++
  "                              [--output-json]\n" ++
  "                              prompt\n"

def buildSpec : CommandSpec where
  program := "hybrid-architect build"
  usage := buildUsage
  help := buildUsage ++
    "\npositional arguments:\n" ++
    "  prompt                Natural-language project description\n\n" ++
    "options:\n" ++
    "  -h, --help            show this help message and exit\n" ++
    "  --verbose             Enable verbose output\n" ++
    "  --context CONTEXT     Extra context passed to the cloud generator\n" ++
    "  --output-dir OUTPUT_DIR\n" ++
    "                        Directory to write generated files to (default:\n" ++
    "                        ./generated)\n" ++
    "  --deploy              Commit the generated project to GitHub\n" ++
    "  --dry-run             Print config and exit without running\n" ++
    "  --output-json         Output results as JSON\n"
  options :=
    [helpOption, verboseOption, ⟨["--context"], .text⟩, ⟨["--output-dir"], .text⟩,
    ⟨["--deploy"], .flag⟩, ⟨["--dry-run"], .flag⟩, ⟨["--output-json"], .flag⟩]
  arguments := ["prompt"]

def deployUsage : String :=
  "usage: hybrid-architect deploy [-h] [--verbose] project_dir\n"

def deploySpec : CommandSpec where
  program := "hybrid-architect deploy"
  usage := deployUsage
  help := deployUsage ++
    "\npositional arguments:\n" ++
    "  project_dir  Directory with generated files\n\n" ++
    "options:\n" ++
    "  -h, --help   show this help message and exit\n" ++
    "  --verbose    Enable verbose output\n"
  options := [helpOption, verboseOption]
  arguments := ["project_dir"]

def commands : List (String × CommandSpec) :=
  [("synthesize", synthesizeSpec), ("build", buildSpec), ("deploy", deploySpec)]

/-- What the words of a command ask for. -/
def invocationOf (name : String) (g : Given) : Invocation :=
  if name = "synthesize" then
    .synthesize (g.argument 0) (g.argument 1) (g.hasFlag "--output-json")
      (g.hasFlag "--show-diff")
      (g.numbersOf "--pin")
  else if name = "build" then
    .build (g.argument 0) ((g.text? "--context").getD "")
      ((g.text? "--output-dir").getD standardOutputDir) (g.hasFlag "--deploy")
      (g.hasFlag "--dry-run") (g.hasFlag "--output-json")
  else .deploy (g.argument 0)

/-! ## Reading a command line -/

/-- What a command line asks for, and whether it asks for more output. -/
structure Request where
  verbose : Bool
  invocation : Invocation
  deriving DecidableEq, Repr

/-- Reads the command at the head of the words, after the program's own words
have given `g`. -/
def readCommand (g : Given) (name : String) (words : List String) : Except Stop Request :=
  match commands.find? (·.1 == name) with
  | none =>
    programSpec.stop
      (s!"argument command: invalid choice: {String.ofList (Text.quoted name.toList)} " ++
      "(choose from 'synthesize', 'build', 'deploy')")
  | some (_, spec) => do
    let own ← spec.read words
    let extras := g.extras ++ own.extras
    if extras.isEmpty then
      .ok ⟨g.hasFlag "--verbose" || own.hasFlag "--verbose", invocationOf name own⟩
    else programSpec.stop ("unrecognized arguments: " ++ String.intercalate " " extras)

/-- Reads the program's own words up to the command. -/
def readProgram (g : Given) : List Word → Except Stop Request
  | [] => programSpec.stop "the following arguments are required: command"
  | .option m _ :: rest => do
    let (g, _) ← programSpec.takeOption m rest g
    readProgram g rest
  | .unknown t :: rest => readProgram { g with extras := g.extras ++ [t] } rest
  | .argument name :: rest => readCommand g name (rest.map Word.text)
  | .separator :: rest =>
    if rest.isEmpty then readProgram g rest else readCommand g "--" (rest.map Word.text)

def readRequest (words : List String) : Except Stop Request := do
  let ws ← programSpec.classify words
  readProgram {} ws

end CodeWeave.CommandLine
