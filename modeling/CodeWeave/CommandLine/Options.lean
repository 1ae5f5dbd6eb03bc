import CodeWeave.Number.Integer
import CodeWeave.Text.Quoted

/-!
# Reading options and arguments

Command-line words are classified before any of them is used. A word that starts with a
dash is an option, unless it is the dash alone, looks like a negative number, or holds a
space. A long option may be shortened as long as it is unambiguous, and may carry its
value after an equals sign. Two dashes make all words after them arguments.

Options and arguments are then taken from left to right, and the first thing that is wrong
ends the reading. Arguments that nobody asks for are gathered and reported last.
-/

namespace CodeWeave.CommandLine

open Text

/-! ## Options -/

/-- What an option does with a value. -/
inductive OptionKind where
  | help
  | flag
  | text
  | number
  deriving DecidableEq, Repr

/-- An option: all its names, the long one last. -/
structure OptionSpec where
  names : List String
  kind : OptionKind
  deriving DecidableEq, Repr

namespace OptionSpec

def key (o : OptionSpec) : String := o.names.getLast?.getD ""

/-- The option as messages name it. -/
def title (o : OptionSpec) : String := String.intercalate "/" o.names

def takesValue (o : OptionSpec) : Bool := o.kind == .text || o.kind == .number

end OptionSpec

/-- A command: how its program is called, its texts, its options and its arguments. -/
structure CommandSpec where
  program : String
  usage : String
  help : String
  options : List OptionSpec
  arguments : List String

/-- Why reading stops before a command can run. -/
inductive Stop where
  /-- The help of a command is asked for. -/
  | help (text : String)
  /-- Something is wrong with the words. -/
  | wrong (usage program reason : String)
  deriving DecidableEq, Repr

namespace Stop

/-- What is printed on the standard output. -/
def stdout : Stop → String
  | help text => text
  | wrong _ _ _ => ""

/-- What is printed on the standard error output. -/
def stderr : Stop → String
  | help _ => ""
  | wrong usage program reason => s!"{usage}{program}: error: {reason}\n"

def code : Stop → Int
  | help _ => 0
  | wrong _ _ _ => 2

end Stop

/-- Something is wrong with the words of a command. -/
def CommandSpec.stop {α : Type} (c : CommandSpec) (reason : String) : Except Stop α :=
  .error (.wrong c.usage c.program reason)

/-- Something is wrong with the use of an option. -/
def CommandSpec.stopAt {α : Type} (c : CommandSpec) (o : OptionSpec) (reason : String) :
    Except Stop α :=
  c.stop s!"argument {o.title}: {reason}"

/-! ## Words -/

/-- How a word names an option: the option and its name, and the value that the word
carries, with whether an equals sign stands before it. -/
structure Mention where
  option : OptionSpec
  name : String
  value : Option (Text × Bool)
  deriving DecidableEq, Repr

/-- A classified word. -/
inductive Word where
  | argument (text : String)
  /-- Two dashes. -/
  | separator
  | option (mention : Mention) (text : String)
  | unknown (text : String)
  deriving DecidableEq, Repr

namespace Word

/-- The word as it was given. -/
def text : Word → String
  | argument t => t
  | separator => "--"
  | option _ t => t
  | unknown t => t

/-- The word is an option, known or not. -/
def isOption : Word → Bool
  | option _ _ => true
  | unknown _ => true
  | _ => false

end Word

/-- The text before the first equals sign, and the text after it. -/
def splitEquals (t : Text) : Option (Text × Text) :=
  match t.dropWhile (· != '=') with
  | _ :: value => some (t.takeWhile (· != '='), value)
  | [] => none

/-- All names of a command's options. -/
def CommandSpec.names (c : CommandSpec) : List (String × OptionSpec) :=
  c.options.flatMap fun o => o.names.map fun n => (n, o)

def CommandSpec.option? (c : CommandSpec) (name : Text) : Option OptionSpec :=
  (c.names.find? (·.1.toList == name)).map (·.2)

/-- The word looks like a negative number. -/
def isNegativeNumber (t : Text) : Bool :=
  let isDigit (c : Char) : Bool := (digitValue? c).isSome
  let t := if t.getLast? = some '\n' then t.dropLast else t
  match t with
  | '-' :: ds =>
    let fraction := ds.dropWhile isDigit
    (!ds.isEmpty && fraction.isEmpty) ||
      (match fraction with
        | '.' :: fs => !fs.isEmpty && fs.all isDigit
        | _ => false)
  | _ => false

/-- The options that a word may stand for when it is none of their names: a long option
shortened, or a short one with its value attached. -/
def CommandSpec.candidates (c : CommandSpec) (t : Text) : List Mention :=
  match t with
  | '-' :: '-' :: _ =>
    let (stem, value) := match splitEquals t with
      | some (stem, value) => (stem, some (value, true))
      | none => (t, none)
    (c.names.filter fun (n, _) => stem.isPrefixOf n.toList).map
      fun (n, o) => ⟨o, n, value⟩
  | _ =>
    c.names.filterMap fun (n, o) =>
      if n.toList = t.take 2 then some ⟨o, n, some (t.drop 2, false)⟩
      else if t.isPrefixOf n.toList then some ⟨o, n, none⟩
      else none

/-- Classifies a word that starts with a dash and has more to it. -/
def CommandSpec.classifyDashed (c : CommandSpec) (t : Text) : Except Stop Word :=
  let word := String.ofList t
  match c.option? t with
  | some o => .ok (.option ⟨o, word, none⟩ word)
  | none =>
    match (splitEquals t).bind fun (n, v) => (c.option? n).map fun o => (n, v, o) with
    | some (n, v, o) => .ok (.option ⟨o, String.ofList n, some (v, true)⟩ word)
    | none =>
      match c.candidates t with
      | [m] => .ok (.option m word)
      | [] =>
        .ok (if isNegativeNumber t || ' ' ∈ t then .argument word else .unknown word)
      | ms => c.stop (s!"ambiguous option: {word} could match " ++
          String.intercalate ", " (ms.map (·.name)))

/-- Classifies a word before two dashes. -/
def CommandSpec.classifyWord (c : CommandSpec) (word : String) : Except Stop Word :=
  match word.toList with
  | '-' :: _ :: _ => c.classifyDashed word.toList
  | _ => .ok (.argument word)

def CommandSpec.classify (c : CommandSpec) : List String → Except Stop (List Word)
  | [] => .ok []
  | w :: ws =>
    if w = "--" then .ok (.separator :: ws.map .argument)
    else do
      let first ← c.classifyWord w
      let rest ← c.classify ws
      .ok (first :: rest)

/-! ## Taking options and arguments -/

/-- What has been read so far: the flags and values that were given, the arguments, and
the words that nobody asks for. -/
structure Given where
  flags : List String := []
  texts : List (String × String) := []
  numbers : List (String × Int) := []
  arguments : List String := []
  extras : List String := []
  deriving DecidableEq, Repr

namespace Given

def hasFlag (g : Given) (key : String) : Bool := g.flags.contains key

/-- The last value that was given for an option. -/
def text? (g : Given) (key : String) : Option String :=
  (g.texts.reverse.find? (·.1 == key)).map (·.2)

/-- All numbers that were given for an option. -/
def numbersOf (g : Given) (key : String) : List Int :=
  (g.numbers.filter (·.1 == key)).map (·.2)

def argument (g : Given) (index : Nat) : String := (g.arguments[index]?).getD ""

end Given

/-- An option without a value takes effect. -/
def CommandSpec.takeFlag (c : CommandSpec) (o : OptionSpec) (g : Given) :
    Except Stop Given :=
  if o.kind = .help then .error (.help c.help)
    else .ok { g with flags := g.flags ++ [o.key] }

def CommandSpec.takeValue (c : CommandSpec) (o : OptionSpec) (value : String)
    (g : Given) :
    Except Stop Given :=
  if o.kind = .number then
    match Number.integer? value.toList with
    | some n => .ok { g with numbers := g.numbers ++ [(o.key, n)] }
    | none => c.stopAt o s!"invalid int value: {String.ofList (quoted value.toList)}"
  else .ok { g with texts := g.texts ++ [(o.key, value)] }

/-- A word carries a value that its option does not take. -/
def CommandSpec.ignored {α : Type} (c : CommandSpec) (o : OptionSpec) (value : Text) :
    Except Stop α :=
  c.stopAt o s!"ignored explicit argument {String.ofList (quoted value)}"

/-- Short options without values may share one dash: reads those after the first.
The answer is the options of the word and, where one of them is not known, the
rest of the word. -/
def CommandSpec.cluster (c : CommandSpec) (o : OptionSpec) (hasEquals : Bool) :
    Text → Except Stop (List OptionSpec × Option Text)
  | [] => c.ignored o []
  | d :: ds =>
    if hasEquals || d = '-' then c.ignored o (d :: ds)
    else match c.option? ['-', d] with
      | none => .ok ([o], some ('-' :: d :: ds))
      | some following =>
        match ds with
        | [] => .ok ([o, following], none)
        | '=' :: [] => c.ignored following []
        | '=' :: value => c.ignored following value
        | _ => do
          let (os, rest) ← c.cluster following false ds
          .ok (o :: os, rest)

/-- A mentioned option takes effect; `following` are the words after it. The answer tells
how many of these words it uses. -/
def CommandSpec.takeOption (c : CommandSpec) (m : Mention) (following : List Word)
    (g : Given) :
    Except Stop (Given × Nat) :=
  match m.option.takesValue, m.value, following with
  | true, some (value, _), _ => do
    let g ← c.takeValue m.option (String.ofList value) g
    .ok (g, 0)
  | true, none, .argument value :: _ => do
    let g ← c.takeValue m.option value g
    .ok (g, 1)
  | true, none, _ => c.stopAt m.option "expected one argument"
  | false, none, _ => do
    let g ← c.takeFlag m.option g
    .ok (g, 0)
  | false, some (value, hasEquals), _ =>
    if "--".toList.isPrefixOf m.name.toList then c.ignored m.option value
    else do
      let (os, rest) ← c.cluster m.option hasEquals value
      let g : Given := match rest with
        | some t => { g with extras := g.extras ++ [String.ofList t] }
        | none => g
      let g ← os.foldlM (fun g o => c.takeFlag o g) g
      .ok (g, 0)

/-- Takes arguments from words without options, one for each name that is still asked for.
Two dashes go with the argument next to them, and count for nothing there. -/
def takeArguments : List String → List Word → Given → List String × Given
  | [], ws, g => ([], { g with extras := g.extras ++ ws.map Word.text })
  | names, [], g => (names, g)
  | _ :: names, .separator :: .argument t :: ws, g =>
    takeArguments names ws { g with arguments := g.arguments ++ [t] }
  | _ :: names, .argument t :: .separator :: ws, g =>
    takeArguments names ws { g with arguments := g.arguments ++ [t] }
  | _ :: names, .argument t :: ws, g =>
    takeArguments names ws { g with arguments := g.arguments ++ [t] }
  | names, ws, g => (names, { g with extras := g.extras ++ ws.map Word.text })

/-- Takes all words; `names` are the arguments that are still asked for. -/
def CommandSpec.take (c : CommandSpec) (names : List String) (ws : List Word)
    (g : Given) :
    Except Stop Given :=
  match ws with
  | [] =>
    if names.isEmpty then .ok g
    else c.stop ("the following arguments are required: " ++
      String.intercalate ", " names)
  | .option m _ :: rest =>
    match c.takeOption m rest g with
    | .error s => .error s
    | .ok (g, used) => c.take names (rest.drop used) g
  | .unknown t :: rest => c.take names rest { g with extras := g.extras ++ [t] }
  | w :: rest =>
    let (names, g) :=
      takeArguments names (w :: rest.takeWhile fun v => !v.isOption) g
    c.take names (rest.dropWhile fun v => !v.isOption) g
termination_by ws.length
decreasing_by
  · simp only [List.length_drop, List.length_cons]; omega
  · simp
  · have := (List.dropWhile_suffix (l := rest) fun v : Word => !v.isOption).length_le
    simp only [List.length_cons]; omega

/-- Reads the words of a command. -/
def CommandSpec.read (c : CommandSpec) (words : List String) : Except Stop Given := do
  let ws ← c.classify words
  c.take c.arguments ws {}

end CodeWeave.CommandLine
