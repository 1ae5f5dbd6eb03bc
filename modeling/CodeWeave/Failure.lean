import CodeWeave.Json.Display

/-!
# Failures

A failure has a kind, which decides who handles it, and a message. Kinds form a tree:
`lineage` lists a kind and everything above it, and a handler for one kind takes all below
it. An interruption and a request to exit stand outside the tree of ordinary failures, so
no handler of those takes them.
-/

namespace CodeWeave

/-- What kind of failure happened. -/
inductive FailureKind where
  /-- Any ordinary failure. -/
  | ordinary
  /-- An agent could not do its work. -/
  | agent
  | planning
  | generation
  | deployment
  /-- The build pipeline could not run. -/
  | orchestration
  | assembly
  /-- The pipeline took more steps than it may. -/
  | stepLimit
  /-- A setting cannot be used. -/
  | configuration
  /-- The operating system refused. -/
  | system
  | fileMissing
  | fileExists
  | isDirectory
  | notDirectory
  | nameTooLong
  /-- A request got no response. -/
  | request
  | connection
  | timeout
  | httpStatus
  /-- A value of the right type that makes no sense. -/
  | value
  | validation
  | undecodable
  /-- A value without the part that is asked for. -/
  | missingPart
  | wrongType
  | missingKey
  | outOfRange
  | runtime
  | interruption
  | exit
  deriving DecidableEq, Repr, Inhabited

namespace FailureKind

/-- A kind and all kinds above it. -/
def lineage : FailureKind → List FailureKind
  | ordinary => [ordinary]
  | agent => [agent, ordinary]
  | planning => [planning, agent, ordinary]
  | generation => [generation, agent, ordinary]
  | deployment => [deployment, agent, ordinary]
  | orchestration => [orchestration, ordinary]
  | assembly => [assembly, orchestration, ordinary]
  | stepLimit => [stepLimit, runtime, ordinary]
  | configuration => [configuration, value, ordinary]
  | system => [system, ordinary]
  | fileMissing => [fileMissing, system, ordinary]
  | fileExists => [fileExists, system, ordinary]
  | isDirectory => [isDirectory, system, ordinary]
  | notDirectory => [notDirectory, system, ordinary]
  | nameTooLong => [nameTooLong, system, ordinary]
  | request => [request, system, ordinary]
  | connection => [connection, request, system, ordinary]
  | timeout => [timeout, request, system, ordinary]
  | httpStatus => [httpStatus, request, system, ordinary]
  | value => [value, ordinary]
  | validation => [validation, value, ordinary]
  | undecodable => [undecodable, value, ordinary]
  | missingPart => [missingPart, ordinary]
  | wrongType => [wrongType, ordinary]
  | missingKey => [missingKey, ordinary]
  | outOfRange => [outOfRange, ordinary]
  | runtime => [runtime, ordinary]
  | interruption => [interruption]
  | exit => [exit]

/-- A handler for `other` takes failures of this kind. -/
def isA (kind other : FailureKind) : Bool := kind.lineage.contains other

end FailureKind

/-- One thing that is wrong with the data of a record: where, which rule, and
what the rule says. -/
structure Issue where
  location : List String
  rule : String
  text : String
  deriving DecidableEq, Repr

/-- A failure: its kind and its message. The issues of invalid data and the code of an
exit come with it. -/
structure Failure where
  kind : FailureKind
  message : String
  issues : List Issue := []
  code : Int := 0
  deriving DecidableEq, Repr, Inhabited

namespace Failure

/-- A handler for `kind` takes the failure. -/
def isA (f : Failure) (kind : FailureKind) : Bool := f.kind.isA kind

/-- The failure of looking up a key that is not there. -/
def ofMissingKey (key : String) : Failure :=
  ⟨.missingKey, String.ofList (Text.quoted key.toList), [], 0⟩

/-- The failure of asking a value for a part that its type does not have. -/
def ofMissingPart (v : Json) (part : String) : Failure :=
  ⟨.missingPart, s!"'{v.typeName}' object has no attribute '{part}'", [], 0⟩

/-- The failure of looking up a key in a value that has no keys. -/
def ofSubscript (v : Json) : Failure :=
  ⟨.wrongType, match v with
    | .arr _ => "list indices must be integers or slices, not str"
    | .str _ => "string indices must be integers, not 'str'"
    | v => s!"'{v.typeName}' object is not subscriptable", [], 0⟩

/-- The program ends with a code. -/
def ofExit (code : Int) : Failure := ⟨.exit, toString code, [], code⟩

end Failure

namespace Json

/-- The value of a field that must be there. -/
def lookup (key : String) : Json → Except Failure Json
  | obj fields => match field? fields key with
    | some v => .ok v
    | none => .error (.ofMissingKey key)
  | v => .error (.ofSubscript v)

/-- The value of a field, if there is one, of a value that must be an object. -/
def lookup? (key : String) : Json → Except Failure (Option Json)
  | obj fields => .ok (field? fields key)
  | v => .error (.ofMissingPart v "get")

end Json

end CodeWeave
