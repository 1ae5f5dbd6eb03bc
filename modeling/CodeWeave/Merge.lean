import CodeWeave.Distinct
import CodeWeave.Redaction.Redact
import CodeWeave.Segment

/-!
# Merging two candidates

The imports of both candidates are united. The body follows one policy, the first
rule that applies:

* the cloud body has a try block and the local body is long enough: the first try block
keeps its frame, and the local body takes its interior if that body is secured;
* the local body is secured: it takes the place of the cloud body;
* otherwise the cloud body stays.

The file is assembled around one default component.
-/

namespace CodeWeave

open Text

/-- What the merge of two bodies depends on. -/
structure MergePolicy where
  hasTryCatch : Bool := false
  isLocalSecured : Bool := false
  deriving DecidableEq, Repr

/-- A text cut at its first try block. -/
structure TryBlock where
  before : Text
  interior : Text
  after : Text
  deriving DecidableEq, Repr

namespace Merge

/-- The lines of both lists, each once, in the order of their first occurrence. -/
def imports (cloud loc : List Text) : List Text :=
  distinct (cloud ++ loc)

/-! ## Try blocks -/

/-- What follows the end of a try block: a closing brace and, after white
space, `catch`. -/
def readCatch (t : Text) : Option Text := do
  let r ← skip "\x7d".toList t
  skip "catch".toList (trimStart r)

/-- The interior of the try block at the head of the text, as short as possible, and what
follows the block. -/
def cutTry (t : Text) : Option (Text × Text) := do
  let r ← skip "try".toList t
  let r ← skip "\x7b".toList (trimStart r)
  shortest readCatch r

/-- The first try block of a text. -/
def tryBlock? (t : Text) : Option TryBlock :=
  (findFirst cutTry t).map fun (before, interior, after) => ⟨before, interior, after⟩

/-! ## The body -/

def policy (cloud loc : Segments) : MergePolicy where
  hasTryCatch := (tryBlock? cloud.body).isSome
  isLocalSecured := isSecured loc.body

/-- A local body enters a try block only if it is longer than this. -/
def minLocalLength : Nat := 10

/-- Marks local logic inside the error boundary of the cloud. -/
def prioritizedMarker : Text := "// SECURITY-PRIORITIZED LOCAL LOGIC".toList

/-- Marks local logic that takes the place of the cloud body. -/
def overrideMarker : Text := "// SECURITY OVERRIDE: Local sanitization prioritized".toList

/-- The interior of a try block that holds local logic. -/
def prioritized (loc : Text) : Text :=
  "\n    ".toList ++ prioritizedMarker ++ "\n    ".toList ++ loc ++ "\n  ".toList

def body (cloud loc : Segments) : Text :=
  let secured := isSecured loc.body
  match tryBlock? cloud.body with
  | some b =>
    if minLocalLength < loc.body.length then
      b.before ++ "try \x7b".toList ++ (if secured then prioritized loc.body
        else b.interior) ++
        "\x7d catch".toList ++ b.after
    else if secured then overrideMarker ++ '\n' :: loc.body
    else cloud.body
  | none => if secured then overrideMarker ++ '\n' :: loc.body else cloud.body

/-! ## The file -/

/-- The exports that are written after the component: those that do not
mention `default`. -/
def namedExports (exports : List Text) : List Text :=
  exports.filter fun line => !contains "default".toList line

def componentHead : Text := "\n\nexport default function App() \x7b\n  ".toList

def componentFoot : Text := "\n\x7d\n\n".toList

/-- The file: the imports, the component around the body, the named exports. -/
def assemble (imports : List Text) (body : Text) (exports : List Text) : Text :=
  ['\n'].intercalate imports ++ componentHead ++ body ++ componentFoot ++
    ['\n'].intercalate (namedExports exports)

end Merge

end CodeWeave
