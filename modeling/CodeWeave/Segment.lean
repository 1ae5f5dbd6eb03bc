import CodeWeave.Text.Scan
import CodeWeave.Text.Word

/-!
# Segments of a candidate

A candidate falls into import lines, export lines, state hooks and the body of its
component. The rules look at text, not at syntax: a statement is one physical line that
starts with its keyword and ends with a semicolon, and the body of the default component
extends to the last closing brace of the text. Without such a component the body is the
text less its statements.

`clearStatements` and `statements` are two views of one filter on lines, `statement?`.
-/

namespace CodeWeave

open Text

/-- The regions of one candidate. -/
structure Segments where
  imports : List Text := []
  exports : List Text := []
  hooks : List Text := []
  body : Text := []
  deriving DecidableEq, Repr

namespace Segment

/-! ## Statements on a line -/

/-- The keyword of an import line. -/
def importWord : Text := "import".toList

/-- The keyword of an export line. -/
def exportWord : Text := "export".toList

/-- The line without one carriage return at its end. -/
def dropReturn (line : Text) : Text :=
  if line.getLast? = some '\r' then line.dropLast else line

/-- The statement that a line, given without its line feed, consists of: it starts
with the keyword, ends with a semicolon and holds no carriage return, apart from one
that may follow it. -/
def statement? (keyword line : Text) : Option Text :=
  let s := dropReturn line
  if keyword.isPrefixOf s ∧ s.getLast? = some ';' ∧ '\r' ∉ s then some s else none

/-- The physical lines of a text. -/
def physicalLines (t : Text) : List Text := t.splitOn '\n'

/-- The statements of a text, line by line. -/
def statements (keyword t : Text) : List Text :=
  (physicalLines t).filterMap (statement? keyword)

/-- A line without its statement; a carriage return after it stays. -/
def clearLine (keyword line : Text) : Text :=
  match statement? keyword line with
  | some s => line.drop s.length
  | none => line

/-- The text in which every statement is emptied. -/
def clearStatements (keyword t : Text) : Text :=
  ['\n'].intercalate ((physicalLines t).map (clearLine keyword))

/-! ## State hooks -/

/-- What follows the declaration of a state hook at the head of the text:
`const [...] = useState(...);` with each bracket as far to the right on its
line as possible. -/
def readHook (t : Text) : Option Text := do
  let r ← skip "const".toList t
  let r ← skipBlanks r
  let r ← skip "[".toList r
  longest (· == '\n') (fun r => do
    let r ← skip "]".toList r
    let r ← skip "=".toList (trimStart r)
    let r ← skip "useState(".toList (trimStart r)
    longest (· == '\n') (skip ");".toList) r) r

/-- The pattern of a state hook. -/
def hook : Pattern := .ofReader readHook

/-! ## The default component -/

/-- The interior of the default component that starts at the head of the text: its
parameters end at the last parenthesis of the line that an opening brace follows, and it
ends at the last closing brace of the text. -/
def componentInterior? (t : Text) : Option Text := do
  let r ← skip "export".toList t
  let r ← skipBlanks r
  let r ← skip "default".toList r
  let r ← skipBlanks r
  let r ← skip "function".toList r
  let r ← skipBlanks r
  if (r.takeWhile isWord).isEmpty then none
  else
    let r ← skip "(".toList (trimStart (r.dropWhile isWord))
    longest (· == '\n') (fun r => do
      let r ← skip ")".toList r
      let r ← skip "\x7b".toList (trimStart r)
      beforeLast '\x7d' r) r

/-- The interior of the first default component. -/
def component? (t : Text) : Option Text := (findFirst componentInterior? t).map (·.2)

/-- The body of a candidate: the interior of its default component, or the text less
its import and export lines. -/
def body (t : Text) : Text :=
  match component? t with
  | some interior => strip interior
  | none => strip (clearStatements exportWord (clearStatements importWord t))

end Segment

open Segment in
def segment (t : Text) : Segments where
  imports := statements importWord t
  exports := statements exportWord t
  hooks := hook.hits t
  body := body t

end CodeWeave
