import CodeWeave.Json.Value
import CodeWeave.Text.CodePoint

/-!
# JSON documents

What a JSON text says. A document is a value whose strings are wide, since a text can
spell half of a character. Where the strings of a program hold characters only, a document
is taken as the value that shows it.
-/

namespace CodeWeave

/-- The value that a JSON text spells. -/
inductive Document where
  | null
  | bool (b : Bool)
  | int (i : Int)
  | real (x : Binary64)
  | str (w : WideText)
  | arr (items : List Document)
  | obj (fields : List (WideText × Document))
  deriving Repr, Inhabited

namespace Document

def str? : Document → Option WideText
  | str w => some w
  | _ => none

/-- The texts of a list of nothing but texts. -/
def strings? : Document → Option (List WideText)
  | arr items => items.mapM str?
  | _ => none

/-- A list of texts as a document. -/
def ofStrings (ws : List WideText) : Document := arr (ws.map str)

mutual

/-- The value that shows a document. -/
def json : Document → Json
  | null => .null
  | bool b => .bool b
  | int i => .int i
  | real x => .real x
  | str w => .str w.shown
  | arr items => .arr (jsonItems items)
  | obj fields => .obj (jsonFields fields)

/-- The items of a list. -/
def jsonItems : List Document → List Json
  | [] => []
  | d :: ds => json d :: jsonItems ds

/-- The fields of an object. -/
def jsonFields : List (WideText × Document) → List (String × Json)
  | [] => []
  | (k, d) :: fs => (k.shown, json d) :: jsonFields fs

end

end Document

end CodeWeave
