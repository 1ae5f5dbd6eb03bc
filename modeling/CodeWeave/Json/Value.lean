import CodeWeave.Number.Binary64

/-!
# JSON values

A JSON value keeps the order of an object's fields. Whole numbers are unbounded; a number
with a fraction or an exponent is a binary one.
-/

namespace CodeWeave

/-- A JSON value. -/
inductive Json where
  | null
  | bool (b : Bool)
  | int (i : Int)
  | real (x : Binary64)
  | str (s : String)
  | arr (items : List Json)
  | obj (fields : List (String × Json))
  deriving Repr, Inhabited, BEq

namespace Json

/-- Sets a field: in its place if the object has it, at the end otherwise. -/
def setField {κ α : Type} [BEq κ] (fields : List (κ × α)) (key : κ) (value : α) :
    List (κ × α) :=
  if fields.any (·.1 == key) then fields.map fun f => if f.1 == key
    then (key, value) else f
  else fields ++ [(key, value)]

def field? (fields : List (String × Json)) (key : String) : Option Json :=
  (fields.find? (·.1 == key)).map (·.2)

/-- The value of a field of an object. -/
def get? (key : String) : Json → Option Json
  | obj fields => field? fields key
  | _ => none

def str? : Json → Option String
  | str s => some s
  | _ => none

/-- A text, or null without one. -/
def ofOption : Option String → Json
  | some s => str s
  | none => null

/-- A list of texts as a value. -/
def ofStrings (ss : List String) : Json := arr (ss.map str)

/-- A value counts as nothing if it is null, false, zero, or empty. -/
def isNothing : Json → Bool
  | null => true
  | bool b => !b
  | int i => i == 0
  | real x => x.isZero
  | str s => s.isEmpty
  | arr items => items.isEmpty
  | obj fields => fields.isEmpty

end Json

end CodeWeave
