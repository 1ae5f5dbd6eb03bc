import CodeWeave.Json.Value
import CodeWeave.Number.Shortest
import CodeWeave.Text.Quoted

/-!
# Values in messages

How a value reads where a text is expected: a text as itself, any other value in brackets,
words and numbers, with the texts inside a list or an object in quotes.
-/

namespace CodeWeave.Json

open Text

/-- Numbers with a fraction, with the words of messages. -/
def displayLayout : Shortest.Layout := ⟨-4, 15, 2, "nan", "inf"⟩

mutual

/-- A value inside another one. -/
def displayInside : Json → Text
  | null => "None".toList
  | bool true => "True".toList
  | bool false => "False".toList
  | int i => (toString i).toList
  | real x => displayLayout.write x
  | str s => quoted s.toList
  | arr items => '[' :: (", ".toList).intercalate (displayItems items) ++ [']']
  | obj fields => '\x7b' :: (", ".toList).intercalate (displayFields fields) ++ ['\x7d']

/-- The items of a list. -/
def displayItems : List Json → List Text
  | [] => []
  | v :: vs => displayInside v :: displayItems vs

/-- The fields of an object. -/
def displayFields : List (String × Json) → List Text
  | [] => []
  | (k, v) :: fs =>
    (quoted k.toList ++ ": ".toList ++ displayInside v) :: displayFields fs

end

def display : Json → String
  | str s => s
  | v => String.ofList (displayInside v)

/-- The name of a value's type in messages. -/
def typeName : Json → String
  | null => "NoneType"
  | bool _ => "bool"
  | int _ => "int"
  | real _ => "float"
  | str _ => "str"
  | arr _ => "list"
  | obj _ => "dict"

end CodeWeave.Json
