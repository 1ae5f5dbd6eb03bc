import CodeWeave.Failure

/-!
# Shapes of records

The data of a record has a shape: for each field its name, its own shape, and what it
holds when it is not given. `Shape.check` gives the record with all its fields in their
order, or everything that is wrong with it. Fields that the shape does not name are
dropped. A record may have a rule about its fields together, which is asked only if each
of them is right by itself.

A record that was checked is read with `Json.textAt` and its kin, which need no
error of their own.
-/

namespace CodeWeave

/-- The shape of a value. -/
inductive Shape where
  | text
  | flag
  | whole
  /-- One of some texts; `described` lists them in words. -/
  | choice (options : List String) (described : String)
  | optional (shape : Shape)
  | list (shape : Shape)
  /-- A record: its fields with their shapes and defaults, and a rule that tells what is
  wrong with them together. -/
  | record (name : String) (fields : List (String × Shape × Option Json))
      (rule : List (String × Json) → Option String)

namespace Shape

/-- A value, or what is wrong with it. -/
abbrev Checked (α : Type) := Except (List Issue) α

/-- One issue at a place. -/
def issue {α : Type} (location : List String) (rule text : String) : Checked α :=
  .error [⟨location, rule, text⟩]

/-- Checks each item of a list, and gathers the issues of all of them. -/
def checkItems (check : List String → Json → Checked Json) (location : List String)
    (index : Nat) :
    List Json → Checked (List Json)
  | [] => .ok []
  | v :: vs =>
    match check (location ++ [toString index]) v,
      checkItems check location (index + 1) vs with
    | .ok w, .ok ws => .ok (w :: ws)
    | .ok _, .error es => .error es
    | .error es, .ok _ => .error es
    | .error es, .error fs => .error (es ++ fs)

mutual

/-- Checks a value at a place. -/
def check (location : List String) : Shape → Json → Checked Json
  | text, v => match v with
    | .str s => .ok (.str s)
    | _ => issue location "string_type" "Input should be a valid string"
  | flag, v => match v with
    | .bool b => .ok (.bool b)
    | _ => issue location "bool_type" "Input should be a valid boolean"
  | whole, v => match v with
    | .int i => .ok (.int i)
    | _ => issue location "int_type" "Input should be a valid integer"
  | choice options described, v => match v with
    | .str s =>
      if options.contains s then .ok (.str s)
      else issue location "enum" s!"Input should be {described}"
    | _ => issue location "enum" s!"Input should be {described}"
  | optional shape, v => match v with
    | .null => .ok .null
    | v => check location shape v
  | list shape, v => match v with
    | .arr items => (checkItems (fun l v => check l shape v) location 0 items).map .arr
    | _ => issue location "list_type" "Input should be a valid list"
  | record name fields rule, v => match v with
    | .obj given => do
      let values ← checkFields location given fields
      match rule values with
      | some reason => issue location "value_error" s!"Value error, {reason}"
      | none => .ok (.obj values)
    | _ =>
      issue location "model_type"
        s!"Input should be a valid dictionary or instance of {name}"

/-- Checks the fields of a record against what is given. -/
def checkFields (location : List String) (given : List (String × Json)) :
    List (String × Shape × Option Json) → Checked (List (String × Json))
  | [] => .ok []
  | (name, shape, fallback) :: fields =>
    let value := match Json.field? given name, fallback with
      | some v, _ => check (location ++ [name]) shape v
      | none, some v => .ok v
      | none, none => issue (location ++ [name]) "missing" "Field required"
    match value, checkFields location given fields with
    | .ok w, .ok ws => .ok ((name, w) :: ws)
    | .ok _, .error es => .error es
    | .error es, .ok _ => .error es
    | .error es, .error fs => .error (es ++ fs)

end

/-! ## Records that a shape describes -/

/-- A record without a rule about its fields together. -/
def plain (name : String) (fields : List (String × Shape × Option Json)) : Shape :=
  record name fields fun _ => none

/-- A field that must be given. -/
def required (name : String) (shape : Shape) : String × Shape × Option Json :=
  (name, shape, none)

/-- A field with a default. -/
def defaulted (name : String) (shape : Shape) (value : Json) :
    String × Shape × Option Json :=
  (name, shape, some value)

/-- The failure of a record with the given issues. -/
def failure (issues : List Issue) : Failure :=
  ⟨.validation, String.intercalate "\n" (issues.map fun i =>
    String.intercalate "." i.location ++ ": " ++ i.text), issues, 0⟩

/-- Sets one field of a record that stands in `fields`. The value is not checked; a record
that cannot be changed refuses, and so does one without the field. -/
def assign (name : String) (changeable : Bool) (fields : List (String × Json))
    (field : String) (value : Json) : Except Failure (List (String × Json)) :=
  if !changeable
    then .error (failure [⟨[field], "frozen_instance", "Instance is frozen"⟩])
  else if (Json.field? fields field).isNone then
    .error ⟨.value, s!"\"{name}\" object has no field \"{field}\"", [], 0⟩
  else .ok (Json.setField fields field value)

end Shape

/-! ## Reading a checked record -/

namespace Json

/-- A text of a record, empty without one. -/
def textAt (v : Json) (key : String) : String := ((v.get? key).bind str?).getD ""

/-- A text of a record that may be missing. -/
def textAt? (v : Json) (key : String) : Option String := (v.get? key).bind str?

def flagAt (v : Json) (key : String) : Bool :=
  match v.get? key with
  | some (bool b) => b
  | _ => false

/-- The items of a list in a record. -/
def itemsAt (v : Json) (key : String) : List Json :=
  match v.get? key with
  | some (arr items) => items
  | _ => []

/-- A source text as a value. -/
def ofText (t : Text) : Json := str (String.ofList t)

end Json

end CodeWeave
