import CodeWeave.Record.Shape
import CodeWeave.Synthesis

/-!
# Records of a synthesis

How the blocks of a diff, the regions of a candidate, the merge policy and a synthesized
file are written as records. A diff block is written with its origin and with the two
flags that follow from it; a record whose flags say something else is refused by
`Shape.diffBlockRule`.
-/

namespace CodeWeave

/-! ## Shapes -/

namespace Shape

/-- How a flag reads in a message. -/
def flagWord (b : Bool) : String := if b then "True" else "False"

/-- A diff block is not both added and removed, and its origin says
which of them it is. -/
def diffBlockRule (fields : List (String × Json)) : Option String :=
  match Json.field? fields "added", Json.field? fields "removed",
    Json.field? fields "origin" with
  | some (.bool added), some (.bool removed), some (.str origin) =>
    let expected : Origin := if added then .local else if removed then .cloud else .merged
    if added && removed then some "a diff block cannot be both added and removed"
    else if origin = expected.name then none
    else some (s!"origin '{origin}' does not match added={flagWord added}, " ++
      s!"removed={flagWord removed}")
  | _, _, _ => none

/-- The shape of a diff block. -/
def diffBlock : Shape :=
  record "DiffLine"
    [required "value" text, defaulted "added" flag (.bool false),
     defaulted "removed" flag (.bool false),
     defaulted "origin" (choice ["cloud", "local", "merged"]
       "'cloud', 'local' or 'merged'")
       (.str "merged")]
    diffBlockRule

/-- The shape of the regions of a candidate. -/
def segments : Shape :=
  plain "SegmentSet"
    [defaulted "imports" (list text) (.arr []), defaulted "exports" (list text) (.arr []),
     defaulted "hooks" (list text) (.arr []), defaulted "body" text (.str "")]

/-- The shape of a merge policy. -/
def mergePolicy : Shape :=
  plain "MergePolicyState"
    [defaulted "has_try_catch" flag (.bool false), defaulted "is_local_secured" flag
      (.bool false)]

/-- The shape of a synthesized file. -/
def synthesis : Shape :=
  plain "SynthesisResult" [required "code" text,
    defaulted "diff" (list diffBlock) (.arr [])]

end Shape

/-! ## Records -/

namespace DiffBlock

def toRecord (b : DiffBlock) : Json :=
  .obj [("value", .ofText b.value), ("added", .bool b.origin.isAdded),
    ("removed", .bool b.origin.isRemoved), ("origin", .str b.origin.name)]

def ofRecord (v : Json) : DiffBlock :=
  ⟨(v.textAt "value").toList, (Origin.ofName? (v.textAt "origin")).getD .merged⟩

end DiffBlock

/-- The synthesized file as a record. -/
def Synthesis.toRecord (s : Synthesis) : Json :=
  .obj [("code", .ofText s.code), ("diff", .arr (s.diff.map DiffBlock.toRecord))]

end CodeWeave
