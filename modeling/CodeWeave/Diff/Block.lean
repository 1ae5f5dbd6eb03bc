import CodeWeave.Diff.Align
import CodeWeave.Text.Lines

/-!
# Tagged diffs

The diff of two texts is a list of blocks of whole lines, each with its origin: only in
the cloud candidate, only in the synthesized file, or in both. Lines keep their endings.
Where lines were replaced, the removed ones come first.

A block stores its origin alone: whether it was added or removed follows from it.
-/

namespace CodeWeave

open Text

/-- Which side a block of a diff comes from. -/
inductive Origin where
  | cloud
  | local
  | merged
  deriving DecidableEq, Repr

namespace Origin

def name : Origin → String
  | cloud => "cloud"
  | .local => "local"
  | merged => "merged"

def ofName? (name : String) : Option Origin :=
  [cloud, .local, merged].find? (·.name == name)

/-- The block is new on the local side. -/
def isAdded (o : Origin) : Bool := o == .local

/-- The block exists on the cloud side only. -/
def isRemoved (o : Origin) : Bool := o == cloud

end Origin

/-- One block of a diff. -/
structure DiffBlock where
  value : Text
  origin : Origin
  deriving DecidableEq, Repr

namespace Diff

/-- A block of lines; no lines make no block. -/
def blockOf (origin : Origin) (ls : List Text) : List DiffBlock :=
  if ls.isEmpty then [] else [⟨ls.flatten, origin⟩]

/-- The blocks of a stretch of the alignment. -/
def Hunk.blocks : Hunk Text → List DiffBlock
  | .kept run => blockOf .merged run
  | .changed removed added => blockOf .cloud removed ++ blockOf .local added

/-- The diff from one text to another, line by line. -/
def between (before after : Text) : List DiffBlock :=
  (align (lines before) (lines after)).flatMap Hunk.blocks

/-! ## Overrides -/

/-- A pin outside the diff. -/
structure PinError where
  pin : Int
  count : Nat
  deriving DecidableEq, Repr

/-- The text of a pin error. -/
def PinError.message (e : PinError) : String :=
  s!"Pinned block {e.pin} is out of range (0..{(e.count : Int) - 1})"

/-- Whether a block stays in the file: blocks of the cloud do not, the others do, and a
pin reverses that for every block but a merged one. -/
def keeps (pinned : Bool) (origin : Origin) : Bool :=
  match origin with
  | .merged => true
  | .cloud => pinned
  | .local => !pinned

/-- The blocks that stay, for a diff whose first block has the number `start`. -/
def keptFrom (pins : List Int) (start : Nat) : List DiffBlock → List DiffBlock
  | [] => []
  | b :: bs =>
    if keeps (pins.contains (start : Int)) b.origin then b :: keptFrom pins (start + 1) bs
    else keptFrom pins (start + 1) bs

/-- The blocks that stay under the pins. -/
def kept (diff : List DiffBlock) (pins : List Int) : List DiffBlock :=
  keptFrom pins 0 diff

/-- The file that a diff and pinned blocks make. Of several pins out of range the error
names the first of the list. The pins are meant as a set, so nothing may rely on which
of them that is. -/
def applyPins (diff : List DiffBlock) (pins : List Int) : Except PinError Text :=
  match pins.find? fun p => p < 0 || (diff.length : Int) ≤ p with
  | some p => .error ⟨p, diff.length⟩
  | none => .ok ((kept diff pins).flatMap (·.value))

/-! ## Printing -/

/-- How the lines of a block are marked. -/
def lineMark : Origin → Text
  | .local => "+ ".toList
  | .cloud => "- ".toList
  | .merged => "  ".toList

/-- The header of the block with the given number. -/
def header (index : Nat) (origin : Origin) : Text :=
  s!"@@ {index} {origin.name} @@".toList

/-- The printed lines of a block. -/
def blockLines (index : Nat) (b : DiffBlock) : List Text :=
  header index b.origin :: (bareLines b.value).map (lineMark b.origin ++ ·)

/-- The printed lines of a diff whose first block has the number `start`. -/
def printedLinesFrom (start : Nat) : List DiffBlock → List Text
  | [] => []
  | b :: bs => blockLines start b ++ printedLinesFrom (start + 1) bs

/-- The diff as it is printed: each block under its header, its lines marked
by their origin. -/
def print (diff : List DiffBlock) : Text := ['\n'].intercalate (printedLinesFrom 0 diff)

end Diff

end CodeWeave
