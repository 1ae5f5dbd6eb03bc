import CodeWeave.Failure
import CodeWeave.Path
import CodeWeave.Text.Utf8

/-!
# A tree of files

A disk holds directories and files at absolute locations; the root is always a directory.
There are no links, so a location is found by its components alone. Looking something up,
making a directory and writing a file fail as the operating system lets them fail, and
name the path that they were asked for.
-/

namespace CodeWeave

open Text

/-- An absolute location, component by component. -/
abbrev Location := List Text

/-- What is at a location. -/
inductive Entry where
  | directory
  | file (bytes : List UInt8)
  deriving DecidableEq, Repr

/-- The directories and files of a disk. -/
structure Disk where
  entries : List (Location × Entry) := []
  deriving DecidableEq, Repr

/-- Why the disk refuses. -/
inductive DiskFault where
  | missing (path : Text)
  | alreadyThere (path : Text)
  | isDirectory (path : Text)
  | notDirectory (path : Text)
  | nameTooLong (path : Text)
  | nullInPath
  | noHome
  | undecodable (fault : DecodeFault)
  deriving DecidableEq, Repr

namespace Location

def path (l : Location) : Text := '/' :: ['/'].intercalate l

/-- The first location comes before the second in the order of their components. -/
def precedes (l m : Location) : Bool := l.lex m Text.precedes

/-- Where a written path leads from a directory; two dots lead up. -/
def resolve (base : Location) (path : Text) : Location :=
  (Path.components path).foldl (fun l c => if c = ['.', '.'] then l.dropLast
    else l ++ [c])
    (if Path.isAbsolute path then [] else base)

end Location

namespace DiskFault

/-- The number and the words of a refusal of the operating system. -/
def systemMessage (number : Nat) (words : String) (path : Text) : String :=
  s!"[Errno {number}] {words}: " ++ String.ofList (quoted path)

def message : DiskFault → String
  | missing path => systemMessage 2 "No such file or directory" path
  | alreadyThere path => systemMessage 17 "File exists" path
  | isDirectory path => systemMessage 21 "Is a directory" path
  | notDirectory path => systemMessage 20 "Not a directory" path
  | nameTooLong path => systemMessage 36 "File name too long" path
  | nullInPath => "embedded null byte"
  | noHome => "Could not determine home directory."
  | undecodable fault => fault.message

/-- The kind of failure that a fault is. -/
def kind : DiskFault → FailureKind
  | missing _ => .fileMissing
  | alreadyThere _ => .fileExists
  | isDirectory _ => .isDirectory
  | notDirectory _ => .notDirectory
  | nameTooLong _ => .nameTooLong
  | nullInPath => .value
  | noHome => .runtime
  | undecodable _ => .undecodable

def failure (f : DiskFault) : Failure := ⟨f.kind, f.message, [], 0⟩

end DiskFault

namespace Disk

def entry? (d : Disk) (l : Location) : Option Entry :=
  if l = [] then some .directory else (d.entries.find? (·.1 == l)).map (·.2)

/-- Puts something at a location, in place of what is there. -/
def put (d : Disk) (l : Location) (e : Entry) : Disk :=
  if d.entries.any (·.1 == l) then
    ⟨d.entries.map fun f => if f.1 == l then (l, e) else f⟩
  else ⟨d.entries ++ [(l, e)]⟩

/-- There is a directory at the location. -/
def hasDirectory (d : Disk) (l : Location) : Bool := d.entry? l == some .directory

/-- The bytes of the file at a location. -/
def file? (d : Disk) (l : Location) : Option (List UInt8) :=
  match d.entry? l with
  | some (.file bytes) => some bytes
  | _ => none

def files (d : Disk) : List (Location × List UInt8) :=
  d.entries.filterMap fun (l, e) => match e with
    | .file bytes => some (l, bytes)
    | .directory => none

/-- Makes a directory and all directories above it, whatever is there. -/
def addDirectory (d : Disk) (l : Location) : Disk :=
  (List.range l.length).foldl (fun d n =>
    if d.hasDirectory (l.take (n + 1)) then d else d.put (l.take (n + 1)) .directory) d

/-- Puts a file at a location and makes the directories above it. -/
def addFile (d : Disk) (l : Location) (bytes : List UInt8) : Disk :=
  (d.addDirectory l.dropLast).put l (.file bytes)

/-! ## Finding -/

/-- The longest name that a component may have, in bytes. -/
def maxNameBytes : Nat := 255

/-- The longest path, in bytes. -/
def maxPathBytes : Nat := 4095

/-- The component is longer than a name may be. -/
def isTooLong (name : Text) : Bool := maxNameBytes < (utf8 name).length

/-- Follows components from a directory, all of which must be directories; `asked` is the
path that faults name. -/
def followFrom (d : Disk) (asked : Text) (base : Location) :
    List Text → Except DiskFault Location
  | [] => .ok base
  | c :: cs =>
    if c = ['.', '.'] then followFrom d asked base.dropLast cs
    else if isTooLong c then .error (.nameTooLong asked)
    else match d.entry? (base ++ [c]) with
      | some .directory => followFrom d asked (base ++ [c]) cs
      | some (.file _) => .error (.notDirectory asked)
      | none => .error (.missing asked)

/-- Follows components of a path that is not too long as a whole. -/
def follow (d : Disk) (asked : Text) (base : Location) (components : List Text) :
    Except DiskFault Location :=
  if maxPathBytes < (utf8 asked).length then .error (.nameTooLong asked)
  else d.followFrom asked base components

/-- What a look-up finds. Only a name or a path that is too long is a fault; what is not
there, or not below a directory, is not found. -/
def found {α : Type} (r : Except DiskFault (Option α)) : Except DiskFault (Option α) :=
  match r with
  | .error (.missing _) => .ok none
  | .error (.notDirectory _) => .ok none
  | r => r

/-- There is a directory at the location. -/
def isDirectoryAt (d : Disk) (l : Location) : Except DiskFault Bool :=
  (found ((d.follow l.path [] l).map some)).map Option.isSome

/-- The bytes of the file that a written path names, from a directory. Every directory
that the path goes through has to be there, also one that two dots leave again. -/
def fileAtPath? (d : Disk) (base : Location) (path : Text) :
    Except DiskFault (Option (List UInt8)) :=
  let asked := Path.normal path
  let components := Path.components path
  match components.getLast? with
  | none => .ok none
  | some last =>
    if '\x00' ∈ path then .ok none
    else found do
      let directory ← d.follow asked (if Path.isAbsolute path then [] else base)
          components.dropLast
      if last = ['.', '.'] then .ok none
      else if isTooLong last then .error (.nameTooLong asked)
      else .ok (d.file? (directory ++ [last]))

/-! ## Changing -/

/-- Makes one directory. -/
def makeDirectory (d : Disk) (l : Location) : Except DiskFault Disk :=
  match l.getLast? with
  | none => .error (.alreadyThere l.path)
  | some name => do
    let parent ← d.follow l.path [] l.dropLast
    if isTooLong name then .error (.nameTooLong l.path)
    else match d.entry? (parent ++ [name]) with
      | some _ => .error (.alreadyThere l.path)
      | none => .ok (d.put l .directory)

/-- Makes one directory if nothing is missing above it, or takes the one that is there. -/
def ensureLast (d : Disk) (l : Location) : Disk × Option DiskFault :=
  match d.makeDirectory l with
  | .ok d => (d, none)
  | .error f => if d.hasDirectory l then (d, none) else (d, some f)

/-- Makes a directory and those missing above it, or takes the one that is there. What was
made before a fault stays. -/
def ensureDirectory (d : Disk) (l : Location) : Disk × Option DiskFault :=
  match l, d.makeDirectory l with
  | _, .ok d => (d, none)
  | c :: cs, .error (.missing _) =>
    match ensureDirectory d (c :: cs).dropLast with
    | (d, none) => d.ensureLast l
    | (d, some f) => (d, some f)
  | _, .error f => if d.hasDirectory l then (d, none) else (d, some f)
termination_by l.length
decreasing_by simp

/-- Writes a file whose directory is there. -/
def writeFile (d : Disk) (l : Location) (bytes : List UInt8) : Except DiskFault Disk :=
  match l.getLast? with
  | none => .error (.isDirectory l.path)
  | some name => do
    let parent ← d.follow l.path [] l.dropLast
    if isTooLong name then .error (.nameTooLong l.path)
    else match d.entry? (parent ++ [name]) with
      | some .directory => .error (.isDirectory l.path)
      | _ => .ok (d.put l (.file bytes))

end Disk

end CodeWeave
