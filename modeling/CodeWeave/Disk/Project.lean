import CodeWeave.Disk.Tree
import CodeWeave.Project.Record
import CodeWeave.Text.Lines

/-!
# Projects on disk

Generated files are written below one directory. A path that goes up or leads out of the
directory is passed over, so nothing outside it changes. A directory is read back as a
project: every file below it that is not hidden, in the order of their components.
-/

namespace CodeWeave.Disk

open Text

/-- Where the home directories are: the own one, and those of the accounts that
are known by name. -/
structure Homes where
  own : Location
  others : List (Text × Location) := []

instance : Coe Location Homes := ⟨fun own => { own }⟩

/-- The home directory of the account with a name, and the own one without a name. -/
def Homes.of? (h : Homes) (name : Text) : Option Location :=
  if name.isEmpty then some h.own else (h.others.find? (·.1 == name)).map (·.2)

/-- Where a program stands on the disk. -/
structure Standing where
  home : Homes
  current : Location

/-- The location of a directory that is given by a path; a tilde stands for the home
directory of the account that is named behind it. -/
def outputLocation (s : Standing) (path : Text) : Except DiskFault Location :=
  let place : Except DiskFault Location :=
    match Path.components path with
    | ('~' :: name) :: rest =>
      if Path.isAbsolute path then .ok (Location.resolve s.current path)
      else match s.home.of? name with
        | some home => .ok (Location.resolve home (['/'].intercalate rest))
        | none => .error (if '\x00' ∈ name then .nullInPath else .noHome)
    | _ => .ok (Location.resolve s.current path)
  match place with
  | .error f => .error f
  | .ok l => if '\x00' ∈ path then .error .nullInPath else .ok l

/-- Whether a location is another one or below it. -/
def isBelow (root l : Location) : Bool := root.isPrefixOf l

/-- A path goes up somewhere. -/
def goesUp (path : Text) : Bool := (Path.components path).contains ['.', '.']

/-- Writes one file below a directory. The answer tells whether it was written. -/
def writeBelow (d : Disk) (root : Location) (file : ProjectFile) :
    Disk × Except DiskFault Bool :=
  let path := file.path.toList
  let target := Location.resolve root path
  if goesUp path then (d, .ok false)
  else if '\x00' ∈ path then (d, .error .nullInPath)
  else if !isBelow root target then (d, .ok false)
  else match d.ensureDirectory target.dropLast with
    | (d, some f) => (d, .error f)
    | (d, none) => match d.writeFile target (utf8 file.content) with
      | .ok d => (d, .ok true)
      | .error f => (d, .error f)

/-- Writes files below a directory, and gives the paths of those that were written. -/
def writeAll (d : Disk) (root : Location) :
    List ProjectFile → Disk × Except DiskFault (List String)
  | [] => (d, .ok [])
  | file :: files =>
    match writeBelow d root file with
    | (d, .error f) => (d, .error f)
    | (d, .ok isWritten) =>
      match writeAll d root files with
      | (d, .error f) => (d, .error f)
      | (d, .ok paths) => (d, .ok (if isWritten then file.path :: paths else paths))

/-- Writes files below an output directory. -/
def saveFiles (d : Disk) (s : Standing) (files : List ProjectFile) (outputDir : String) :
    Disk × Except DiskFault (List String) :=
  match outputLocation s outputDir.toList with
  | .error f => (d, .error f)
  | .ok root => writeAll d root files

/-! ## Reading -/

/-- The component of a hidden path. -/
def isHidden (component : Text) : Bool := component.head? == some '.'

/-- The text of a file, with every line break as a line feed. -/
def readText (bytes : List UInt8) : Except DiskFault Text :=
  match decodeUtf8 bytes with
  | .ok t => .ok (unifyNewlines t)
  | .error f => .error (.undecodable f)

/-- The files below a directory that are not hidden, each by its path from
there, in order. -/
def visibleBelow (d : Disk) (root : Location) : List (Location × List UInt8) :=
  (d.files.filterMap fun (l, bytes) =>
    if isBelow root l ∧ !(l.drop root.length).any isHidden
      then some (l.drop root.length, bytes)
    else none).mergeSort fun a b => !Location.precedes b.1 a.1

/-- The file of a project that is read from disk. -/
def projectFile (path : Location) (content : Text) : ProjectFile where
  name := String.ofList (path.getLast?.getD [])
  path := String.ofList (['/'].intercalate path)
  content := content

def readAll : List (Location × List UInt8) → Except DiskFault (List ProjectFile)
  | [] => .ok []
  | (path, bytes) :: rest => do
    let content ← readText bytes
    let files ← readAll rest
    .ok (projectFile path content :: files)

/-- Reads a directory as a project; none if there is no directory. -/
def readProject (d : Disk) (s : Standing) (projectDir : String) :
    Except DiskFault (Option Project) :=
  let path := projectDir.toList
  let root := Location.resolve s.current path
  if '\x00' ∈ path then .error .nullInPath
  else do
    if ← d.isDirectoryAt root then
      let files ← readAll (visibleBelow d root)
      .ok (some {
        name := String.ofList (root.getLast?.getD [])
        files := files
        plan := files.map (·.path) })
    else .ok none

end CodeWeave.Disk
