import CodeWeave.CommandLine.Session

/-!
# The program

The outer layer: it takes a picture of the part of the disk that a command looks at,
runs the command on it, prints what it printed and writes the files that it changed.
No transport is linked in, so every request to a party outside fails as a connection
that cannot be made.
-/

namespace CodeWeave.Program

open CommandLine

/-- The location of an absolute path. -/
def locationOf (path : String) : Location := Location.resolve [] path.toList

/-- The path of a location. -/
def pathOf (l : Location) : String := String.ofList l.path

/-- The failure of every request. -/
def noTransport : Failure := ⟨.connection, "no transport", [], 0⟩

/-- Parties that cannot be reached. -/
def unreachable : Outside where
  client := ⟨[], .error noTransport⟩
  anthropic := ⟨[], .error noTransport⟩
  openai := ⟨[], .error noTransport⟩
  backends := ⟨[], .failed noTransport⟩
  host := ⟨[], .failed noTransport⟩

/-- The variables that the program looks at. -/
def watched : List String :=
  ["OLLAMA_URL", "OLLAMA_MODEL", "HF_URL", "HF_MODEL", "CLOUD_MODEL", "USE_CLOUD",
   "REQUEST_TIMEOUT", "HF_TOKEN", "GITHUB_TOKEN"].map (Settings.variableStem ++ ·) ++
  ["HF_TOKEN", "GITHUB_TOKEN", "ANTHROPIC_API_KEY", "OPENAI_API_KEY"]

/-- The values of the variables that are set. -/
def readEnvironment : IO Environment := do
  let values ← watched.mapM fun name => do
    pure (name, ← IO.getEnv name)
  pure fun name => ((values.find? (·.1 == name)).bind (·.2))

/-- The home directories of the accounts, from the account database. -/
def readAccounts : IO (List (Text × Location)) := do
  try
    let lines ← IO.FS.lines "/etc/passwd"
    pure (lines.toList.filterMap fun line =>
      match line.splitOn ":" with
      | [name, _, _, _, _, home, _] => some (name.toList, locationOf home)
      | _ => none)
  catch _ => pure []

/-- Adds a file of the real disk, if there is one. -/
def addRealFile (d : Disk) (l : Location) : IO Disk := do
  try
    let bytes ← IO.FS.readBinFile (pathOf l)
    pure (d.addFile l bytes.toList)
  catch _ => pure d

/-- Adds what is below a directory of the real disk, if there is one. -/
partial def addRealTree (d : Disk) (l : Location) : IO Disk := do
  try
    let root ← IO.FS.realPath (pathOf l)
    if ← root.isDir then
      let entries ← root.readDir
      entries.toList.foldlM (fun d e => addRealTree d (l ++ [e.fileName.toList]))
        (d.addDirectory l)
    else addRealFile d l
  catch _ => pure d

/-- Adds what a command looks at. -/
def addLookedAt (d : Disk) (s : Disk.Standing) : Invocation → IO Disk
  | .synthesize cloudFile localFile _ _ _ => do
    let d ← addRealFile d (Location.resolve s.current cloudFile.toList)
    addRealFile d (Location.resolve s.current localFile.toList)
  | .build _ _ outputDir _ _ _ =>
    match Disk.outputLocation s outputDir.toList with
    | .ok l => addRealTree d l
    | .error _ => pure d
  | .deploy projectDir => addRealTree d (Location.resolve s.current projectDir.toList)

/-- Writes the files that a run changed. -/
def writeChanges (before after : Disk) : IO Unit :=
  after.files.forM fun (l, bytes) => do
    if before.file? l != some bytes then
      IO.FS.createDirAll (pathOf l.dropLast)
      IO.FS.writeBinFile (pathOf l) ⟨bytes.toArray⟩

end CodeWeave.Program

open CodeWeave CommandLine Program in
/-- Runs the program on its words. -/
def main (words : List String) : IO UInt32 := do
  let current := locationOf (← IO.currentDir).toString
  let home := locationOf ((← IO.getEnv "HOME").getD "/")
  let around : Surroundings :=
    { environment := ← readEnvironment
      standing := ⟨⟨home, ← readAccounts⟩, current⟩
      clock := .ofDecimal false (← IO.monoMsNow) (-3) }
  let empty := (Disk.mk []).addDirectory current
  let before ← match readRequest words with
    | .ok r => addLookedAt empty around.standing r.invocation
    | .error _ => pure empty
  let (code, s) := run around words { outside := unreachable, disk := before }
  writeChanges before s.disk
  IO.print s.stdout
  IO.eprint s.stderr
  pure (UInt32.ofNat code.toNat)
