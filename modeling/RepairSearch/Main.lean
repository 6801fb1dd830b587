import RepairSearch.CommandLine.Run
import RepairSearch.Shell.Launch
import Std.Time.DateTime.Timestamp

/-!
# The program

The files around the working directory, and around the paths on the command line, are read. The
command works on them in memory, and what it has changed is written back.
-/

namespace RepairSearch.Disk

open Files

/-- A file that begins with the mark of a script counts as executable. -/
private def isScript (content : Text) : Bool := content.take 2 == Text.ofString "#!"

mutual

/-- What stands at a path. Links are taken to the end. -/
partial def readNode (path : String) : IO (Option Node) := do
  try
    let entry : IO.FS.DirEntry := { root := "/", fileName := path }
    match (← entry.path.symlinkMetadata).type with
    | .dir => return some (← readDirectory path)
    | .file =>
      let content := (← IO.FS.readBinFile path).toList
      return some (.file content (isScript content))
    | .symlink => return some (.link (← IO.FS.realPath path).toString)
    | .other => return some .special
  catch _ => return none

/-- A directory. What a project leaves out stays unread. -/
partial def readDirectory (path : String) : IO Node := do
  let directory ← IO.FS.realPath path
  let mut entries := []
  for entry in ← directory.readDir do
    let name := entry.fileName
    if Project.isSkipped name && (← entry.path.isDir) then
      entries := (name, .directory []) :: entries
    else if let some n ← readNode (Path.join path name) then
      entries := (name, n) :: entries
  return .directory entries.reverse

end

/-- The names in an absolute path. -/
private def namesOf (path : String) : List String := (path.splitOn "/").filter (· ≠ "")

/-- The directory to read for a path: that of its project, or else the nearest one. -/
def surrounding (path : String) : IO String := do
  let names := namesOf path
  for n in (List.range (names.length + 1)).reverse do
    let directory := Place.path ⟨names.take n, none⟩
    for marker in Project.markers do
      let entry : IO.FS.DirEntry := { root := directory, fileName := marker }
      if ← entry.path.pathExists then return directory
  let entry : IO.FS.DirEntry := { root := "/", fileName := path }
  if ← entry.path.isDir then return path else return Place.path ⟨names.dropLast, none⟩

/-- Reads the surroundings of paths, and then what stands at the paths themselves. -/
def readAll (paths : List String) : IO System := do
  let here ← IO.FS.realPath "."
  let mut fs : System := ⟨.directory [], namesOf here.toString⟩
  let mut known : List String := []
  for path in paths do
    try
      let found := (← IO.FS.realPath path).toString
      for place in [← surrounding found, found] do
        unless known.contains place do
          known := place :: known
          if let some n ← readNode place then fs := fs.put (namesOf place) n
    catch _ => pure ()
  return fs

private def allRights : IO.AccessRight := { read := true, write := true, execution := true }

private def readRights : IO.AccessRight := { read := true, execution := true }

/-- Brings what stands at a path from one state to another. -/
partial def writeNode (path : String) (before after : Option Node) : IO Unit := do
  match before, after with
  | some (.directory olds), some (.directory news) =>
    for (name, n) in news do
      writeNode (Path.join path name) (olds.lookup name) (some n)
    for (name, n) in olds do
      if (news.lookup name).isNone then writeNode (Path.join path name) (some n) none
  | none, some (.directory news) =>
    IO.FS.createDir path
    for (name, n) in news do
      writeNode (Path.join path name) none (some n)
  | some (.file old _), some (.file new x) =>
    unless old == new do writeFile new x
  | none, some (.file new x) => writeFile new x
  | some (.directory _), none => IO.FS.removeDirAll path
  | some _, none => IO.FS.removeFile path
  | _, _ => pure ()
where
  writeFile (content : Text) (executable : Bool) : IO Unit := do
    IO.FS.writeBinFile path ⟨content.toArray⟩
    if executable then
      IO.setAccessRights path { user := allRights, group := readRights, other := readRights }

/-- The variables that parameters may be in. -/
def readEnvironment : IO CommandLine.Environment := do
  let names := (CommandLine.sessionParameters ++ CommandLine.statusParameters).filterMap
    (·.environmentName)
  let mut environment := []
  for name in names do
    if let some value ← IO.getEnv name then environment := (name, value) :: environment
  return environment.reverse

/-- The time in milliseconds. -/
def readClock : IO Nat := do
  return (← Std.Time.Timestamp.now).toMillisecondsSinceUnixEpoch.val.toNat

/-- A word that nobody knows beforehand. -/
def anyWord : IO Nat := do
  return (← IO.getRandomBytes 8).toList.foldl (fun n b => n * 256 + b.toNat) 0

end RepairSearch.Disk

open RepairSearch in
/-- Runs a command line on the files of the disk. -/
def main (arguments : List String) : IO UInt32 := do
  let environment ← Disk.readEnvironment
  let paths := "." :: arguments.flatMap (·.splitOn "=") ++ environment.map (·.2)
  let files ← Disk.readAll (paths.flatMap (·.splitOn ",") ++ [CommandLine.buildDirectory []])
  let out ← IO.getStdout
  let s : CommandLine.Surroundings :=
    { environment, launch := Shell.launch, scratch := "/tmp/rsrepair"
      anySeed := ← Disk.anyWord, colors := ← out.isTty }
  let (status, w) := CommandLine.run s arguments ⟨files, ← Disk.readClock, .empty⟩
  Disk.writeNode "/" (some files.root) (some w.files.root)
  IO.print w.output.out
  IO.eprint w.output.err
  return status.toUInt32
