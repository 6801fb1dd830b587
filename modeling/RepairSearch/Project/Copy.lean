import RepairSearch.Error
import RepairSearch.Files.System

/-!
# Copies of a project

A copy holds the files and directories of a project without what a project leaves out, without
links and without special files. What was copied stays if a later step fails. Directories of version
control, environments, caches and build output belong to no project, and neither do compiled files.
-/

namespace RepairSearch.Project

open Files

def skippedNames : List String :=
  [".git", ".hg", ".svn", "node_modules", ".venv", "venv", "__pycache__", ".tox", ".mypy_cache",
    ".pytest_cache", ".ruff_cache", "target", "dist", "build", ".next", ".nuxt", "rsrepair-build"]

/-- Whether an entry of a directory is left out. -/
def isSkipped (name : String) : Bool :=
  let name := Name.shown name
  skippedNames.contains name ||
    [".pyc", ".pyo"].any fun ending => ending.toList.isSuffixOf name.toList

/-- Makes a file like another one; an old file gets the new content and mode. -/
def copyFile (fs : System) (source target : String) (content : Text)
    (executable : Bool) : Except RepairError System :=
  match fs.locate true target with
  | .ok ⟨_, some (.directory _)⟩ => .error (.io source .isDirectory)
  | .ok ⟨_, some (.link _)⟩ => .error (.io source .noDevice)
  | .ok ⟨names, _⟩ => .ok (fs.put names (.file content executable))
  | .error fault => .error (.io source fault)

mutual

/-- Copies the entries of a directory into a directory that is made for them. -/
def copyNode (source target : String) : Node → System → Except RepairError Unit × System
  | .directory es, fs =>
    match fs.makeDirectories target with
    | (.error fault, fs) => (.error (.io target fault), fs)
    | (.ok (), fs) => copyEntries source target es fs
  | .file content executable, fs =>
    match copyFile fs source target content executable with
    | .error e => (.error e, fs)
    | .ok fs => (.ok (), fs)
  | .link (.path _), fs => (.ok (), fs)
  | .special, fs => (.ok (), fs)

def copyEntries (source target : String) :
    List (String × Node) → System → Except RepairError Unit × System
  | [], fs => (.ok (), fs)
  | (name, n) :: rest, fs =>
    if isSkipped name then copyEntries source target rest fs
    else
      match copyNode (Path.join source name) (Path.join target name) n fs with
      | (.error e, fs) => (.error e, fs)
      | (.ok (), fs) => copyEntries source target rest fs

end

/-- Copies a directory. The target is made before the source is looked at. -/
def copy (source target : String) (fs : System) : Except RepairError Unit × System :=
  match fs.makeDirectories target with
  | (.error fault, fs) => (.error (.io target fault), fs)
  | (.ok (), fs) =>
    match fs.find source with
    | .ok (_, .directory es) => copyEntries source target es fs
    | .ok _ => (.error (.io source .notDirectory), fs)
    | .error fault => (.error (.io source fault), fs)

end RepairSearch.Project
