import RepairSearch.Document.Set
import RepairSearch.Project.Launcher
import RepairSearch.Project.Workspace

/-!
# Compilers

A compiler keeps the documents of a workspace up to date and builds them with a command. A
document is written only if it has changed since it was last written, which its revision tells.
Without a command, documents compile if they follow their grammars.
-/

namespace RepairSearch.Project

open Files

structure Compiler where
  workspace : Workspace
  buildCommand : Option String
  /-- The directory of the build's output, relative to the root of the workspace. -/
  artifacts : Option String
  timeout : Option Nat
  /-- Where the documents are in the workspace. -/
  targets : List String
  /-- The revisions of the documents as they are in the workspace. -/
  written : List (Option Nat)
  environment : List (String × String)
deriving Repr

namespace Compiler

/-- A compiler that knows no documents yet. -/
def create (workspace : Workspace) (buildCommand artifacts : Option String)
    (timeout : Option Nat) (fs : System) : Compiler where
  workspace := workspace
  buildCommand :=
    buildCommand.map (Command.resolve fs.contains (Place.path ⟨fs.workingDirectory, none⟩))
  artifacts := artifacts
  timeout := timeout
  targets := []
  written := []
  environment := []

/-- What the build command is told about a source path: its place in the workspace, if it has
one. -/
private def shownSource (w : Workspace) (fs : System) (path : String) : String :=
  match fs.canonical path with
  | .ok full => (w.mapPath full).toOption.getD path
  | .error _ => path

/-- Tells a compiler about its documents, which are in the workspace as they are now, and about
the paths that its command gets to know. -/
def setContext (c : Compiler) (ds : DocumentSet) (sources classpath : List String)
    (fs : System) : Except RepairError Compiler := do
  let targets ← ds.documents.mapM fun d => c.workspace.mapPath d.path
  return { c with
    targets
    written := ds.documents.map fun d => some d.revision
    environment :=
      [("RSREPAIR_SOURCEPATH", ":".intercalate (sources.map (shownSource c.workspace fs))),
        ("RSREPAIR_CLASSPATH", ":".intercalate classpath)] }

section

variable {κ : Type} (write : String → Text → κ → Except Fault Unit × κ)

/-- Writes the documents that have changed, from a number on. The first write that fails ends
it. -/
def writeFrom (c : Compiler) : Nat → List Document → κ → Except RepairError Unit × Compiler × κ
  | _, [], k => (.ok (), c, k)
  | n, d :: ds, k =>
    match c.targets[n]? with
    | none =>
      (.error (.collaborator (d.path ++ " was not part of the compiler context")), c, k)
    | some target =>
      if c.written[n]? = some (some d.revision) then writeFrom c (n + 1) ds k
      else
        match write target d.current k with
        | (.error fault, k) => (.error (.io target fault), c, k)
        | (.ok (), k) =>
          writeFrom { c with written := c.written.set n (some d.revision) } (n + 1) ds k

/-- Brings the workspace up to date. -/
def writeChanged (c : Compiler) (ds : DocumentSet) (k : κ) :
    Except RepairError Unit × Compiler × κ :=
  c.writeFrom write 0 ds.documents k

/-- The status of a build, which is zero if it succeeds and minus one otherwise. -/
def statusOf : Ending → Int
  | .success => 0
  | .failed _ | .timedOut => -1

/-- Builds the current texts of the documents. The answer has a status and the milliseconds that
the build took. -/
def build (launch : Job → κ → Except Fault Finished × κ) (c : Compiler) (ds : DocumentSet)
    (k : κ) : Except RepairError (Int × Nat) × Compiler × κ :=
  match c.writeChanged write ds k with
  | (.error e, c, k) => (.error e, c, k)
  | (.ok (), c, k) =>
    match c.buildCommand with
    | none => (.ok (ds.syntaxStatus, 0), c, k)
    | some line =>
      match launch ⟨line, c.workspace.root, c.environment, c.timeout⟩ k with
      | (.ok finished, k) => (.ok (statusOf finished.ending, finished.milliseconds), c, k)
      | (.error fault, k) =>
        (.error (.collaborator ("failed to run " ++ line ++ ": " ++ fault.message)), c, k)

end

/-- Writes a file, which stays what it is if that fails. -/
def writeFile (path : String) (content : Text) (fs : System) : Except Fault Unit × System :=
  match fs.write path content with
  | .ok fs => (.ok (), fs)
  | .error fault => (.error fault, fs)

/-- A build in a file system. -/
def compile (launch : Launcher) (c : Compiler) (ds : DocumentSet) (fs : System) :
    Except RepairError (Int × Nat) × Compiler × System :=
  c.build writeFile launch ds fs

/-- Stores what the build has made: the artifacts, or all of the workspace. -/
def store (c : Compiler) (target : String) (fs : System) : Except RepairError Unit × System :=
  let source := match c.artifacts with
    | some directory => Path.join c.workspace.root directory
    | none => c.workspace.root
  copy source target fs

end Compiler

/-- A command that tests what is in a directory. -/
structure TestRunner where
  line : String
  directory : String
  timeout : Option Nat
deriving DecidableEq, Repr

namespace TestRunner

def create (line directory : String) (timeout : Option Nat) (fs : System) : TestRunner where
  line := Command.resolve fs.contains (Place.path ⟨fs.workingDirectory, none⟩) line
  directory := directory
  timeout := timeout

/-- The status of tests: one if they pass, zero if they fail and minus one if they take too
long. -/
def statusOf : Ending → Int
  | .success => 1
  | .failed _ => 0
  | .timedOut => -1

/-- Runs the tests. The answer has a status and the milliseconds that the tests took. -/
def run (launch : Launcher) (t : TestRunner) (fs : System) :
    Except RepairError (Int × Nat) × System :=
  match launch ⟨t.line, t.directory, [], t.timeout⟩ fs with
  | (.ok finished, fs) => (.ok (statusOf finished.ending, finished.milliseconds), fs)
  | (.error fault, fs) =>
    (.error (.testExecution ("failed to run " ++ t.line ++ ": " ++ fault.message)), fs)

end TestRunner

end RepairSearch.Project
