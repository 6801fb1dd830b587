import RepairSearch.Console.Message
import RepairSearch.Project.Compiler
import RepairSearch.Project.Sources
import RepairSearch.Search.Run
import RepairSearch.Session.Timestamp

/-!
# Sessions

A session takes a configuration to documents, pools and a copy of the project, searches there and
leaves a summary in its build directory. Its copy of the project is gone when it ends.
-/

namespace RepairSearch.Session

open Files

/-- What a session changes outside itself. -/
structure World where
  files : System
  /-- The time in milliseconds. -/
  clock : Nat
  output : Console.Output

/-- What does not change in a session. -/
structure Setting where
  launch : Project.Launcher
  /-- Where the copy of the project goes. -/
  scratch : String
  /-- Whether messages have colours. -/
  colors : Bool
  /-- Whether results are printed as JSON. -/
  json : Bool
  /-- Whether nothing is printed. -/
  quiet : Bool

namespace World

def print (w : World) (o : Console.Output) : World := { w with output := w.output ++ o }

/-- Takes away a directory and what is in it. -/
def remove (w : World) (path : String) : World :=
  match w.files.find path with
  | .ok (names, _) => { w with files := w.files.erase names }
  | .error _ => w

end World

/-- All that a search needs. -/
structure Site where
  build : BuildDirectory
  compiler : Project.Compiler
  tests : Project.TestRunner
  controller : Search.Controller WeylProduct Float

/-- The documents and pools of a configuration, and the root of their project. -/
def load (c : Config) (fs : System) :
    Except RepairError (DocumentSet × Pool Float × Pool Float × String) := do
  let sources ← Project.discover fs c.sources
  match sources with
  | [] => .error (.setup "no supported source files found")
  | first :: _ =>
    let ds ← Project.loadAll fs sources
    let faulty ← Coverage.load fs c.faultyCoverage
    let seeds ← Coverage.load fs c.seedCoverage
    let (p, q) ← Pool.build ds faulty seeds
    return (ds, p, q, Project.rootOf fs first.path)

/-- Steps that change files, which stay changed when a later step fails. -/
abbrev Setup := ExceptT RepairError (StateM System)

/-- Makes the copy of the project, the build directory and the controller. -/
def prepare (s : Setting) (c : Config) : Setup Site := do
  let (ds, faulty, seeds, root) ← MonadExcept.ofExcept (load c (← get))
  let workspace ← ExceptT.mk (Project.Workspace.create root s.scratch)
  let timeout := c.timeoutSeconds.map (· * 1000)
  let compiler ← MonadExcept.ofExcept
    ((Project.Compiler.create workspace c.buildCommand c.artifacts timeout (← get)).setContext ds
      c.sources c.classpath (← get))
  let tests := Project.TestRunner.create c.testCommand workspace.root timeout (← get)
  let build ← ExceptT.mk (BuildDirectory.create c.buildDirectory)
  let controller ← MonadExcept.ofExcept
    (Search.Controller.create ds faulty seeds (c.settings (s.quiet || s.json))
      (UInt64.ofNat c.seed))
  return { build, compiler, tests, controller }

/-- What the collaborators of a session change. -/
structure Bench where
  world : World
  compiler : Project.Compiler
  /-- The patches recorded so far, oldest first. -/
  recorded : List RecordedPatch

namespace Bench

/-- Lets time pass with what took it. -/
private def timed (b : Bench) (fs : System) (result : Except RepairError (Int × Nat)) :
    Except RepairError Int × Bench :=
  let spent := match result with
    | .ok (_, ms) => ms
    | .error _ => 0
  (result.map (·.1),
    { b with world := { b.world with files := fs, clock := b.world.clock + spent } })

def compile (s : Setting) (ds : DocumentSet) (b : Bench) : Except RepairError Int × Bench :=
  let (result, compiler, fs) := b.compiler.compile s.launch ds b.world.files
  { b with compiler }.timed fs result

def runTests (s : Setting) (tests : Project.TestRunner) (b : Bench) :
    Except RepairError Int × Bench :=
  let (result, fs) := tests.run s.launch b.world.files
  b.timed fs result

def appendLog (build : BuildDirectory) (text : String) (b : Bench) :
    Except RepairError Unit × Bench :=
  match build.appendLog text b.world.files with
  | .ok fs => (.ok (), { b with world := { b.world with files := fs } })
  | .error e => (.error e, b)

def record (build : BuildDirectory) (p : FoundPatch) (b : Bench) :
    Option RecordedPatch × Bench :=
  let (recorded, fs) :=
    build.record b.compiler.store p (Timestamp.ofMilliseconds b.world.clock) b.world.files
  (recorded,
    { b with world := { b.world with files := fs }, recorded := b.recorded ++ recorded.toList })

def tell (s : Setting) (n : Search.Notice) (b : Bench) : Bench :=
  { b with world := b.world.print (Console.print s.colors (.notice n)) }

end Bench

/-- The collaborators of a session. -/
def collaborators (s : Setting) (site : Site) : Search.Collaborators Bench where
  checkScope d b := (.ok d.scopeReport, b)
  appendLog := Bench.appendLog site.build
  compile := Bench.compile s
  runTests := Bench.runTests s site.tests
  record := Bench.record site.build
  tell := Bench.tell s

inductive Mode where
  | repair
  | probe
deriving DecidableEq, Repr

private def probeJson (p : Search.Probe) : Json :=
  .ofMembers [("compile", .ofInt p.compile), ("tests", .ofOption .ofInt p.tests)]

/-- Prints a result, unless nothing is to be printed. -/
def report (s : Setting) (message : Console.Message) (json : Json) (w : World) : World :=
  if s.quiet then w
  else if s.json then w.print (.line json.compact)
  else w.print (Console.print s.colors message)

/-- Probes the program as it is. The exit status is zero if its tests can be run. -/
def probe (s : Setting) (site : Site) (w : World) : Except RepairError Nat × World :=
  let (result, _, b) :=
    site.controller.probe (collaborators s site) ⟨w, site.compiler, []⟩
  match result with
  | .error e => (.error e, b.world)
  | .ok p =>
    let status := if p.tests.any (0 ≤ ·) then 0 else 1
    (.ok status, report s (.probe p) (probeJson p) b.world)

/-- Searches for patches and leaves a summary, if it can be written. The exit status is zero if
there are patches. -/
def repair (s : Setting) (c : Config) (site : Site) (started : Nat) (w : World) :
    Except RepairError Nat × World :=
  let (result, _, b) :=
    site.controller.repair (collaborators s site) ⟨w, site.compiler, []⟩
  match result with
  | .error e => (.error e, b.world)
  | .ok stats =>
    let summary : Summary :=
      { config := c
        started := Timestamp.ofMilliseconds started
        candidatesRun := stats.candidatesRun
        candidatesFailed := stats.candidatesFailed
        compilations := stats.compilations
        testRuns := stats.testRuns
        patches := b.recorded
        milliseconds := b.world.clock - started }
    let files := match summary.save site.build b.world.files with
      | .ok fs => fs
      | .error _ => b.world.files
    let w := report s (.summary summary) summary.toJson { b.world with files }
    (.ok (if summary.patches.isEmpty then 1 else 0), w)

/-- Runs a session. The answer is its exit status. -/
def run (s : Setting) (c : Config) (mode : Mode) (w : World) : Except RepairError Nat × World :=
  let (prepared, fs) := (prepare s c).run.run w.files
  let before := { w with files := fs }
  let (result, after) : Except RepairError Nat × World :=
    match prepared with
    | .error e => (.error e, before)
    | .ok site =>
      match mode with
      | .probe => probe s site before
      | .repair => repair s c site w.clock before
  (result, after.remove s.scratch)

end RepairSearch.Session
