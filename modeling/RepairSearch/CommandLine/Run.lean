import RepairSearch.CommandLine.Options
import RepairSearch.Session.Basic

/-!
# Commands

The command line has three commands: one repairs, one probes and one shows the summary of the last
session. The exit status is zero for success, one for a search without success, two for a fault of
the input and three for any other error.
-/

namespace RepairSearch.CommandLine

open Session

/-- What the surroundings give to a command. -/
structure Surroundings where
  environment : Environment
  launch : Project.Launcher
  /-- Where the copy of a project may go. -/
  scratch : String
  /-- The seed of a session that is given none. -/
  anySeed : Nat
  colors : Bool

private def usage : String :=
  "Usage: rsrepair <COMMAND>\n\nCommands:\n  repair  Search for a patch that makes the tests pass\n"
    ++ "  probe   Compile and test the unmodified program once under a null mutation\n"
    ++ "  status  Summary of the last session in a build directory\n"

def version : String := "rsrepair 0.1.0"

/-- The answer to a line that is not carried out. -/
def refuse (w : World) : Refusal → Nat × World
  | .help => (0, w.print ⟨usage, ""⟩)
  | .usage => (2, w.print ⟨"", usage⟩)

private def failureStatus (e : RepairError) : Nat := if e.isInputError then 2 else 3

/-- Runs a session. A faulty configuration is told even if nothing is to be printed. -/
def session (s : Surroundings) (mode : Mode) (vs : Values) (w : World) : Nat × World :=
  let fail := fun (e : RepairError) (w : World) =>
    w.print (Console.failure s.colors e.message)
  let checked : Except RepairError Config := do
    let c ← configOf vs s.anySeed
    c.validate w.files
    return c
  match checked with
  | .error e => (2, fail e w)
  | .ok c =>
    let setting : Setting :=
      { launch := s.launch, scratch := s.scratch, colors := s.colors, json := asksForJson vs
        quiet := asksForQuiet vs }
    match Session.run setting c mode w with
    | (.ok status, w) => (status, w)
    | (.error e, w) => (failureStatus e, if setting.quiet then w else fail e w)

/-- Shows the summary of the last session. -/
def status (s : Surroundings) (vs : Values) (w : World) : Nat × World :=
  let directory := buildDirectory vs
  match Summary.load? ⟨directory⟩ w.files with
  | some summary =>
    (0, w.print (if asksForJson vs then .line summary.toJson.compact
      else Console.print s.colors (.status summary)))
  | none =>
    (2, w.print (Console.failure s.colors
      ("No previous run found in " ++ directory ++ ". Run `rsrepair repair` first.")))

/-- Runs a command with the parameters that it has. -/
private def withValues (ps : List Parameter) (s : Surroundings) (arguments : List String)
    (w : World) (command : Values → World → Nat × World) : Nat × World :=
  match Parameter.read ps arguments s.environment with
  | .ok vs => command vs w
  | .error refusal => refuse w refusal

def commands : List String := ["repair", "probe", "status", "help"]

/-- Runs a command line. The answer is its exit status. -/
def run (s : Surroundings) (arguments : List String) (w : World) : Nat × World :=
  match arguments with
  | "repair" :: rest => withValues sessionParameters s rest w (session s .repair)
  | "probe" :: rest => withValues sessionParameters s rest w (session s .probe)
  | "status" :: rest => withValues statusParameters s rest w (status s)
  | ["help"] => refuse w .help
  | ["help", command] => refuse w (if commands.contains command then .help else .usage)
  | first :: _ =>
    if first = "--help" || first.startsWith "-h" then refuse w .help
    else if first = "--version" || first.startsWith "-V" then (0, w.print (.line version))
    else refuse w .usage
  | [] => refuse w .usage

end RepairSearch.CommandLine
