import RepairSearch.Decimal
import RepairSearch.Shell.Expansion
import RepairSearch.Shell.Program
import RepairSearch.Shell.Reader

/-!
# Evaluation of scripts

A script is evaluated command by command on a machine. Scripts inside scripts are run one level
further in, and there are only so many levels.
-/

namespace RepairSearch.Shell

open Files

section

variable (inner : Program.Inner)

private def withoutLineEnds (t : Text) : Text :=
  (t.reverse.dropWhile (· == Text.newline)).reverse

/-- The output of a script, without the line ends at its end. -/
def substitute (p : Process) (text : String) : Run String := do
  let output ← Run.capture fun sink => Run.isolated (inner { p with output := sink } text)
  return (withoutLineEnds output).toString

/-- Complains about a redirection. -/
private def refuse (p : Process) (line : Nat) (verb path : String) (fault : Fault) :
    Run (Option Process) := do
  let reason :=
    if fault ≠ .missing then fault.description
    else if verb = "open" then "No such file"
    else "Directory nonexistent"
  Run.writeLine p.errors s!"{p.name}: {line}: cannot {verb} {path}: {reason}"
  return none

private def withSink (p : Process) (descriptor : Nat) (sink : Sink) : Process :=
  if descriptor = 2 then { p with errors := sink }
  else if descriptor = 1 then { p with output := sink }
  else p

/-- The process after one redirection, unless that fails. -/
private def redirect (p : Process) (line : Nat) : Redirection → Run (Option Process)
  | .copy descriptor source =>
    return some (withSink p descriptor (if source = 2 then p.errors else p.output))
  | .fromFile source => do
    let path ← textOf p (substitute inner p) source
    if path = "/dev/null" then return some { p with input := [] }
    match (← get).files.read path with
    | .ok t => return some { p with input := t }
    | .error fault => refuse p line "open" path fault
  | .toFile descriptor append target => do
    let path ← textOf p (substitute inner p) target
    if path = "/dev/null" then return some (withSink p descriptor .discard)
    let m ← get
    let directory := Place.path ⟨m.files.workingDirectory, none⟩
    let opened := if append then m.files.append path [] else m.files.write path []
    match opened with
    | .ok files =>
      set { m with files }
      return some (withSink p descriptor (.file (Path.join directory path)))
    | .error fault => refuse p line "create" path fault

private def redirectAll (line : Nat) : List Redirection → Process → Run (Option Process)
  | [], p => return some p
  | r :: rs, p => do
    match ← redirect inner p line r with
    | some p => redirectAll line rs p
    | none => return none

/-- A name with a value behind an equals sign, or a name alone. -/
private def binding (s : String) : String × Option String :=
  let name := s.toList.takeWhile (· != '=')
  let rest := s.toList.drop name.length
  (String.ofList name, if rest.isEmpty then none else some (String.ofList (rest.drop 1)))

private def exportAll : List String → Run Unit
  | [] => return
  | s :: rest => do
    let (name, value?) := binding s
    if let some value := value? then Run.assign name value
    Run.exportName name
    exportAll rest

private def changeDirectory (p : Process) (line : Nat) (path : String) : Run Unit := do
  let m ← get
  match m.files.find path with
  | .ok (names, .directory _) =>
    set { m with files := { m.files with workingDirectory := names }, status := 0 }
  | _ =>
    Run.writeLine p.errors s!"{p.name}: {line}: cd: can't cd to {path}"
    Run.setStatus 2

/-- Runs what is not part of the shell. -/
private def callProgram (p : Process) (line : Nat) (name : String) : Run Unit := do
  match Program.find (← get).files name with
  | .ok program => program.run inner p
  | .error fault =>
    let reason := if fault = .missing then "not found" else fault.description
    Run.writeLine p.errors s!"{p.name}: {line}: {name}: {reason}"
    Run.setStatus (if fault = .missing then 127 else 126)

/-- Leaves the script with the status of the last command or with a given one. -/
private def leave (p : Process) (line : Nat) (arguments : List String) : Run Unit := do
  match arguments with
  | [] => throw (.exit (← get).status)
  | s :: _ =>
    match Decimal.natural? (Nat.pow 2 31) s with
    | some status => throw (.exit (status % 256))
    | none =>
      Run.writeLine p.errors s!"{p.name}: {line}: exit: Illegal number: {s}"
      throw (.exit 2)

/-- Runs a command with its arguments. -/
def call (p : Process) (line : Nat) (name : String) (arguments : List String) : Run Unit := do
  Run.spend Program.builtinTime
  match name, arguments with
  | ":", _ => Run.setStatus 0
  | "exit", arguments => leave p line arguments
  | "break", _ => throw .leaveLoop
  | "continue", _ => throw .nextRound
  | "cd", arguments => changeDirectory p line (arguments.head?.getD "/")
  | "export", arguments =>
    exportAll arguments
    Run.setStatus 0
  | "kill", arguments =>
    if arguments.getLast? = some (toString p.number) then throw .killed
    Run.writeLine p.errors s!"{p.name}: {line}: kill: No such process"
    Run.setStatus 1
  | name, arguments =>
    let q := { p with arguments }
    match Program.builtins.lookup name with
    | some t => Program.runTool t q
    | none => callProgram inner q line name

private def hasSubstitution (w : Word) : Bool :=
  w.any fun piece => match piece with | .substitution _ _ => true | _ => false

/-- Gives variables their values, for programs too if asked for. -/
private def assignAll (p : Process) (exporting : Bool) : List (String × Word) → Run Unit
  | [] => return
  | (name, w) :: rest => do
    Run.assign name (← textOf p (substitute inner p) w)
    if exporting then Run.exportName name
    assignAll p exporting rest

/-- A simple command. Assignments in front of a command last as long as it does. -/
def simple (p : Process) (line : Nat) (assignments : List (String × Word)) (words : List Word)
    (redirections : List Redirection) : Run Unit := do
  let fields ← allFields p (substitute inner p) words
  match ← redirectAll inner line redirections p with
  | none => Run.setStatus 2
  | some q =>
    match fields with
    | [] =>
      unless words.any hasSubstitution || assignments.any (hasSubstitution ·.2) do
        Run.setStatus 0
      assignAll inner p false assignments
    | name :: arguments =>
      let before ← get
      assignAll inner p true assignments
      call inner q line name arguments
      unless assignments.isEmpty do
        modify fun m =>
          { m with bindings := before.bindings, exported := before.exported }

private def succeeded : Run Bool := return (← get).status = 0

/-- Runs the body of a loop for one word after another. -/
private def eachWord (name : String) (body : Run Unit) : List String → Run Unit
  | [] => return
  | w :: ws => do
    Run.assign name w
    if ← Run.round body then eachWord name body ws

def execute : Script → Process → Run Unit
  | .nothing, _ => return
  | .simple line assignments words redirections, p =>
    simple inner p line assignments words redirections
  | .sequence first second, p => do
    execute first p
    execute second p
  | .both first second, p => do
    execute first p
    if ← succeeded then execute second p
  | .either first second, p => do
    execute first p
    unless ← succeeded do execute second p
  | .pipe source target, p => do
    let t ← Run.capture fun sink => Run.isolated (execute source { p with output := sink })
    Run.isolated (execute target { p with input := t })
  | .negation script, p => do
    execute script p
    Run.setStatus (if ← succeeded then 1 else 0)
  | .loop whileTrue condition body, p => do
    Run.setStatus 0
    Run.repeatWhile do
      let status := (← get).status
      execute condition p
      if (← succeeded) = whileTrue then Run.round (execute body p)
      else
        Run.setStatus status
        return false
  | .each name words body, p => do
    let ws ← match words with
      | some ws => allFields p (substitute inner p) ws
      | none => pure p.arguments
    Run.setStatus 0
    eachWord name (execute body p) ws
  | .choice condition yes no, p => do
    execute condition p
    if ← succeeded then
      Run.setStatus 0
      execute yes p
    else
      Run.setStatus 0
      execute no p
  | .subshell body, p => Run.isolated (execute body p)
  | .redirected script redirections, p => do
    match ← redirectAll inner 1 redirections p with
    | none => Run.setStatus 2
    | some q => execute script q

end

/-- Runs a text as a script that has so many levels to go further in. -/
def runText : Nat → Process → String → Run Unit
  | 0, _, _ => throw .late
  | depth + 1, p, text =>
    match Script.ofText text with
    | .ok script => execute (runText depth) script p
    | .error fault => do
      Run.writeLine p.errors (p.name ++ ": 1: " ++ fault.message)
      throw (.exit 2)

/-- How many levels there are. -/
def levels : Nat := 64

end RepairSearch.Shell
