import RepairSearch.Shell.Machine
import RepairSearch.Shell.Tool

/-!
# Programs

A program is a tool, the shell itself or an executable file that asks for the shell. Tools are
found by their names and in the directories where programs are kept.
-/

namespace RepairSearch.Shell

open Files

inductive Program where
  | tool (t : Tool)
  /-- Lets time pass. -/
  | sleep
  | shell
  /-- An executable file and the script in it. -/
  | script (path text : String)

namespace Program

/-- The tools that the shell has in itself. -/
def builtins : List (String × Tool) :=
  [("true", fun _ _ _ => .ofStatus 0), ("false", fun _ _ _ => .ofStatus 1), ("echo", Tool.echo),
    ("printf", Tool.printf), ("pwd", Tool.pwd), ("test", Tool.test), ("[", Tool.bracket)]

def installed : List (String × Program) :=
  (builtins.map fun (name, t) => (name, tool t)) ++
    [("cat", tool Tool.cat), ("grep", tool Tool.grep), ("sed", tool Tool.sed), ("sleep", sleep),
      ("sh", shell)]

/-- Where installed programs are kept. -/
def directories : List String := ["/bin/", "/usr/bin/"]

/-- The name of an installed program in a path of one. -/
private def installedName? (path : String) : Option String :=
  directories.findSome? fun d =>
    if path.startsWith d then some (String.ofList (path.toList.drop d.length)) else none

/-- What the first line of a script says about the program for it. -/
private def asksForShell (text : String) : Option Bool :=
  if text.startsWith "#!" then
    let line := String.ofList ((text.toList.drop 2).takeWhile (· != '\n'))
    let words := (line.splitOn " ").filter (· ≠ "")
    some (words.any fun w => (Path.fileName? w).any fun f => ["sh", "dash", "bash"].contains f)
  else none

/-- An executable file as a program. -/
private def ofFile? (path : String) (content : Text) (executable : Bool) : Except Fault Program :=
  if !executable then .error .denied
  else
    match asksForShell content.toString with
    | some true => .ok (.script path content.toString)
    | some false => .error .missing
    | none => .error .notExecutable

/-- The program with a name. A name with a slash is a path, and any other name is that of an
installed program. -/
def find (fs : System) (name : String) : Except Fault Program :=
  if name.toList.contains '/' then
    match fs.find name with
    | .ok (_, .file content executable) => ofFile? name content executable
    | .ok _ => .error .denied
    | .error fault =>
      match (installedName? name).bind (installed.lookup ·) with
      | some program => .ok program
      | none => .error fault
  else if name = "." || name = ".." then .error .denied
  else
    match installed.lookup name with
    | some program => .ok program
    | none => .error .missing

/-- The time that it takes to start a program, in microseconds. -/
def startTime : Nat := 1000

/-- The time of a tool that the shell has in itself. -/
def builtinTime : Nat := 2

/-- Writes what a tool reports. -/
def runTool (t : Tool) (p : Process) : Run Unit := do
  let m ← get
  let r := t p.arguments p.input m.files
  Run.write p.output r.output
  Run.write p.errors r.errors
  Run.setStatus r.status

/-- A number of seconds with a unit, in microseconds. -/
private def interval? (s : String) : Option Nat :=
  let units : List (Char × Nat) := [('s', 1), ('m', 60), ('h', 3600), ('d', 86400)]
  let cs := s.toList
  let unit := cs.getLast?.bind (units.lookup ·)
  let number := if unit.isSome then cs.dropLast else cs
  let whole := number.takeWhile Char.isDigit
  let rest := number.drop whole.length
  let places := if rest.head? == some '.' then rest.drop 1 else []
  if number.isEmpty || rest.head? != some '.' && !rest.isEmpty || !places.all Char.isDigit
      || whole.isEmpty && places.isEmpty then none
  else
    let digits := whole ++ (places ++ List.replicate 6 '0').take 6
    (String.ofList digits).toNat?.map (· * unit.getD 1)

def runSleep (p : Process) : Run Unit := do
  match p.arguments with
  | [] =>
    Run.writeLine p.errors "sleep: missing operand\nTry 'sleep --help' for more information."
    Run.setStatus 1
  | arguments =>
    match arguments.mapM interval? with
    | some times =>
      Run.spend (times.foldl (· + ·) 0)
      Run.setStatus 0
    | none =>
      let bad := (arguments.find? fun a => (interval? a).isNone).getD ""
      Run.writeLine p.errors
        s!"sleep: invalid time interval '{bad}'\nTry 'sleep --help' for more information."
      Run.setStatus 1

/-- How a text is run as a script. -/
abbrev Inner := Process → String → Run Unit

variable (inner : Inner)

/-- A shell runs a text that it is given, a file or its input. -/
def runShell (p : Process) : Run Unit := do
  match p.arguments with
  | [] => inner p p.input.toString
  | ["-c"] =>
    Run.writeLine p.errors "sh: 0: -c requires an argument"
    Run.setStatus 2
  | "-c" :: text :: rest =>
    inner { p with name := rest.head?.getD "sh", arguments := rest.drop 1 } text
  | file :: rest =>
    match (← get).files.read file with
    | .ok t => inner { p with name := file, arguments := rest } t.toString
    | .error fault =>
      let reason := if fault = .missing then "No such file" else fault.description
      Run.writeLine p.errors s!"sh: 0: cannot open {file}: {reason}"
      Run.setStatus 2

/-- Runs a program as a process of its own. It gets the exported variables and leaves its status
behind. -/
def run (program : Program) (p : Process) : Run Unit := do
  Run.spend startTime
  let p := { p with number := ← Run.fresh }
  let step : Run Unit := do
    modify fun m =>
      { m with bindings := m.bindings.filter fun v => m.exported.contains v.1, status := 0 }
    match program with
    | .tool t => runTool t p
    | .sleep => runSleep p
    | .shell => runShell inner p
    | .script path text => inner { p with name := path } text
  let ended ← ExceptT.mk do return .ok (← (Run.isolated step).run)
  match ended with
  | .ok () => return
  | .error .late => throw .late
  | .error _ => Run.setStatus 137

end Program

end RepairSearch.Shell
