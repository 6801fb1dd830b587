import RepairSearch.Files.System

/-!
# Machines

A machine is what processes change: the files, the variables of the running shell, what was
written, and the time. Its time is a count of microseconds that processes use up.
-/

namespace RepairSearch.Shell

open Files

/-- Where the output of a process goes. -/
inductive Sink where
  /-- A numbered channel; number zero is the log of the first process. -/
  | channel (number : Nat)
  | file (path : String)
  | discard
deriving DecidableEq, Repr

/-- A process: how it was called and where its text comes from and goes. -/
structure Process where
  /-- The name of its script. -/
  name : String
  arguments : List String
  number : Nat
  input : Text
  output : Sink
  errors : Sink
deriving Repr

structure Machine where
  files : System
  /-- The variables and their values. -/
  bindings : List (String × String)
  /-- The names of the variables that programs get. -/
  exported : List String
  /-- The status of the last command. -/
  status : Nat
  /-- What was written to channels, the latest first. -/
  written : List (Nat × Text)
  /-- The number of the next channel or process. -/
  next : Nat
  elapsed : Nat
  /-- When time is up. -/
  deadline : Option Nat

/-- Why a script ends before its end. -/
inductive Stop where
  | exit (status : Nat)
  | killed
  /-- The loop around the command ends. -/
  | leaveLoop
  /-- The loop around the command goes on to its next round. -/
  | nextRound
  /-- Time is up. -/
  | late
deriving DecidableEq, Repr

abbrev Run := ExceptT Stop (StateM Machine)

namespace Run

def setStatus (status : Nat) : Run Unit := modify fun m => { m with status }

/-- Uses up time. -/
def spend (microseconds : Nat) : Run Unit := do
  let m ← get
  let elapsed := m.elapsed + microseconds
  set { m with elapsed }
  if m.deadline.any (· < elapsed) then throw .late

def write (sink : Sink) (t : Text) : Run Unit :=
  match sink with
  | .channel n => modify fun m => { m with written := (n, t) :: m.written }
  | .file path => modify fun m =>
    match m.files.append path t with
    | .ok files => { m with files }
    | .error _ => m
  | .discard => return

def writeLine (sink : Sink) (text : String) : Run Unit :=
  write sink (Text.ofString (text ++ "\n"))

def fresh : Run Nat := modifyGet fun m => (m.next, { m with next := m.next + 1 })

/-- What was written to a channel. -/
def textOf (m : Machine) (channel : Nat) : Text :=
  (m.written.reverse.filter (·.1 = channel)).flatMap (·.2)

/-- Lets a step write to a channel of its own, and takes what it wrote there. -/
def capture (step : Sink → Run Unit) : Run Text := do
  let n ← fresh
  step (.channel n)
  let m ← get
  set { m with written := m.written.filter (·.1 ≠ n) }
  return textOf m n

/-- Runs a step whose changes to variables and directory do not last, and which ends alone. -/
def isolated (step : Run Unit) : Run Unit := do
  let before ← get
  let ended ← ExceptT.mk do return .ok (← step.run)
  modify fun m =>
    { m with
      bindings := before.bindings
      exported := before.exported
      files := { m.files with workingDirectory := before.files.workingDirectory } }
  match ended with
  | .ok () | .error .leaveLoop | .error .nextRound => return
  | .error (.exit status) => setStatus status
  | .error stop => throw stop

/-- Repeats a step for as long as it says so. -/
def repeated (step : Machine → Except Stop Bool × Machine) :
    Nat → Machine → Except Stop Unit × Machine
  | 0, m => (.error .late, m)
  | rounds + 1, m =>
    match step m with
    | (.ok true, m) => repeated step rounds m
    | (.ok false, m) => (.ok (), m)
    | (.error stop, m) => (.error stop, m)

/-- No loop goes round more often. -/
def maxRounds : Nat := 1000000

def repeatWhile (step : Run Bool) : Run Unit :=
  ExceptT.mk fun m => repeated (fun m => step.run.run m) maxRounds m

/-- Runs the body of a loop; the answer is whether the loop goes on. -/
def round (body : Run Unit) : Run Bool := do
  match ← ExceptT.mk do return .ok (← body.run) with
  | .ok () | .error .nextRound => return true
  | .error .leaveLoop => return false
  | .error stop => throw stop

def value (m : Machine) (name : String) : String := (m.bindings.lookup name).getD ""

def assign (name text : String) : Run Unit :=
  modify fun m => { m with bindings := (name, text) :: m.bindings.filter (·.1 ≠ name) }

def exportName (name : String) : Run Unit :=
  modify fun m => { m with exported := name :: m.exported.filter (· ≠ name) }

end Run

end RepairSearch.Shell
