import RepairSearch.Command
import RepairSearch.Files.System

/-!
# Launchers

A launcher starts a command and waits for its end. A command that cannot be started is a fault;
everything else is an ending.
-/

namespace RepairSearch.Project

open Files

/-- A command to be run. -/
structure Job where
  line : String
  directory : String
  /-- The variables that the command gets. -/
  environment : List (String × String)
  /-- The milliseconds that the command may take. -/
  timeout : Option Nat
deriving Repr

inductive Ending where
  | success
  /-- The command failed, with all that it wrote. -/
  | failed (output : String)
  | timedOut
deriving DecidableEq, Repr

structure Finished where
  ending : Ending
  milliseconds : Nat
deriving DecidableEq, Repr

abbrev Launcher := Job → System → Except Fault Finished × System

end RepairSearch.Project

namespace RepairSearch.Command

/-- The line of a command whose program is given by a relative path. If the program is there in a
directory, it is named by its place in it, so that the line means the same everywhere. -/
def resolve (isThere : String → Bool) (directory line : String) : String :=
  let c := ofLine line
  if Path.isAbsolute c.program || !c.program.toList.contains '/' then line
  else
    let program := Path.join directory c.program
    if isThere program then " ".intercalate (program :: c.arguments) else line

end RepairSearch.Command
