import RepairSearch.Error
import RepairSearch.Files.System

/-!
# Build directories

A session writes into one directory: a log of all mutations, a directory of patches, a directory
for every stored program and a summary.
-/

namespace RepairSearch

open Files

structure BuildDirectory where
  root : String
deriving DecidableEq, Repr

namespace BuildDirectory

def logPath (b : BuildDirectory) : String := Path.join b.root "log"

def patchesPath (b : BuildDirectory) : String := Path.join b.root "patches"

def summaryPath (b : BuildDirectory) : String := Path.join b.root "summary.json"

/-- The name of what belongs to one patch. -/
def patchName (candidate generation : Nat) (timestamp : String) : String :=
  s!"Candidate{candidate}_Generation{generation}_{timestamp}"

def patchPath (b : BuildDirectory) (candidate generation : Nat) (timestamp : String) : String :=
  Path.join b.patchesPath (patchName candidate generation timestamp)

/-- Where the program that a patch makes is stored. -/
def classesPath (b : BuildDirectory) (candidate generation : Nat) (timestamp : String) : String :=
  Path.join b.root ("classes_" ++ patchName candidate generation timestamp)

def create (root : String) (fs : System) : Except RepairError BuildDirectory × System :=
  let b : BuildDirectory := ⟨root⟩
  match fs.makeDirectories b.patchesPath with
  | (.ok (), fs) => (.ok b, fs)
  | (.error fault, fs) => (.error (.io b.patchesPath fault), fs)

/-- Adds a text and a line break to the log. -/
def appendLog (b : BuildDirectory) (text : String) (fs : System) : Except RepairError System :=
  match fs.append b.logPath (Text.ofString (text ++ "\n")) with
  | .ok fs => .ok fs
  | .error fault => .error (.io b.logPath fault)

end BuildDirectory

end RepairSearch
