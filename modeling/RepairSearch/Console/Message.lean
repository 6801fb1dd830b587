import RepairSearch.Console.Style
import RepairSearch.Decimal
import RepairSearch.Search.Collaborators
import RepairSearch.Session.Summary

/-!
# Messages

What a session says to its user, and the lines that it is said in. Errors go to one stream and
everything else to another.
-/

namespace RepairSearch.Console

/-- Text for the two streams of a terminal. -/
structure Output where
  out : String
  err : String
deriving DecidableEq, Repr

namespace Output

def empty : Output := ⟨"", ""⟩

/-- One output after another. -/
def append (a b : Output) : Output := ⟨a.out ++ b.out, a.err ++ b.err⟩

instance : Append Output := ⟨append⟩

/-- A line for the user. -/
def line (text : String) : Output := ⟨text ++ "\n", ""⟩

/-- A line about an error. -/
def errorLine (text : String) : Output := ⟨"", text ++ "\n"⟩

def lines (texts : List String) : Output := texts.foldl (fun o t => o ++ line t) empty

end Output

open Output

inductive Message where
  | failure (text : String)
  | success (text : String)
  | notice (n : Search.Notice)
  | probe (p : Search.Probe)
  | summary (s : Summary)
  | status (s : Summary)

section

variable (colors : Bool)

private def cross : String := (Style.strong .red).apply colors "✗"

private def check : String := (Style.strong .green).apply colors "✓"

private def warning : String := (Style.strong .yellow).apply colors "!"

private def dot (s : Style) : String := s.apply colors "·"

def failure (text : String) : Output := errorLine (cross colors ++ " " ++ text)

def success (text : String) : Output := line (check colors ++ " " ++ text)

/-- The lines of a description, faint and set in. -/
private def mutation (description : String) : Output :=
  lines ((Mutation.shownLines (Text.ofString description)).map fun l =>
    "    " ++ Style.faint.apply colors l.toString)

private def tests (status : Int) : Output :=
  if 0 < status then line ("    " ++ check colors ++ " tests passed")
  else line ("    " ++ dot colors (.colored .yellow) ++ " tests ran, no fix yet")

def notice : Search.Notice → Output
  | .candidate number total =>
    line ((Style.strong .cyan).apply colors s!"Candidate {number}/{total}")
  | .generation number total => line s!"  Generation {number}/{total}"
  | .mutation description => mutation colors description
  | .compileFailed => line ("    " ++ dot colors (.colored .yellow) ++ " did not compile")
  | .compiled => line ("    " ++ dot colors (.colored .green) ++ " compiled")
  | .tests status => tests colors status
  | .patch recorded => success colors ("patch written to " ++ recorded.file)
  | .candidateFailed number e => failure colors (s!"Candidate {number} failed: " ++ e.message)

def probe (p : Search.Probe) : Output :=
  match p.tests with
  | none => failure colors s!"Unmodified program does not compile (status {p.compile})."
  | some status =>
    if 0 < status then success colors "Unmodified program compiles and its tests pass."
    else line (warning colors
      ++ s!" Unmodified program compiles; tests do not pass (status {status}).")

private def patch (p : RecordedPatch) : String :=
  "  " ++ (Style.strong .cyan).apply colors s!"C{p.candidate}G{p.generation}" ++ " " ++ p.file
    ++ " " ++ Style.faint.apply colors s!"[{p.mutations.length} mutations]"

/-- The patches behind an empty line, if there are any. -/
private def patches (ps : List RecordedPatch) : Output :=
  if ps.isEmpty then empty else lines ("" :: ps.map (patch colors))

/-- A time in seconds, with tenths. -/
def seconds (milliseconds : Nat) : String :=
  Decimal.fixed 1 ((UInt64.ofNat milliseconds).toFloat / 1000) ++ "s"

private def work (s : Summary) : String :=
  s!"{s.candidatesRun} candidates ({s.compilations} compilations, {s.testRuns} test runs) in "
    ++ seconds s.milliseconds

def summary (s : Summary) : Output :=
  let found :=
    if s.patches.isEmpty then warning colors ++ " no patch found in " ++ work s
    else check colors ++ s!" {s.patches.length} patches from " ++ work s
  let failed :=
    if 0 < s.candidatesFailed then
      line ("  " ++ dot colors .faint ++ s!" {s.candidatesFailed} candidates aborted on errors")
    else empty
  line "" ++ line found ++ failed ++ patches colors s.patches

def status (s : Summary) : Output :=
  line (s!"Last run ({s.started}): {s.candidatesRun} candidates, {s.candidatesFailed} failed, "
    ++ s!"{s.patches.length} patches") ++ patches colors s.patches

/-- What is printed for a message. -/
def print : Message → Output
  | .failure text => failure colors text
  | .success text => success colors text
  | .notice n => notice colors n
  | .probe p => probe colors p
  | .summary s => summary colors s
  | .status s => status colors s

end

end RepairSearch.Console
