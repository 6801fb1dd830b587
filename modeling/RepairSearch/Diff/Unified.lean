import RepairSearch.Diff.Script
import RepairSearch.Diff.Slide
import RepairSearch.Text.Basic

/-!
# Unified diffs

The changes between two texts, line by line, in hunks with three lines of context. A line ends
after a line feed, after a carriage return with a line feed, or after a lone carriage return.
-/

namespace RepairSearch.Diff

def carriageReturn : UInt8 := 13

/-- A text as lines with their ends. -/
def terminatedLines : Text → List Text
  | [] => []
  | b :: t =>
    if b == Text.newline then [b] :: terminatedLines t
    else
      match t with
      | [] => [[b]]
      | c :: u =>
        if b == carriageReturn && c != Text.newline then [b] :: terminatedLines (c :: u)
        else
          match terminatedLines (c :: u) with
          | [] => [[b]]
          | l :: ls => (b :: l) :: ls

/-- Lines of context before and after a change. -/
def context : Nat := 3

/-- The last lines of an equal run. -/
def lastLines (r : Run) (n : Nat) : Run :=
  let cut := r.oldLength - n
  Run.equal (r.old + cut) (r.new + cut) (r.oldLength - cut)

def firstLines (r : Run) (n : Nat) : Run := Run.equal r.old r.new (min r.oldLength n)

def trimFirst : List Run → List Run
  | r :: rs => (if r.kind = .equal then lastLines r context else r) :: rs
  | [] => []

def trimLast (rs : List Run) : List Run :=
  match rs.reverse with
  | r :: before => (((if r.kind = .equal then firstLines r context else r)) :: before).reverse
  | [] => []

/-- Parts the runs where an equal run is longer than the context on both sides of it. -/
def part : List Run → List (List Run)
  | [] => [[]]
  | r :: rs =>
    match part rs with
    | [] => []
    | group :: groups =>
      if r.kind = .equal ∧ 2 * context < r.oldLength then
        [firstLines r context] :: (lastLines r context :: group) :: groups
      else (r :: group) :: groups

def hasChange (rs : List Run) : Bool := rs.any (·.kind != .equal)

/-- The runs in groups, each with its context. -/
def hunks (rs : List Run) : List (List Run) :=
  (part (trimLast (trimFirst rs))).filter hasChange

/-- A range of lines, counted from one. The length is left out if it is one; an empty range
stands after the line before it. -/
def rangeText (start stop : Nat) : String :=
  let length := stop - start
  if length = 1 then s!"{start + 1}"
  else if length = 0 then s!"{start},0"
  else s!"{start + 1},{length}"

def header (rs : List Run) : String :=
  match rs.head?, rs.getLast? with
  | some a, some z =>
    "@@ -" ++ rangeText a.old z.oldEnd ++ " +" ++ rangeText a.new z.newEnd ++ " @@\n"
  | _, _ => ""

def isTerminated (l : Text) : Bool :=
  l.getLast? == some Text.newline || l.getLast? == some carriageReturn

def lineText (mark : String) (l : Text) : String :=
  mark ++ l.toString ++ (if isTerminated l then "" else "\n\\ No newline at end of file\n")

def linesText (mark : String) (ls : Array Text) (start stop : Nat) : String :=
  String.join ((ls.extract start stop).toList.map (lineText mark))

def runText (old new : Array Text) (r : Run) : String :=
  match r.kind with
  | .equal => linesText " " old r.old r.oldEnd
  | .delete => linesText "-" old r.old r.oldEnd
  | .insert => linesText "+" new r.new r.newEnd
  | .replace => linesText "-" old r.old r.oldEnd ++ linesText "+" new r.new r.newEnd

def hunkText (old new : Array Text) (rs : List Run) : String :=
  header rs ++ String.join (rs.map (runText old new))

/-- The changes between two texts; nothing if there are none. -/
def unified (path : String) (original mutated : Text) : String :=
  let old := (terminatedLines original).toArray
  let new := (terminatedLines mutated).toArray
  match hunks (join (slide old new (script old new))) with
  | [] => ""
  | groups =>
    "--- a/" ++ path ++ "\n+++ b/" ++ path ++ "\n" ++ String.join (groups.map (hunkText old new))

end RepairSearch.Diff
