import RepairSearch.Shell.Arithmetic
import RepairSearch.Shell.Machine
import RepairSearch.Shell.Syntax

/-!
# Expansion of words

A word becomes a row of fields. What a word says itself stays together; what it takes from
variables and from the output of scripts is split at blanks, unless it is quoted.
-/

namespace RepairSearch.Shell

/-- A part of an expanded word. -/
inductive Segment where
  | whole (text : String)
  /-- Text that is split at blanks. -/
  | divided (text : String)
  /-- Parameters, each a field. -/
  | each (texts : List String)
deriving Repr

namespace Segment

def text : Segment → String
  | whole s => s
  | divided s => s
  | each ss => " ".intercalate ss

/-- Fields that are made from left to right: the finished ones in reverse and the one that is being
made. -/
structure Fields where
  finished : List String := []
  current : Option String := none

namespace Fields

def add (f : Fields) (s : String) : Fields := { f with current := some (f.current.getD "" ++ s) }

def finish (f : Fields) : Fields := ⟨f.current.toList ++ f.finished, none⟩

/-- Adds text with blanks in it. -/
private def addDivided (f : Fields) : List Char → Fields
  | [] => f
  | c :: cs =>
    addDivided (if c == ' ' || c == '\t' || c == '\n' then f.finish
      else f.add (String.singleton c)) cs

private def addEach (f : Fields) : List String → Fields
  | [] => f
  | [s] => f.add s
  | s :: ss => addEach (f.add s).finish ss

def addSegment (f : Fields) : Segment → Fields
  | .whole s => f.add s
  | .divided s => f.addDivided s.toList
  | .each ss => f.addEach ss

end Fields

private def isNoParameter : Segment → Bool
  | each [] => true
  | _ => false

/-- The fields of an expanded word. A word of no parameters and nothing else has no fields. -/
def fields (segments : List Segment) : List String :=
  if segments.any isNoParameter && segments.all (·.text.isEmpty) then []
  else (segments.foldl Fields.addSegment {}).finish.finished.reverse

end Segment

namespace Process

/-- The value of a parameter with a special name, if the name is special. -/
def special? (p : Process) (status : Nat) (name : String) : Option String :=
  match name with
  | "0" => some p.name
  | "#" => some (toString p.arguments.length)
  | "?" => some (toString status)
  | "$" => some (toString p.number)
  | "!" | "-" => some ""
  | _ => if name.all Char.isDigit then name.toNat?.map fun n => p.arguments.getD (n - 1) ""
    else none

end Process

/-- Text from a variable or a script, split unless it is quoted. -/
private def taken (quoted : Bool) (text : String) : Segment :=
  if quoted then .whole text else .divided text

/-- All parameters of a process. -/
private def allParameters (p : Process) (name : String) (quoted : Bool) : Segment :=
  if quoted && name = "@" then .each p.arguments else taken quoted (" ".intercalate p.arguments)

section

variable (p : Process) (substitute : String → Run String)

mutual

/-- What a part of a word stands for. -/
def segments : Piece → Run (List Segment)
  | .text content _ => return [.whole content]
  | .parameter name fallback quoted => do
    if name = "@" || name = "*" then
      return [allParameters p name quoted]
    let m ← get
    let found := (p.special? m.status name).getD (Run.value m name)
    match fallback with
    | some pieces =>
      if found.isEmpty then allSegments pieces else return [taken quoted found]
    | none => return [taken quoted found]
  | .substitution script quoted => return [taken quoted (← substitute script)]
  | .arithmetic expression => do
    let text := String.join ((← allSegments expression).map Segment.text)
    let m ← get
    match Arithmetic.value? (fun name => (Run.value m name).toInt?.getD 0) text.toList with
    | some n => return [.whole (toString n)]
    | none =>
      Run.writeLine p.errors (p.name ++ ": arithmetic expression: " ++ text)
      throw (.exit 2)

/-- What the parts of a word stand for, from left to right. -/
def allSegments : List Piece → Run (List Segment)
  | [] => return []
  | piece :: pieces => do
    let first ← segments piece
    let rest ← allSegments pieces
    return first ++ rest

end

/-- The fields of a word. -/
def fieldsOf (w : Word) : Run (List String) := do
  return Segment.fields (← allSegments p substitute w)

/-- The text of a word that is not split. -/
def textOf (w : Word) : Run String := do
  return String.join ((← allSegments p substitute w).map Segment.text)

/-- The fields of several words. -/
def allFields : List Word → Run (List String)
  | [] => return []
  | w :: ws => do
    let first ← fieldsOf p substitute w
    let rest ← allFields ws
    return first ++ rest

end

end RepairSearch.Shell
