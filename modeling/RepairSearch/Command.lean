import RepairSearch.Text.Space

/-!
# Commands

A command is a line of words: a program and its arguments. There is no quoting.
-/

namespace RepairSearch

structure Command where
  program : String
  arguments : List String
deriving DecidableEq, Repr

namespace Command

/-- The words of a line. A line of one word or none is a program as it stands, with the white
space around it. -/
def ofLine (line : String) : Command :=
  match words line.toList with
  | program :: a :: as => ⟨String.ofList program, (a :: as).map String.ofList⟩
  | _ => ⟨line, []⟩

end Command

end RepairSearch
