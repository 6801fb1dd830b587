import RepairSearch.Text.Line

/-!
# Donors

A donor is a statement that is copied to another place. Its lines after the first are indented
anew there, except those that begin inside a literal.
-/

namespace RepairSearch

structure Donor where
  text : Text
  /-- The indentation of the line on which the donor starts. -/
  indent : Text
  /-- The lines that begin inside a literal; the line after the first is number one. -/
  literalLines : List Nat
deriving DecidableEq, Repr, Inhabited

namespace Donor

/-- One line after the first, at another depth. Blank lines become empty; a line that does not
begin with the donor's indentation stays as it is. -/
def rebaseLine (donor : Donor) (indent : Text) (line : Text) (number : Nat) : Text :=
  if donor.literalLines.contains number then line
  else if line.isWhite then []
  else if donor.indent.isPrefixOf line then indent ++ line.drop donor.indent.length
  else line

/-- The text of a donor at another depth. -/
def rebase (donor : Donor) (indent : Text) : Text :=
  match donor.text.lines with
  | [] => []
  | first :: rest =>
    Text.unlines (first :: (rest.zipIdx 1).map fun (line, n) => donor.rebaseLine indent line n)

end Donor

end RepairSearch
