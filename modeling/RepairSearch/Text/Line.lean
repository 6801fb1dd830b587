import RepairSearch.Text.Basic
import RepairSearch.Text.Space

/-!
# Lines

The lines of a text are what stands between its line breaks, so there is always at least one. The
line around an offset has a start, an end and an indentation.
-/

namespace RepairSearch.Text

/-- What stands between the line breaks of a text. -/
def lines : Text → List Text
  | [] => [[]]
  | b :: t =>
    if b == newline then [] :: lines t
    else
      match lines t with
      | [] => [[b]]
      | l :: ls => (b :: l) :: ls

/-- Lines with line breaks between them. -/
def unlines (ls : List Text) : Text := [newline].intercalate ls

/-- Where the line around an offset starts. -/
def lineStart (t : Text) (offset : Nat) : Nat := offset - t.columnAt offset

/-- Where the line around an offset ends: at its line break or at the end of the text. -/
def lineEnd (t : Text) (offset : Nat) : Nat :=
  offset + ((t.drop offset).takeWhile (· != newline)).length

/-- The spaces and tabs that begin the line around an offset, as far as the offset. -/
def indentAt (t : Text) (offset : Nat) : Text :=
  (t.slice (t.lineStart offset) offset).takeWhile fun b => b == 32 || b == 9

/-- White space only, or nothing. -/
def isWhite (t : Text) : Bool :=
  match t.toString? with
  | some s => isBlankString s
  | none => false

/-- The end of a range without the blanks that end it. -/
def trimmedEnd (t : Text) (start stop : Nat) : Nat :=
  stop - ((t.slice start stop).reverse.takeWhile isBlank).length

end RepairSearch.Text
