import RepairSearch.Files.Path
import RepairSearch.Text.Basic

/-!
# Names

A name is a sequence of bytes other than zero and the slash. One that encodes characters is kept as
these; any other one is kept as a zero, which stands in no name, and a character for each byte.
-/

namespace RepairSearch.Files.Name

/-- The bytes of a name that encodes no characters. -/
def raw? (name : String) : Option Text :=
  match name.toList with
  | '\x00' :: cs => some (cs.map fun c => UInt8.ofNat c.toNat)
  | _ => none

def isText (name : String) : Bool := (raw? name).isNone

def bytes (name : String) : Text := (raw? name).getD (Text.ofString name)

/-- The name of some bytes. -/
def ofBytes (t : Text) : String :=
  match t.toString? with
  | some s => s
  | none => String.ofList ('\x00' :: t.map fun b => Char.ofNat b.toNat)

/-- The name as characters; each part that encodes none becomes the replacement character. -/
def shown (name : String) : String :=
  match raw? name with
  | some t => t.toString
  | none => name

/-- A path with all of its names as characters. -/
def shownPath (path : String) : String :=
  "/".intercalate ((Path.segments path).map shown)

end RepairSearch.Files.Name
