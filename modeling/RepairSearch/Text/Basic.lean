/-!
# Texts

A text is its list of bytes, so that offsets, spans and splices are list positions. Characters
only matter at the edges, where a text comes from a string or is shown as one.
-/

namespace RepairSearch

abbrev Text := List UInt8

namespace Text

def newline : UInt8 := 10

def ofString (s : String) : Text := s.toUTF8.toList

/-- The bytes from one offset up to another. -/
def slice (t : Text) (start stop : Nat) : Text := (t.drop start).take (stop - start)

def isTail (b : UInt8) : Bool := 0x80 ≤ b && b < 0xC0

def tailValue (b : UInt8) : Nat := b.toNat % 64

/-- What a lead byte asks of the bytes after it: their number and the range of the first. -/
def lead? (b : UInt8) : Option (Nat × UInt8 × UInt8) :=
  if 0xC2 ≤ b && b ≤ 0xDF then some (1, 0x80, 0xBF)
  else if b == 0xE0 then some (2, 0xA0, 0xBF)
  else if b == 0xED then some (2, 0x80, 0x9F)
  else if 0xE1 ≤ b && b ≤ 0xEF then some (2, 0x80, 0xBF)
  else if b == 0xF0 then some (3, 0x90, 0xBF)
  else if b == 0xF4 then some (3, 0x80, 0x8F)
  else if 0xF1 ≤ b && b ≤ 0xF3 then some (3, 0x80, 0xBF)
  else none

def leadValue (b : UInt8) (count : Nat) : Nat :=
  if count == 1 then b.toNat % 32 else if count == 2 then b.toNat % 16 else b.toNat % 8

/-- The tail bytes of one character: its value if they are all there, and what follows them. -/
def tails : Nat → Nat → UInt8 → UInt8 → Text → Option Nat × Text
  | 0, value, _, _, t => (some value, t)
  | _ + 1, _, _, _, [] => (none, [])
  | n + 1, value, lo, hi, b :: t =>
    if lo ≤ b && b ≤ hi then tails n (value * 64 + tailValue b) 0x80 0xBF t else (none, b :: t)

/-- The characters of a text, with nothing for each part that encodes none. -/
def scalars : Nat → Text → List (Option Char)
  | 0, _ => []
  | _ + 1, [] => []
  | n + 1, b :: t =>
    if b < 0x80 then some (Char.ofNat b.toNat) :: scalars n t
    else match lead? b with
      | none => none :: scalars n t
      | some (count, lo, hi) =>
        let (value, rest) := tails count (leadValue b count) lo hi t
        value.map Char.ofNat :: scalars n rest

/-- The text as characters; each part that encodes none becomes the replacement character. -/
def toString (t : Text) : String :=
  String.ofList ((scalars t.length t).map (·.getD '\uFFFD'))

/-- The text as characters, if all of it encodes characters. -/
def toString? (t : Text) : Option String :=
  ((scalars t.length t).mapM id).map String.ofList

/-- The number of the line that holds an offset, counted from one. -/
def lineAt (t : Text) (offset : Nat) : Nat := (t.take offset).count newline + 1

/-- The bytes between the last line break before an offset and the offset. -/
def columnAt (t : Text) (offset : Nat) : Nat :=
  ((t.take offset).reverse.takeWhile (· != newline)).length

/-- Space, tab, line feed, form feed and carriage return. -/
def isBlank (b : UInt8) : Bool := b == 32 || b == 9 || b == 10 || b == 12 || b == 13

end Text

end RepairSearch
