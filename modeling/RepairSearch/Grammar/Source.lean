/-!
# Source text as bytes and characters

The grammars read a text by byte offset. Reading past the end gives byte zero and no character.
-/

namespace RepairSearch.Grammar

structure Source where
  bytes : ByteArray

namespace Source

def ofBytes (text : List UInt8) : Source := ⟨⟨text.toArray⟩⟩

def size (s : Source) : Nat := s.bytes.size

def byte (s : Source) (i : Nat) : UInt8 :=
  if h : i < s.bytes.size then s.bytes[i] else 0

/-- A byte as an ASCII character; only comparisons with ASCII characters are meaningful. -/
def ascii (s : Source) (i : Nat) : Char := Char.ofNat (s.byte i).toNat

def atEnd (s : Source) (i : Nat) : Bool := s.bytes.size ≤ i

private def tail (s : Source) (i : Nat) : Nat := (s.byte i).toNat % 64

/-- The character that starts at an offset of well-encoded text and the offset after it. -/
def char? (s : Source) (i : Nat) : Option (Char × Nat) :=
  if s.atEnd i then none
  else
    let b := (s.byte i).toNat
    some <|
      if b < 0x80 then (Char.ofNat b, i + 1)
      else if b < 0xE0 then (Char.ofNat (b % 32 * 64 + s.tail (i + 1)), i + 2)
      else if b < 0xF0 then
        (Char.ofNat (b % 16 * 4096 + s.tail (i + 1) * 64 + s.tail (i + 2)), i + 3)
      else
        (Char.ofNat (b % 8 * 262144 + s.tail (i + 1) * 4096 + s.tail (i + 2) * 64
          + s.tail (i + 3)), i + 4)

/-- Whether the characters of `word` stand at an offset; the offset after them. -/
def literal? (s : Source) (word : String) (i : Nat) : Option Nat :=
  go word.toUTF8.toList i
where
  go : List UInt8 → Nat → Option Nat
    | [], i => some i
    | b :: bs, i => if !s.atEnd i && s.byte i == b then go bs (i + 1) else none

/-- The end of the longest run of characters of a class. -/
def run (s : Source) (p : Char → Bool) (i : Nat) : Nat :=
  go (s.size - i) i
where
  go : Nat → Nat → Nat
    | 0, i => i
    | n + 1, i =>
      match s.char? i with
      | some (c, j) => if p c then go n j else i
      | none => i

/-- The end of a run of at least one character of a class. -/
def run1? (s : Source) (p : Char → Bool) (i : Nat) : Option Nat :=
  let j := s.run p i
  if i < j then some j else none

end Source

end RepairSearch.Grammar
