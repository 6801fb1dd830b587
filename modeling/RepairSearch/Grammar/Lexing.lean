import RepairSearch.Grammar.Rule

/-!
# Tokens shared by the grammars

Classes of characters and the shapes of words, numbers and operators.
-/

namespace RepairSearch.Grammar

/-- Space, tab, line feed, vertical tab, form feed and carriage return. -/
def isPlainSpace (c : Char) : Bool := c == ' ' || (9 ≤ c.toNat && c.toNat ≤ 13)

/-- Characters without width that separate tokens as blanks do. -/
def isInvisible (c : Char) : Bool :=
  c == '\uFEFF' || c == '\u2060' || c == '\u200B'

def isHexDigit (c : Char) : Bool :=
  c.isDigit || ('a' ≤ c && c ≤ 'f') || ('A' ≤ c && c ≤ 'F')

def isOctalDigit (c : Char) : Bool := '0' ≤ c && c ≤ '7'

def isBinaryDigit (c : Char) : Bool := c == '0' || c == '1'

namespace Scan

/-- Exactly the given characters. -/
def text (word : String) : Scanner := fun src i => src.literal? word i

/-- One scanner and then another. -/
def andThen (a b : Scanner) : Scanner := fun src i => do b src (← a src i)

/-- The first scanner that matches. -/
def orElse (a b : Scanner) : Scanner := fun src i => (a src i).orElse fun _ => b src i

def opt (a : Scanner) : Scanner := fun src i => some ((a src i).getD i)

/-- One character of a class. -/
def char (p : Char → Bool) : Scanner := fun src i => do
  let (c, j) ← src.char? i
  guard (p c)
  pure j

/-- A run of characters of a class, possibly empty. -/
def many (p : Char → Bool) : Scanner := fun src i => some (src.run p i)

def many1 (p : Char → Bool) : Scanner := fun src i => src.run1? p i

/-- Repeats a scanner for as long as it matches and moves on. -/
def repeated (a : Scanner) : Scanner := fun src i => some (go src (src.size + 1) i)
where
  go (src : Source) : Nat → Nat → Nat
    | 0, i => i
    | n + 1, i =>
      match a src i with
      | some j => if i < j then go src n j else i
      | none => i

/-- The scanner, where the other one does not match at its end. -/
def notBefore (a b : Scanner) : Scanner := fun src i => do
  let j ← a src i
  guard (b src j).isNone
  pure j

/-- The longer of two matches. -/
def longest (as : List Scanner) : Scanner := fun src i =>
  as.foldl (fun best a =>
    match best, a src i with
    | some j, some k => some (max j k)
    | some j, none => some j
    | none, r => r) none

/-- A sequence of scanners. -/
def seqs : List Scanner → Scanner
  | [] => fun _ i => some i
  | a :: as => andThen a (seqs as)

/-- An operator that is not the beginning of a longer one of the list. -/
def operator (all : List String) (word : String) : Scanner := fun src i => do
  let j ← src.literal? word i
  guard (!all.any fun w =>
    word.utf8ByteSize < w.utf8ByteSize && w.startsWith word && (src.literal? w i).isSome)
  pure j

/-- The text between two offsets. -/
def slice (src : Source) (i j : Nat) : String :=
  String.fromUTF8? (src.bytes.extract i j) |>.getD ""

/-- A word as read by `word` that satisfies a condition on its text. -/
def wordWhere (word : Scanner) (ok : String → Bool) : Scanner := fun src i => do
  let j ← word src i
  guard (ok (slice src i j))
  pure j

/-- Digits in which single underscores may stand between two digits. -/
def digits (p : Char → Bool) : Scanner :=
  andThen (char p) (repeated (andThen (opt (text "_")) (char p)))

end Scan

end RepairSearch.Grammar
