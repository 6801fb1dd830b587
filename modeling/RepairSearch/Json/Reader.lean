import RepairSearch.Json.Basic

/-!
# Reading JSON

The reader accepts strict JSON: no comments, no trailing commas, no leading zeros, no control
characters in strings and nothing after the value.
-/

namespace RepairSearch.Json

namespace Reader

def isBlank (c : Char) : Bool := c == ' ' || c == '\n' || c == '\t' || c == '\r'

def skipBlanks (cs : List Char) : List Char := cs.dropWhile isBlank

def digit? (c : Char) : Option Nat :=
  if c.isDigit then some (c.toNat - '0'.toNat) else none

def hexDigit? (c : Char) : Option Nat :=
  if c.isDigit then some (c.toNat - '0'.toNat)
  else if 'a' ≤ c && c ≤ 'f' then some (c.toNat - 'a'.toNat + 10)
  else if 'A' ≤ c && c ≤ 'F' then some (c.toNat - 'A'.toNat + 10)
  else none

/-- A part of a string: a character, or a 16-bit unit that is written by its number. -/
inductive Piece where
  | char (c : Char)
  | unit (n : Nat)

def simpleEscape? : Char → Option Char
  | '"' => some '"'
  | '\\' => some '\\'
  | '/' => some '/'
  | 'b' => some '\x08'
  | 'f' => some '\x0c'
  | 'n' => some '\n'
  | 'r' => some '\r'
  | 't' => some '\t'
  | _ => none

/-- The pieces of a string up to its closing quote, and what follows. -/
def pieces : List Char → Option (List Piece × List Char)
  | [] => none
  | '"' :: cs => some ([], cs)
  | '\\' :: 'u' :: a :: b :: c :: d :: cs => do
    let n := (← hexDigit? a) * 4096 + (← hexDigit? b) * 256 + (← hexDigit? c) * 16
      + (← hexDigit? d)
    let (ps, rest) ← pieces cs
    pure (.unit n :: ps, rest)
  | '\\' :: c :: cs => do
    let e ← simpleEscape? c
    let (ps, rest) ← pieces cs
    pure (.char e :: ps, rest)
  | c :: cs =>
    if c.toNat < 32 then none
    else do
      let (ps, rest) ← pieces cs
      pure (.char c :: ps, rest)

/-- The text of pieces, in which surrogates have to come in pairs. -/
def text? : List Piece → Option (List Char)
  | [] => some []
  | .char c :: ps => (text? ps).map (c :: ·)
  | .unit n :: ps =>
    if n < 0xD800 ∨ 0xE000 ≤ n then (text? ps).map (Char.ofNat n :: ·)
    else
      match ps with
      | .unit m :: rest =>
        if n < 0xDC00 ∧ 0xDC00 ≤ m ∧ m < 0xE000 then
          (text? rest).map (Char.ofNat (0x10000 + (n - 0xD800) * 0x400 + (m - 0xDC00)) :: ·)
        else none
      | _ => none

/-- A string after its opening quote. -/
def string (cs : List Char) : Option (Option String × List Char) :=
  (pieces cs).map fun (ps, rest) => ((text? ps).map String.ofList, rest)

/-- The digits at the head of a text. -/
def digits : List Char → List Nat × List Char
  | [] => ([], [])
  | c :: cs =>
    match digit? c with
    | some d => let (ds, rest) := digits cs; (d :: ds, rest)
    | none => ([], c :: cs)

/-- At least one digit. -/
def digits1 (cs : List Char) : Option (List Nat × List Char) :=
  match digits cs with
  | ([], _) => none
  | r => some r

def fraction : List Char → Option (List Nat × List Char)
  | '.' :: cs => digits1 cs
  | cs => some ([], cs)

def exponent : List Char → Option (Option Int × List Char)
  | c :: cs =>
    if c == 'e' || c == 'E' then
      let (negative, cs) :=
        match cs with
        | '-' :: cs => (true, cs)
        | '+' :: cs => (false, cs)
        | _ => (false, cs)
      (digits1 cs).map fun (ds, rest) =>
        let n : Int := Numeral.value ds
        (some (if negative then -n else n), rest)
    else some (none, c :: cs)
  | [] => some (none, [])

/-- A number, whose whole part has no leading zeros. -/
def number (cs : List Char) : Option (Numeral × List Char) := do
  let (negative, cs) :=
    match cs with
    | '-' :: cs => (true, cs)
    | _ => (false, cs)
  let (whole, cs) ← digits1 cs
  if whole.head? = some 0 ∧ 1 < whole.length then none
  let (fraction, cs) ← fraction cs
  let (exponent, cs) ← exponent cs
  pure (⟨negative, whole, fraction, exponent⟩, cs)

mutual

/-- A value and what follows it. Every value takes at least one character, so the length of the
text is depth enough. -/
def value : Nat → List Char → Option (Json × List Char)
  | 0, _ => none
  | depth + 1, cs =>
    match skipBlanks cs with
    | 'n' :: 'u' :: 'l' :: 'l' :: cs => some (.null, cs)
    | 't' :: 'r' :: 'u' :: 'e' :: cs => some (.bool true, cs)
    | 'f' :: 'a' :: 'l' :: 's' :: 'e' :: cs => some (.bool false, cs)
    | '"' :: cs => (string cs).map fun (s, rest) => (.string s, rest)
    | '[' :: cs =>
      match skipBlanks cs with
      | ']' :: rest => some (.array [], rest)
      | cs => (items depth cs).map fun (vs, rest) => (.array vs, rest)
    | '\x7b' :: cs =>
      match skipBlanks cs with
      | '\x7d' :: rest => some (.object [], rest)
      | cs => (members depth cs).map fun (ms, rest) => (.object ms, rest)
    | cs => (number cs).map fun (n, rest) => (.number n, rest)

/-- The items of an array up to its end. -/
def items : Nat → List Char → Option (List Json × List Char)
  | 0, _ => none
  | depth + 1, cs => do
    let (v, cs) ← value depth cs
    match skipBlanks cs with
    | ']' :: rest => some ([v], rest)
    | ',' :: cs => do
      let (vs, rest) ← items depth cs
      some (v :: vs, rest)
    | _ => none

/-- The members of an object up to its end. -/
def members : Nat → List Char → Option (List (Option String × Json) × List Char)
  | 0, _ => none
  | depth + 1, cs =>
    match skipBlanks cs with
    | '"' :: cs => do
      let (k, cs) ← string cs
      match skipBlanks cs with
      | ':' :: cs => do
        let (v, cs) ← value depth cs
        match skipBlanks cs with
        | '\x7d' :: rest => some ([(k, v)], rest)
        | ',' :: cs => do
          let (ms, rest) ← members depth cs
          some ((k, v) :: ms, rest)
        | _ => none
      | _ => none
    | _ => none

end

end Reader

/-- The value that a text writes, if it writes one and nothing else. -/
def read? (s : String) : Option Json := do
  let cs := s.toList
  let (v, rest) ← Reader.value (cs.length + 1) cs
  if (Reader.skipBlanks rest).isEmpty then some v else none

end RepairSearch.Json
