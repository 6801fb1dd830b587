import RepairSearch.Json.Basic

/-!
# Printing JSON

The compact form has no blanks. The pretty form has one item or member on a line, indented by two
spaces for every level, and keeps empty arrays and objects on one line.
-/

namespace RepairSearch.Json

namespace Printer

def hexDigit (n : Nat) : Char := (Nat.toDigits 16 n).headD '0'

/-- A character of a string. Quotes, backslashes and control characters are escaped. -/
def escaped (c : Char) : List Char :=
  if c == '"' then ['\\', '"']
  else if c == '\\' then ['\\', '\\']
  else if c == '\n' then ['\\', 'n']
  else if c == '\r' then ['\\', 'r']
  else if c == '\t' then ['\\', 't']
  else if c == '\x08' then ['\\', 'b']
  else if c == '\x0c' then ['\\', 'f']
  else if c.toNat < 32 then ['\\', 'u', '0', '0', hexDigit (c.toNat / 16), hexDigit (c.toNat % 16)]
  else [c]

def string (s : String) : List Char := '"' :: s.toList.flatMap escaped ++ ['"']

def digits (ds : List Nat) : List Char := ds.map fun d => Char.ofNat (d + 48)

def numeral (n : Numeral) : List Char :=
  (if n.negative then ['-'] else []) ++ digits n.whole
    ++ (if n.fraction.isEmpty then [] else '.' :: digits n.fraction)
    ++ match n.exponent with
      | none => []
      | some e => 'e' :: (if e < 0 then ['-'] else []) ++ digits (Numeral.digits e.natAbs)

def opening : Char := '\x7b'

def closing : Char := '\x7d'

mutual

def compact : Json → List Char
  | .null => ['n', 'u', 'l', 'l']
  | .bool true => ['t', 'r', 'u', 'e']
  | .bool false => ['f', 'a', 'l', 's', 'e']
  | .number n => numeral n
  | .string s => string (s.getD "")
  | .array [] => ['[', ']']
  | .array (v :: vs) => '[' :: compact v ++ compactItems vs
  | .object [] => [opening, closing]
  | .object ((k, v) :: ms) =>
    opening :: string (k.getD "") ++ ':' :: compact v ++ compactMembers ms

def compactItems : List Json → List Char
  | [] => [']']
  | v :: vs => ',' :: compact v ++ compactItems vs

def compactMembers : List (Option String × Json) → List Char
  | [] => [closing]
  | (k, v) :: ms => ',' :: string (k.getD "") ++ ':' :: compact v ++ compactMembers ms

end

def newLine (level : Nat) : List Char := '\n' :: List.replicate (2 * level) ' '

mutual

def pretty (level : Nat) : Json → List Char
  | .array [] => ['[', ']']
  | .array (v :: vs) =>
    '[' :: newLine (level + 1) ++ pretty (level + 1) v ++ prettyItems level vs
  | .object [] => [opening, closing]
  | .object ((k, v) :: ms) =>
    opening :: newLine (level + 1) ++ string (k.getD "") ++ [':', ' '] ++ pretty (level + 1) v
      ++ prettyMembers level ms
  | .null => compact .null
  | .bool b => compact (.bool b)
  | .number n => compact (.number n)
  | .string s => compact (.string s)

def prettyItems (level : Nat) : List Json → List Char
  | [] => newLine level ++ [']']
  | v :: vs => ',' :: newLine (level + 1) ++ pretty (level + 1) v ++ prettyItems level vs

def prettyMembers (level : Nat) : List (Option String × Json) → List Char
  | [] => newLine level ++ [closing]
  | (k, v) :: ms =>
    ',' :: newLine (level + 1) ++ string (k.getD "") ++ [':', ' '] ++ pretty (level + 1) v
      ++ prettyMembers level ms

end

end Printer

/-- The form without blanks. -/
def compact (j : Json) : String := String.ofList (Printer.compact j)

/-- The form on several lines. -/
def pretty (j : Json) : String := String.ofList (Printer.pretty 0 j)

end RepairSearch.Json
