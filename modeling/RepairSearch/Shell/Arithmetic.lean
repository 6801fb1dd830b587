/-!
# Arithmetic

Integer expressions with the usual operators, comparisons that are one or zero, brackets and
variables.
-/

namespace RepairSearch.Shell.Arithmetic

/-- The operators from the loosest to the tightest, those before others that they begin with. -/
def operators : List (List String) :=
  [["==", "!=", "<=", ">=", "<", ">"], ["+", "-"], ["*", "/", "%"]]

private def truth (p : Prop) [Decidable p] : Int := if p then 1 else 0

/-- Division goes toward zero and has no value at zero. -/
def combine? (op : String) (a b : Int) : Option Int :=
  match op with
  | "+" => some (a + b)
  | "-" => some (a - b)
  | "*" => some (a * b)
  | "/" => if b = 0 then none else some (Int.tdiv a b)
  | "%" => if b = 0 then none else some (Int.tmod a b)
  | "<" => some (truth (a < b))
  | ">" => some (truth (b < a))
  | "<=" => some (truth (a ≤ b))
  | ">=" => some (truth (b ≤ a))
  | "==" => some (truth (a = b))
  | "!=" => some (truth (a ≠ b))
  | _ => none

private def skipBlanks (cs : List Char) : List Char := cs.dropWhile Char.isWhitespace

private def isNameChar (c : Char) : Bool := c.isAlphanum || c == '_'

mutual

/-- An expression of the operators of some levels, and what follows it. -/
private def level? (value : String → Int) :
    Nat → List (List String) → List Char → Option (Int × List Char)
  | 0, _, _ => none
  | fuel + 1, [], cs => primary? value fuel (skipBlanks cs)
  | fuel + 1, ops :: tighter, cs => do
    let (a, rest) ← level? value fuel tighter cs
    more? value fuel ops tighter a rest

/-- The operators of one level that follow a value. -/
private def more? (value : String → Int) :
    Nat → List String → List (List String) → Int → List Char → Option (Int × List Char)
  | 0, _, _, _, _ => none
  | fuel + 1, ops, tighter, a, cs =>
    let cs := skipBlanks cs
    match ops.find? fun op => op.toList.isPrefixOf cs with
    | none => some (a, cs)
    | some op => do
      let (b, rest) ← level? value fuel tighter (cs.drop op.length)
      more? value fuel ops tighter (← combine? op a b) rest

private def primary? (value : String → Int) : Nat → List Char → Option (Int × List Char)
  | 0, _ => none
  | fuel + 1, cs =>
    match cs with
    | '-' :: rest => (primary? value fuel (skipBlanks rest)).map fun (a, rest) => (-a, rest)
    | '+' :: rest => primary? value fuel (skipBlanks rest)
    | '(' :: rest => do
      let (a, rest) ← level? value fuel operators rest
      match skipBlanks rest with
      | ')' :: rest => some (a, rest)
      | _ => none
    | _ =>
      let word := cs.takeWhile isNameChar
      let rest := cs.drop word.length
      let text := String.ofList word
      match word with
      | [] => none
      | c :: _ => if c.isDigit then text.toInt?.map (·, rest) else some (value text, rest)

end

/-- The value of an expression, if it has one; an empty expression is zero. -/
def value? (value : String → Int) (cs : List Char) : Option Int :=
  if (skipBlanks cs).isEmpty then some 0
  else
    match level? value (8 * cs.length + 8) operators cs with
    | some (a, rest) => if (skipBlanks rest).isEmpty then some a else none
    | none => none

end RepairSearch.Shell.Arithmetic
