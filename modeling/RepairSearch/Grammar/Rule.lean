import RepairSearch.Grammar.Source

/-!
# Grammars as data

A grammar maps each of its symbols to a rule. Choices are ordered: the first alternative that
matches is taken. Operator expressions are described by an operand and a list of continuations
with binding powers, so that left recursion never arises.
-/

namespace RepairSearch

namespace Grammar

/-- What a rule may ask about its surroundings. -/
structure Context where
  /-- A line break may end the statement being read. -/
  lineEnds : Bool := false
  /-- The token after an expression belongs to the form around it: a brace opens a body, a colon
  ends a branch. -/
  stopsShort : Bool := false
  /-- The word `in` ends an expression. -/
  inEnds : Bool := false
  /-- Columns of the open indented blocks, innermost first. -/
  indents : List Nat := []
deriving Ord, Repr, Inhabited

/-- Recognises a token at an offset and gives the offset after it. -/
abbrev Scanner := Source → Nat → Option Nat

/-- Recognises a token that depends on the surroundings. -/
abbrev ContextScanner := Source → Context → Nat → Option Nat

inductive Rule (σ : Type) where
  /-- Nothing. -/
  | empty
  /-- A token after blanks and comments; one of empty kind leaves no node. -/
  | token (kind : String) (named : Bool) (scan : Scanner)
  /-- A token that stands directly after the one before it. -/
  | adjacent (kind : String) (named : Bool) (scan : Scanner)
  /-- A token without characters that leaves no node. -/
  | mark (scan : ContextScanner)
  /-- A condition on what follows. -/
  | check (holds : Source → Context → Nat → Bool)
  /-- What another symbol stands for. -/
  | sym (s : σ)
  /-- An operator expression whose outermost operators bind at least as strongly as `power`. -/
  | climb (s : σ) (power : Nat)
  | seq (first second : Rule σ)
  | alt (first second : Rule σ)
  /-- As many repetitions as match. -/
  | many (r : Rule σ)
  /-- Matches without reading. -/
  | ahead (r : Rule σ)
  /-- Matches nothing, where the rule does not match. -/
  | absent (r : Rule σ)
  /-- Gives the nodes of a rule a field of the surrounding node. -/
  | field (name : String) (r : Rule σ)
  /-- The rule, where it gives one node of a listed kind. -/
  | ofKind (kinds : List String) (r : Rule σ)
  /-- A node made of what the rule matches. -/
  | node (kind : String) (r : Rule σ)
  /-- The rule in other surroundings. -/
  | within (change : Context → Context) (r : Rule σ)
  /-- The rule inside a block that is indented more deeply; the scanner gives the offset of the
  indentation mark and the column of the block. -/
  | indented (scan : Source → Context → Nat → Option (Nat × Nat)) (r : Rule σ)

namespace Rule

variable {σ : Type}

def seqs : List (Rule σ) → Rule σ
  | [] => empty
  | [r] => r
  | r :: rs => seq r (seqs rs)

/-- The first of several rules that matches. -/
def alts : List (Rule σ) → Rule σ
  | [] => absent empty
  | [r] => r
  | r :: rs => alt r (alts rs)

def opt (r : Rule σ) : Rule σ := alt r empty

def many1 (r : Rule σ) : Rule σ := seq r (many r)

/-- One or more with a separator between them. -/
def sepBy1 (sep r : Rule σ) : Rule σ := seq r (many (seq sep r))

end Rule

/-- How an operand can be continued to the right. -/
structure Tail (σ : Type) where
  power : Nat
  kind : String
  /-- The field of the operand in the longer expression. -/
  left : Option String := none
  rest : Rule σ

/-- The shape of an operator expression. -/
structure Operators (σ : Type) where
  operand : Rule σ
  tails : List (Tail σ)

end Grammar

open Grammar in
/-- Rules for symbols, and what lies between tokens. -/
structure Grammar (σ : Type) where
  start : σ
  rule : σ → Rule σ
  /-- The operator expressions among the symbols. -/
  operators : σ → Operators σ
  /-- A number for each symbol. -/
  index : σ → Nat
  /-- The end of the blanks and comments at an offset; none where no token may follow. -/
  skip : ContextScanner
  /-- The comment or other filler that starts at an offset: its kind and end. -/
  filler? : Source → Nat → Option (String × Nat)
  initial : Context := {}

end RepairSearch
