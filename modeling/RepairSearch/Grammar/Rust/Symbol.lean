import RepairSearch.Grammar.Rust.Token

/-!
# Symbols of the Rust grammar
-/

namespace RepairSearch.Grammar.Rust

inductive Symbol where
  | file | statement | item | itemList | block
  | expression | operand | blockLike | path | arguments | attributes | condition | literal
  | pattern | onePattern | parameters | useClause
  | type | typeOperand | typePath | typeArguments | typeParameters | bounds | whereClause
  | macroTree | ruleTree | ruleTokens | patternTree | patternTokens
deriving DecidableEq, Repr

abbrev R := Rule Symbol

open Rule

def op (text : String) : R := token text false (Scan.operator operators text)

def exact (text : String) : R := token text false (Scan.text text)

def keyword (text : String) : R := token text false (Scan.wordWhere word (· == text))

def named (kind text : String) : R := token kind true (Scan.wordWhere word (· == text))

def name (kind : String := "identifier") : R := token kind true word

def nameExcept (words : List String) (kind : String := "identifier") : R :=
  token kind true (Scan.wordWhere word fun w => !words.contains w)

/-- Inside brackets. -/
def inside (r : R) : R := within (fun c => { c with stopsShort := false }) r

/-- Before a brace that opens a body, so that none can continue a name. -/
def beforeBody (r : R) : R := within (fun c => { c with stopsShort := true }) r

def brackets (left : String) (r : R) (right : String) : R :=
  seqs [exact left, inside r, exact right]

/-- Entries between commas; one may stand at the end. -/
def commaList (r : R) : R := opt (seq (sepBy1 (exact ",") r) (opt (exact ",")))

def value : R := climb .expression 0

def typeValue : R := climb .type 0

def mutable : R := named "mutable_specifier" "mut"

def selfName : R := named "self" "self"

def lifetime : R := .node "lifetime" (seq (exact "'") (.adjacent "identifier" true word))

def label : R := .node "label" (seq (exact "'") (.adjacent "identifier" true word))

def integerLiteral : R := token "integer_literal" true integer

end RepairSearch.Grammar.Rust
