import RepairSearch.Grammar.Rust.Item
import RepairSearch.Grammar.Reading

/-!
# The grammar of Rust
-/

namespace RepairSearch.Grammar.Rust

open Rule

private def file : R :=
  seq (opt (token "shebang" true fun src i =>
      if i == 0 && src.ascii (src.run (fun c => isPlainSpace c && c != '\n') 2) != '[' then
        Scan.seqs [Scan.text "#!", Scan.many (· != '\n'), Scan.text "\n"] src i
      else none))
    (many (sym .statement))

private def rule : Symbol → R
  | .file => file
  | .statement => statement
  | .item => itemRule
  | .itemList => itemList
  | .block => blockRule
  | .operand => operand
  | .blockLike => blockLike
  | .arguments => argumentList
  | .attributes => attributes
  | .condition => conditionRule
  | .literal => literal
  | .pattern => anyPattern
  | .onePattern => onePattern
  | .parameters => parameters
  | .useClause => useClause
  | .typeOperand => typeOperand
  | .typeArguments => typeArguments
  | .typeParameters => typeParameters
  | .bounds => traitBounds
  | .whereClause => whereClause
  | .macroTree => macroTree
  | .ruleTree => ruleTree
  | .ruleTokens => ruleTokens
  | .patternTree => patternTree
  | .patternTokens => patternTokens
  | .expression | .path | .type | .typePath => absent .empty

private def operatorsOf : Symbol → Operators Symbol
  | .expression => expressionOperators
  | .path => pathOperators
  | .type => typeOperators
  | .typePath => typePathOperators
  | s => { operand := sym s, tails := [] }

def grammar : Grammar Symbol :=
  { start := .file
    rule := rule
    operators := operatorsOf
    index := Symbol.ctorIdx
    skip := skip
    filler? := filler? }

/-- The tree of a text. -/
def parse (src : Source) : Option Syntax.Tree := grammar.read src "source_file"

end RepairSearch.Grammar.Rust
