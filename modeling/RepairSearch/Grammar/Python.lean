import RepairSearch.Grammar.Python.Statement
import RepairSearch.Grammar.Reading

/-!
# The grammar of Python
-/

namespace RepairSearch.Grammar.Python

open Rule

private def rule : Symbol → R
  | .module => many (sym .statement)
  | .statement => statement
  | .simpleLine => simpleLine
  | .simple => assignment
  | .suite => suite
  | .atom => atom
  | .string => stringLiteral
  | .interpolation => interpolation "format_expression"
  | .comprehension => comprehensionClauses
  | .arguments => argumentList
  | .parameters => parameters
  | .pattern => pattern
  | .targets => targets
  | .values => values
  | .type => typeRule
  | .typeParameter => typeParameter
  | .casePattern => casePattern
  | .simplePattern => simplePattern
  | .expression | .primary | .postfixed => absent .empty

private def operatorsOf : Symbol → Operators Symbol
  | .expression => expressionOperators
  | .primary => primaryOperators
  | .postfixed => postfixOperators
  | s => { operand := sym s, tails := [] }

def grammar : Grammar Symbol :=
  { start := .module
    rule := rule
    operators := operatorsOf
    index := Symbol.ctorIdx
    skip := skip
    filler? := filler?
    initial := { lineEnds := true } }

/-- The tree of a text. -/
def parse (src : Source) : Option Syntax.Tree := grammar.read src "module"

end RepairSearch.Grammar.Python
