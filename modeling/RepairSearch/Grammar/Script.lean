import RepairSearch.Grammar.Script.Element
import RepairSearch.Grammar.Script.Statement
import RepairSearch.Grammar.Reading

/-!
# The grammar of JavaScript and its typed dialects
-/

namespace RepairSearch.Grammar.Script

open Rule

private def program : R :=
  seq (opt (token "hash_bang_line" true (Scan.andThen (Scan.text "#!") (Scan.many (· != '\n')))))
    (many (sym .statement))

private def rule (d : Dialect) : Symbol → R
  | .program => program
  | .statement => statements d
  | .declaration => declarations d
  | .block => block
  | .declarator => variableDeclarator d
  | .classTail => classTail d
  | .member => methodDefinition d
  | .decorator => decorator
  | .operand => operand d
  | .assignment => assignment
  | .atom => atom d
  | .expressions => expressionList
  | .arguments => argumentList
  | .object => objectLiteral
  | .array => arrayLiteral
  | .template => templateLiteral
  | .string => stringLiteral
  | .propertyName => propertyName
  | .signature => callSignature d
  | .parameters => formalParameters d
  | .pattern => anyPattern
  | .destructuring => destructuringPattern
  | .target => assignmentTarget
  | .element => elementRule d
  | .attribute => attributeRule
  | .typeOperand => typeOperand
  | .typeArguments => typeArguments
  | .typeParameters => typeParameters
  | .typeAscription => typeAscription
  | .typeMember => typeMember
  | .objectType => objectType d
  | .expression | .primary | .constructor | .elementName | .type | .moduleName => absent .empty

private def operatorsOf (d : Dialect) : Symbol → Operators Symbol
  | .expression => expressionOperators d
  | .primary => primaryOperators d
  | .constructor => constructorOperators d
  | .elementName => elementNameOperators
  | .type => typeOperators d
  | .moduleName => moduleNameOperators
  | s => { operand := sym s, tails := [] }

/-- The grammar of a dialect. -/
def grammar (d : Dialect) : Grammar Symbol :=
  { start := .program
    rule := rule d
    operators := operatorsOf d
    index := Symbol.ctorIdx
    skip := skip
    filler? := filler? }

/-- The tree of a text in a dialect. -/
def parse (d : Dialect) (src : Source) : Option Syntax.Tree := (grammar d).read src "program"

end RepairSearch.Grammar.Script
