import RepairSearch.Grammar.Script.Symbol

/-!
# Expressions of the script languages

Three layers share the operators: `primary` has member access and calls, `constructor` is what may
follow `new`, and `expression` has all others. An operand of the top layer that starts like an
arrow function or an assignment is tried as such first.
-/

namespace RepairSearch.Grammar.Script

open Rule

variable (d : Dialect)

private def quoted (quote : String) (q : Char) : R :=
  seqs [exact quote,
    many (alts [
      .adjacent "string_fragment" true
        (Scan.many1 fun c => c != q && c != '\\' && c != '\r' && c != '\n'),
      .adjacent "escape_sequence" true escapeSequence]),
    .adjacent quote false (Scan.text quote)]

def stringLiteral : R := .node "string" (alt (quoted "\"" '"') (quoted "'" '\''))

def templateLiteral : R :=
  .node "template_string" <| seqs [exact "`",
    many (alts [
      .adjacent "string_fragment" true templateCharacters,
      .adjacent "escape_sequence" true escapeSequence,
      .node "template_substitution" (seqs [.adjacent "$\x7b" false (Scan.text "$\x7b"),
        inside (sym .expressions), exact "\x7d"])]),
    .adjacent "`" false (Scan.text "`")]

private def regexLiteral : R :=
  .node "regex" <| seqs [exact "/", field "pattern" (.adjacent "regex_pattern" true regexPattern),
    .adjacent "/" false (Scan.text "/"),
    opt (field "flags" (.adjacent "regex_flags" true (Scan.many1 Char.isLower)))]

def numberLiteral : R := token "number" true number

/-- The name of a member of an object or class. -/
def propertyName : R :=
  alts [anyWord "property_identifier", privateName, sym .string, numberLiteral,
    .node "computed_property_name" (brackets "[" value "]")]

/-- A word that modifies the member whose name follows. -/
def modifier (text : String) : R :=
  seq (keyword text) (ahead (alts [sym .propertyName, exact "*"]))

/-- A modifier that may be missing. -/
def marked (text : String) : R := opt (modifier text)

/-- What makes a method a getter, a setter or a generator. -/
def accessor : R := opt (alts [modifier "get", modifier "set", exact "*"])

def objectLiteral : R :=
  .node "object" (brackets "\x7b" (looseList entry) "\x7d")
where
  entry := alts [sym .member,
    .node "pair" (seqs [field "key" (sym .propertyName), exact ":", field "value" value]),
    .node "spread_element" (seq (exact "...") value),
    seq (nameExcept reservedWords "shorthand_property_identifier")
      (ahead (alt (exact ",") (exact "\x7d")))]

def arrayLiteral : R :=
  .node "array" (brackets "[" (looseList
    (alt (.node "spread_element" (seq (exact "...") value)) value)) "]")

def argumentList : R :=
  .node "arguments" (brackets "(" (looseList
    (alt (.node "spread_element" (seq (exact "...") value)) value)) ")")

private def assignableKinds : List String :=
  ["member_expression", "subscript_expression", "identifier", "undefined", "non_null_expression"]

private def assignable : R := ofKind assignableKinds (climb .primary 0)

def destructuringPattern : R :=
  alt
    (.node "object_pattern" (brackets "\x7b" (looseList objectEntry) "\x7d"))
    (.node "array_pattern" (brackets "[" (looseList element) "]"))
where
  element := alt
    (.node "assignment_pattern"
      (seqs [field "left" (sym .pattern), op "=", field "right" value]))
    (sym .pattern)
  shorthand := anyWord "shorthand_property_identifier_pattern"
  objectEntry := alts [
    .node "pair_pattern"
      (seqs [field "key" (sym .propertyName), exact ":", field "value" element]),
    .node "rest_pattern" (seq (exact "...") (alt assignable (sym .destructuring))),
    .node "object_assignment_pattern" (seqs [
      field "left" (alt shorthand (sym .destructuring)), op "=", field "right" value]),
    shorthand]

def anyPattern : R :=
  alts [assignable, sym .destructuring,
    .node "rest_pattern" (seq (exact "...") (alt assignable (sym .destructuring)))]

/-- What may stand to the left of an equals sign. -/
def assignmentTarget : R :=
  alt (ofKind ("parenthesized_expression" :: assignableKinds) (climb .primary 0))
    (sym .destructuring)

def accessibility : R :=
  .node "accessibility_modifier" (alts ([ "public", "private", "protected" ].map keyword))

private def typedParameter : R :=
  let name := seqs [decorators,
    opt (seq accessibility (ahead follows)),
    opt (seq (.node "override_modifier" (keyword "override")) (ahead follows)),
    opt (seq (keyword "readonly") (ahead follows)),
    field "pattern" (alt (.node "this" (keyword "this")) (sym .pattern))]
  let tail := seq (opt (field "type" (sym .typeAscription))) (opt initializer)
  alt (.node "optional_parameter" (seqs [name, exact "?", tail]))
    (.node "required_parameter" (seq name tail))
where
  follows := alts [anyWord "", exact "[", exact "\x7b"]

private def plainParameter : R :=
  alt
    (.node "assignment_pattern"
      (seqs [field "left" (sym .pattern), op "=", field "right" value]))
    (sym .pattern)

def formalParameters : R :=
  let one := if d.types then typedParameter else plainParameter
  .node "formal_parameters"
    (brackets "(" (opt (seq (commaList one) (opt (exact ",")))) ")")

/-- The annotation of a result: a type, or what a call tells about its arguments. -/
def resultAscription : R :=
  alts [
    .node "asserts_annotation" (seq (exact ":") assertion),
    .node "type_predicate_annotation" (seq (exact ":") predicate),
    sym .typeAscription]
where
  predicateName := alt (.node "this" (keyword "this")) (anyWord "identifier")
  predicate := .node "type_predicate"
    (seqs [field "name" predicateName, keyword "is", field "type" (climb .type 0)])
  assertion := .node "asserts"
    (seqs [keyword "asserts", absent (keyword "is"), alt predicate predicateName])

/-- Parameters with what may surround them in a typed dialect. -/
def callSignature : R :=
  if d.types then
    seqs [opt (field "type_parameters" (sym .typeParameters)),
      field "parameters" (sym .parameters),
      opt (field "return_type" resultAscription)]
  else field "parameters" (sym .parameters)

/-- Before a colon of the form around it, an arrow function has no annotation of its result. -/
private def arrowSignature : R :=
  if d.types then
    alt
      (seqs [check fun _ ctx _ => ctx.stopsShort,
        opt (field "type_parameters" (sym .typeParameters)), field "parameters" (sym .parameters)])
      (seq (check fun _ ctx _ => !ctx.stopsShort) (sym .signature))
  else sym .signature

private def arrowFunction (body : R) : R :=
  let name := field "parameter" (nameExcept (operandWords ++ reservedWords))
  let arrow := seqs [alt (seq name (ahead (op "=>"))) (arrowSignature d), op "=>",
    field "body" body]
  .node "arrow_function" (alt (seq (keyword "async") arrow) arrow)

/-- An arrow function that gives a value extends as far as the value does. -/
private def valueArrow : R := arrowFunction d (seq (absent (exact "\x7b")) value)

/-- An arrow function with a block ends with it. -/
private def blockArrow : R := arrowFunction d (sym .block)

/-- A function with or without a name, after `function`. -/
def functionBody (name : R) : R :=
  seqs [name, sym .signature, field "body" (sym .block)]

private def functionExpression : R :=
  let name := field "name" (binding d)
  let unlessParameters := opt (seq (absent (exact "(")) name)
  let header := seq (opt (keyword "async")) (keyword "function")
  alt (.node "generator_function" (seqs [header, exact "*", functionBody unlessParameters]))
    (.node "function_expression" (seq header (functionBody unlessParameters)))

private def classExpression : R :=
  let name := if d.types then typeName else nameExcept reservedWords
  .node "class" (seqs [decorators, keyword "class",
    opt (seqs [absent (alts [keyword "extends", keyword "implements"]), field "name" name]),
    sym .classTail])

private def named (text : String) : R := token text true (Scan.wordWhere word (· == text))

def parenthesized : R :=
  let typed := seq value (field "type" (sym .typeAscription))
  let inner := if d.types then alt (seq typed (ahead (exact ")"))) (sym .expressions)
    else sym .expressions
  .node "parenthesized_expression" (brackets "(" inner ")")

private def newExpression : R :=
  alt (.node "meta_property" (seqs [keyword "new", exact ".", keyword "target"]))
    (.node "new_expression" (seqs [keyword "new",
      field "constructor" (climb .constructor 0),
      opt (alt
        (seq (if d.types then field "type_arguments" (sym .typeArguments) else absent .empty)
          (field "arguments" (sym .arguments)))
        (field "arguments" (sym .arguments)))]))

private def importExpression : R :=
  alt (.node "meta_property" (seqs [keyword "import", exact ".", keyword "meta"]))
    (seq (named "import") (ahead (alt (exact "(") (exact "."))))

/-- What stands at the beginning of an operand with members and calls. -/
def atom : R :=
  alts [blockArrow d, functionExpression d, classExpression d, newExpression d, importExpression,
    named "this", named "super", named "true", named "false", named "null",
    numberLiteral, sym .string, sym .template, regexLiteral, sym .object, sym .array,
    parenthesized d, named "undefined",
    nameExcept (if d.types then operandWords else "yield" :: reservedWords)]

private def optionalChain : R :=
  field "optional_chain"
    (token "optional_chain" true (Scan.notBefore (Scan.text "?.") (Scan.char Char.isDigit)))

private def memberTail : Tail Symbol :=
  { power := 0, kind := "member_expression", left := some "object"
    rest := seq (alt (op ".") optionalChain)
      (field "property" (alt privateName (anyWord "property_identifier"))) }

private def subscriptTail : Tail Symbol :=
  { power := 0, kind := "subscript_expression", left := some "object"
    rest := seqs [opt optionalChain, exact "[", field "index" (inside (sym .expressions)),
      exact "]"] }

private def templateTail : Tail Symbol :=
  { power := 0, kind := "call_expression", left := some "function"
    rest := field "arguments" (sym .template) }

private def nonNullTail : Tail Symbol :=
  { power := 0, kind := "non_null_expression"
    rest := seq (sameStatement d) (op "!") }

private def callTail : Tail Symbol :=
  let types := if d.types then opt (field "type_arguments" (sym .typeArguments)) else .empty
  { power := 0, kind := "call_expression", left := some "function"
    rest := seqs [opt optionalChain, types, field "arguments" (sym .arguments)] }

/-- Type arguments that no operand follows. -/
private def instantiationTail : Tail Symbol :=
  { power := 0, kind := "instantiation_expression"
    rest := seq (field "type_arguments" (sym .typeArguments))
      (alt (check fun src ctx i => ctx.lineEnds && (lineEnd? d true src i).isSome)
        (absent (sym .operand))) }

/-- Operands with members and calls. -/
def primaryOperators : Operators Symbol :=
  { operand := sym .atom
    tails := [memberTail, subscriptTail, callTail d, templateTail]
      ++ if d.types then [nonNullTail d, instantiationTail d] else [] }

/-- What may follow `new`: members but no calls. -/
def constructorOperators : Operators Symbol :=
  { operand := sym .atom
    tails := [memberTail, subscriptTail, templateTail] ++ if d.types then [nonNullTail d] else [] }

namespace Power

def ternary : Nat := 6
def logicalOr : Nat := 7
def logicalAnd : Nat := 8
def bitOr : Nat := 9
def bitXor : Nat := 10
def bitAnd : Nat := 11
def equality : Nat := 12
def relation : Nat := 13
def shift : Nat := 14
def sum : Nat := 15
def product : Nat := 16
def exponent : Nat := 17
def unary : Nat := 18
def update : Nat := 19

end Power

private def binaryOperators : List (String × Nat) :=
  [("&&", Power.logicalAnd), ("||", Power.logicalOr), (">>>", Power.shift), (">>", Power.shift),
   ("<<", Power.shift), ("&", Power.bitAnd), ("^", Power.bitXor), ("|", Power.bitOr),
   ("+", Power.sum), ("-", Power.sum), ("**", Power.exponent), ("*", Power.product),
   ("/", Power.product), ("%", Power.product), ("<=", Power.relation), ("<", Power.relation),
   ("===", Power.equality), ("==", Power.equality), ("!==", Power.equality),
   ("!=", Power.equality), (">=", Power.relation), (">", Power.relation), ("??", Power.ternary)]

private def binaryTail (operator : R) (power rightPower : Nat) : Tail Symbol :=
  { power, kind := "binary_expression", left := some "left"
    rest := seq (field "operator" operator) (field "right" (climb .expression rightPower)) }

/-- A condition. Its first branch may hold an annotated arrow function, unless that would take the
colon of a form around the condition. -/
private def ternaryTail : Tail Symbol :=
  let mark := token "?" false fun src i => do
    let j ← src.literal? "?" i
    guard (src.ascii j != '?' && (src.ascii j != '.' || (src.ascii (j + 1)).isDigit))
    pure j
  let branch := fun (consequence : R) =>
    seqs [field "consequence" consequence, exact ":", field "alternative" value]
  { power := Power.ternary, kind := "ternary_expression", left := some "condition"
    rest := seq mark (alts [
      seq (check fun _ ctx _ => !ctx.stopsShort) (branch (inside value)),
      branch (beforeColon value), branch (inside value)]) }

private def castTail (word : String) (node : String) (what : R) : Tail Symbol :=
  { power := Power.relation, kind := node
    rest := seqs [sameStatement d, keyword word,
      within (fun c => { c with lineEnds := false }) what] }

def expressionOperators : Operators Symbol :=
  { operand := sym .operand
    tails :=
      { power := Power.update, kind := "update_expression", left := some "argument"
        rest := seq (sameStatement d) (field "operator" (alt (op "++") (op "--"))) }
      :: binaryOperators.map (fun (text, power) =>
        binaryTail (op text) power (if text == "**" then power else power + 1))
      ++ [binaryTail (keyword "instanceof") Power.relation (Power.relation + 1),
        binaryTail (seq (check fun _ ctx _ => !ctx.inEnds) (keyword "in")) Power.relation
          (Power.relation + 1),
        ternaryTail]
      ++ if d.types then
          [castTail d "as" "as_expression" (alt (seq (keyword "const") (absent (exact "."))) (climb .type 0)),
           castTail d "satisfies" "satisfies_expression" (climb .type 0)]
        else [] }

private def augmentedOperators : List String :=
  ["+=", "-=", "*=", "/=", "%=", "^=", "&=", "|=", ">>=", ">>>=", "<<=", "**=", "&&=", "||=", "??="]

/-- An assignment, plain or with an operator. -/
def assignment : R :=
  let plain := .node "assignment_expression" (seqs [field "left" (sym .target), op "=",
    field "right" value])
  let resource := .node "assignment_expression" (seqs [keyword "using", field "left" (sym .target),
    op "=", field "right" value])
  let augmented := .node "augmented_assignment_expression" (seqs [field "left" (sym .target),
    field "operator" (alts (augmentedOperators.map op)), field "right" value])
  alts [plain, augmented, resource]

/-- An operand of the operators below member access and calls. -/
def operand : R :=
  alts ([valueArrow d, sym .assignment]
    ++ (if d.elements then [sym .element] else [])
    ++ (if d.types && !d.elements then
          [.node "type_assertion" (seq (sym .typeArguments) (climb .expression Power.unary))]
        else [])
    ++ [.node "await_expression" (seq (keyword "await") (climb .expression Power.unary)),
      .node "unary_expression" (seq
        (field "operator" (alts (["!", "~", "-", "+"].map op
          ++ ["typeof", "void", "delete"].map keyword)))
        (field "argument" (climb .expression Power.unary))),
      .node "update_expression" (seq (field "operator" (alt (op "++") (op "--")))
        (field "argument" (climb .expression Power.unary))),
      .node "yield_expression" (seq (keyword "yield")
        (alts [seq (exact "*") value, seq (sameStatement d false) value, .empty])),
      seq privateName (ahead (keyword "in")),
      climb .primary 0])

def expressionList : R :=
  alt (.node "sequence_expression" (seq value (many1 (seq (exact ",") value)))) value

end RepairSearch.Grammar.Script
