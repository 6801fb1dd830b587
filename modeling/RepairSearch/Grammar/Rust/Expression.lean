import RepairSearch.Grammar.Rust.Type

/-!
# Expressions and patterns of Rust
-/

namespace RepairSearch.Grammar.Rust

open Rule

private def stringLiteral : R :=
  .node "string_literal" (seqs [
    token "\"" false (Scan.andThen (Scan.opt (Scan.char fun c => c == 'b' || c == 'c'))
      (Scan.text "\"")),
    many (alt (.adjacent "escape_sequence" true escapeSequence)
      (.adjacent "string_content" true stringContent)),
    .adjacent "\"" false (Scan.text "\"")])

def literal : R :=
  alts [stringLiteral, token "raw_string_literal" true rawString,
    token "char_literal" true character,
    .node "boolean_literal" (alt (keyword "true") (keyword "false")),
    token "float_literal" true float, integerLiteral]

private def negative : R :=
  .node "negative_literal" (seq (exact "-") (alt (token "float_literal" true float) integerLiteral))

private def structName : R :=
  ofKind ["type_identifier", "scoped_type_identifier"] (climb .typePath 0)

private def valuePath : R :=
  ofKind ["identifier", "scoped_identifier", "self", "super", "crate", "metavariable"]
    (climb .path 0)

private def rest : R := .node "remaining_field_pattern" (op "..")

private def fieldPattern : R :=
  .node "field_pattern" (seqs [opt (keyword "ref"), opt mutable,
    alt
      (seqs [field "name" (alt (name "field_identifier") integerLiteral), op ":",
        field "pattern" (sym .pattern)])
      (field "name" (name "shorthand_field_identifier"))])

private def rangePattern : R :=
  let bound := alts [negative, sym .literal, valuePath]
  let mark := alts [op "...", op "..=", op ".."]
  .node "range_pattern" (alt
    (seq (field "left" bound) (alt (seq mark (field "right" bound)) (op "..")))
    (seq (alt (op "..=") (op "..")) (field "right" bound)))

/-- A pattern that is no choice of several. -/
def onePattern : R :=
  let callee := ofKind ["identifier", "scoped_identifier", "generic_type"] (climb .path 0)
  alts [
    .node "ref_pattern" (seq (keyword "ref") (sym .onePattern)),
    .node "mut_pattern" (seq mutable (sym .onePattern)),
    .node "reference_pattern" (seqs [exact "&", opt mutable, sym .onePattern]),
    .node "const_block" (seq (keyword "const") (field "body" (sym .block))),
    .node "captured_pattern" (seqs [name, exact "@", sym .onePattern]),
    rangePattern, negative, sym .literal,
    .node "tuple_pattern" (brackets "(" (commaList (sym .pattern)) ")"),
    .node "slice_pattern" (brackets "[" (commaList (sym .pattern)) "]"),
    rest,
    seq (keyword "_") .empty,
    .node "macro_invocation" (seqs [field "macro" callee, op "!", sym .macroTree]),
    .node "tuple_struct_pattern" (seq (field "type" callee)
      (brackets "(" (commaList (sym .pattern)) ")")),
    .node "struct_pattern" (seq (field "type" structName)
      (brackets "\x7b" (commaList (alt rest fieldPattern)) "\x7d")),
    .node "generic_pattern" (seqs [ofKind ["identifier", "scoped_identifier"] (climb .path 0),
      exact "::", field "type_arguments" (sym .typeArguments)]),
    ofKind ["scoped_identifier"] (climb .path 0),
    nameExcept patternWords]

/-- A pattern, or a choice of several. -/
def anyPattern : R :=
  let choice := seq (sym .onePattern) (many1 (seq (op "|") (sym .onePattern)))
  alts [.node "or_pattern" (seq (op "|") (seq (sym .onePattern) (many (seq (op "|")
      (sym .onePattern))))),
    .node "or_pattern" choice, sym .onePattern]

private def letCondition : R :=
  .node "let_condition" (seqs [keyword "let", field "pattern" (sym .pattern), op "=",
    field "value" (climb .expression 4)])

/-- A condition before a body. -/
def conditionRule : R :=
  let item := alt letCondition (climb .expression 4)
  beforeBody (alts [
    seq value (absent (op "&&")),
    .node "let_chain" (seq item (many1 (seq (op "&&") item))),
    letCondition])

private def body : R := field "body" (sym .block)

private def ifExpression : R :=
  .node "if_expression" (seqs [keyword "if", field "condition" (sym .condition),
    field "consequence" (sym .block),
    opt (field "alternative" (.node "else_clause" (seq (keyword "else")
      (alt (sym .block) (ofKind ["if_expression"] (sym .blockLike))))))])

private def matchExpression : R :=
  let pattern := field "pattern" (.node "match_pattern" (seq (sym .pattern)
    (opt (seq (keyword "if") (field "condition" (sym .condition))))))
  let arm := .node "match_arm" (seqs [sym .attributes, inside pattern, exact "=>",
    inside (alts [
      seq (field "value" value) (exact ","),
      seq (field "value" (sym .blockLike)) (absent (exact ",")),
      seq (field "value" value) (ahead (exact "\x7d"))])])
  .node "match_expression" (seqs [keyword "match", field "value" (beforeBody value),
    field "body" (.node "match_block" (seqs [exact "\x7b", many arm, exact "\x7d"]))])

private def labelled : R := opt (seq label (exact ":"))

/-- An expression that ends with its own braces. -/
def blockLike : R :=
  alts [ifExpression, matchExpression,
    .node "while_expression" (seqs [labelled, keyword "while", field "condition" (sym .condition),
      body]),
    .node "loop_expression" (seqs [labelled, keyword "loop", body]),
    .node "for_expression" (seqs [labelled, keyword "for", field "pattern" (sym .pattern),
      keyword "in", field "value" (beforeBody value), body]),
    .node "unsafe_block" (seq (keyword "unsafe") (sym .block)),
    .node "async_block" (seqs [keyword "async", opt (keyword "move"), sym .block]),
    .node "gen_block" (seqs [keyword "gen", opt (keyword "move"), sym .block]),
    .node "try_block" (seq (keyword "try") (sym .block)),
    .node "const_block" (seq (keyword "const") body),
    sym .block]

private def fieldInitializers : R :=
  let one := alts [
    .node "base_field_initializer" (seq (op "..") value),
    .node "field_initializer" (seqs [sym .attributes,
      field "field" (alt (name "field_identifier") integerLiteral), op ":",
      field "value" value]),
    .node "shorthand_field_initializer" (seq (sym .attributes) name)]
  .node "field_initializer_list" (brackets "\x7b" (commaList one) "\x7d")

private def structExpression : R :=
  let named := ofKind ["type_identifier", "scoped_type_identifier", "generic_type"]
    (climb .typePath 0)
  .node "struct_expression" (seqs [
    check fun _ ctx _ => !ctx.stopsShort,
    absent (alts (operandWords.filter (fun w => w != "crate" && w != "self" && w != "super")
      |>.map keyword)),
    field "name" named, field "body" fieldInitializers])

private def closure : R :=
  let one := alt
    (.node "parameter" (seqs [opt mutable, field "pattern" (sym .onePattern), op ":",
      field "type" typeValue]))
    (sym .onePattern)
  .node "closure_expression" (seqs [opt (keyword "static"), opt (keyword "async"),
    opt (keyword "move"),
    field "parameters" (.node "closure_parameters"
      (seqs [exact "|", inside (commaList one), exact "|"])),
    alts [
      seqs [exact "->", field "return_type" typeValue, body],
      field "body" value, field "body" (keyword "_")]])

/-- A call of a macro, its arguments being tokens. -/
def macroInvocation : R :=
  .node "macro_invocation" (seqs [
    field "macro" (ofKind ["identifier", "scoped_identifier"] (climb .path 0)),
    op "!", sym .macroTree])

private def genericFunction : R :=
  .node "generic_function" (seqs [
    field "function" (ofKind ["identifier", "scoped_identifier"] (climb .path 0)),
    exact "::", field "type_arguments" (sym .typeArguments)])

/-- No brace that opens the body of the surrounding form comes next. -/
private def notBody : R :=
  check fun src ctx i => !ctx.stopsShort || src.ascii ((skip src ctx i).getD i) != '\x7b'

private def bracketed : R :=
  alts [
    .node "unit_expression" (seq (exact "(") (exact ")")),
    .node "parenthesized_expression" (brackets "(" value ")"),
    .node "tuple_expression" (brackets "(" (seqs [sym .attributes, value, exact ",",
      commaList value]) ")"),
    .node "array_expression" (brackets "[" (seq (sym .attributes) (alt
      (seqs [value, exact ";", field "length" value])
      (commaList (seq (sym .attributes) value)))) "]")]

namespace Power

def range : Nat := 1
def disjunction : Nat := 2
def conjunction : Nat := 3
def comparison : Nat := 4
def cast : Nat := 11
def unary : Nat := 12
def question : Nat := 13
def member : Nat := 14
def call : Nat := 15

end Power

/-- What an expression begins with, prefix operators included. -/
def operand : R :=
  alts [
    structExpression, macroInvocation, genericFunction, sym .literal,
    .node "unary_expression" (seq (alts [exact "-", exact "*", op "!"])
      (climb .expression Power.unary)),
    .node "reference_expression" (seqs [exact "&",
      alt (seq (keyword "raw") (alt (keyword "const") mutable)) (opt mutable),
      field "value" (climb .expression Power.unary)]),
    closure, bracketed, sym .blockLike,
    .node "return_expression" (seq (keyword "return") (opt (seq notBody value))),
    .node "yield_expression" (seq (keyword "yield") (opt (seq notBody value))),
    .node "break_expression" (seqs [keyword "break", opt (seq label (absent (exact ":"))),
      opt (seq notBody value)]),
    .node "continue_expression" (seq (keyword "continue") (opt label)),
    .node "range_expression" (seq (alts [op "..=", op "..."  , op ".."])
      (opt (seq notBody (climb .expression (Power.range + 1))))),
    ofKind ["identifier", "scoped_identifier", "self", "metavariable", "super", "crate"]
      (climb .path 0)]

/-- The arguments of a call. -/
def argumentList : R :=
  .node "arguments" (brackets "(" (commaList (seq (sym .attributes) value)) ")")

private def binaryOperators : List (String × Nat) :=
  [("&&", Power.conjunction), ("||", Power.disjunction), ("&", 7), ("|", 5), ("^", 6),
   ("==", Power.comparison), ("!=", Power.comparison), ("<=", Power.comparison),
   ("<", Power.comparison), (">=", Power.comparison), (">", Power.comparison), ("<<", 8),
   (">>", 8), ("+", 9), ("-", 9), ("*", 10), ("/", 10), ("%", 10)]

private def compoundOperators : List String :=
  ["+=", "-=", "*=", "/=", "%=", "&=", "|=", "^=", "<<=", ">>="]

/-- Everything that continues an expression to the right. -/
def expressionOperators : Operators Symbol :=
  { operand := sym .operand
    tails := [
      { power := Power.member, kind := "await_expression"
        rest := seq (op ".") (keyword "await") },
      { power := Power.member, kind := "generic_function", left := some "function"
        rest := seq (exact "::") (field "type_arguments" (sym .typeArguments)) },
      { power := Power.member, kind := "field_expression", left := some "value"
        rest := seq (op ".") (field "field" (alt (name "field_identifier") integerLiteral)) },
      { power := Power.question, kind := "try_expression", rest := exact "?" },
      { power := Power.call, kind := "call_expression", left := some "function"
        rest := field "arguments" (sym .arguments) },
      { power := Power.call, kind := "index_expression", rest := brackets "[" value "]" },
      { power := Power.cast, kind := "type_cast_expression", left := some "value"
        rest := seq (keyword "as") (field "type" (sym .typeOperand)) }]
      ++ binaryOperators.map (fun (text, power) =>
        { power, kind := "binary_expression", left := some "left"
          rest := seq (field "operator" (op text))
            (field "right" (climb .expression (power + 1))) })
      ++ [
        { power := Power.range, kind := "range_expression"
          rest := seq (alts [op "..=", op "...", op ".."])
            (opt (seq notBody (climb .expression (Power.range + 1)))) },
        { power := 0, kind := "assignment_expression", left := some "left"
          rest := seq (op "=") (field "right" (climb .expression 1)) },
        { power := 0, kind := "compound_assignment_expr", left := some "left"
          rest := seq (field "operator" (alts (compoundOperators.map op)))
            (field "right" (climb .expression 1)) }] }

end RepairSearch.Grammar.Rust
