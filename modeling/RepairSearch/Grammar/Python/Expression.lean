import RepairSearch.Grammar.Python.Symbol

/-!
# Expressions and patterns of Python

Three layers: `postfixed` has attributes, subscripts and calls, `primary` the arithmetic operators,
and `expression` comparisons, logic and conditions.
-/

namespace RepairSearch.Grammar.Python

open Rule

/-- An expression in a format string, with what tells how to show it. -/
def interpolation (kind : String) : R :=
  .node kind (seqs [.adjacent "\x7b" false (Scan.text "\x7b"),
    inside (seqs [
      field "expression" (sym .values),
      opt (op "="),
      opt (field "type_conversion" (token "type_conversion" true
        (Scan.andThen (Scan.text "!") (Scan.char Char.isLower)))),
      opt (field "format_specifier" (.node "format_specifier" (seq (exact ":")
        (many (alt
          (.adjacent "" false (Scan.many1 fun c => c != '\x7b' && c != '\x7d' && c != '\n'))
          (sym .interpolation)))))),
      exact "\x7d"])])

private def quoted (q : Quotation) : R :=
  let piece := .adjacent "string_content" true q.content
  .node "string" (seqs [
    token "string_start" true q.opening,
    if q.format then many (alt piece (interpolation "interpolation")) else opt piece,
    .adjacent "string_end" true (Scan.text q.closing)])

def stringLiteral : R := alts (Quotation.all.map quoted)

private def splat : R := .node "list_splat" (seq (op "*") value)

private def spread : R := .node "dictionary_splat" (seq (op "**") value)

private def yielding : R :=
  .node "yield" (seq (keyword "yield") (alt
    (seq (keyword "from") value)
    (opt (onLine (sym .values)))))

private def elements : R := openList (alts [splat, yielding, value])

private def pair : R :=
  .node "pair" (seqs [field "key" value, exact ":", field "value" value])

/-- The clauses of a comprehension. Their conditions hold no conditional expression. -/
def comprehensionClauses : R :=
  seq forClause (many (alt forClause ifClause))
where
  forClause := .node "for_in_clause" (seqs [opt (keyword "async"), keyword "for",
    field "left" (sym .targets), keyword "in",
    field "right" (commaList (climb .expression 2)), opt (seq (exact ",") (absent value))])
  ifClause := .node "if_clause" (seq (keyword "if") (climb .expression 2))

private def bracketed (plain comprehension : String) (body content : R) (left right : String) : R :=
  alt
    (.node comprehension (brackets left (seq (field "body" body) (sym .comprehension)) right))
    (.node plain (brackets left content right))

private def generator : R :=
  .node "generator_expression" (brackets "(" (seq (field "body" value) (sym .comprehension)) ")")

private def parenthesized : R :=
  alts [generator,
    .node "parenthesized_expression" (brackets "(" (alt yielding value) ")"),
    .node "tuple" (brackets "(" (opt elements) ")")]

private def braced : R :=
  alt
    (bracketed "dictionary" "dictionary_comprehension" pair
      (opt (openList (alt pair spread))) "\x7b" "\x7d")
    (bracketed "set" "set_comprehension" value elements "\x7b" "\x7d")

/-- The arguments of a call, in parentheses. -/
def argumentList : R :=
  .node "argument_list" (brackets "(" (opt (openList (alts [
    .node "keyword_argument" (seqs [field "name" name, op "=", field "value" value]),
    spread, splat, value]))) ")")

private def named (kind text : String) : R := token kind true (Scan.wordWhere word (· == text))

/-- What stands at the beginning of an operand. -/
def atom : R :=
  alts [
    .node "concatenated_string" (seq (sym .string) (many1 (onLine (sym .string)))),
    sym .string,
    token "float" true (Scan.notBefore float fun _ _ => none),
    token "integer" true integer,
    named "true" "True", named "false" "False", named "none" "None",
    token "ellipsis" true (Scan.text "..."),
    bracketed "list" "list_comprehension" value (opt elements) "[" "]",
    parenthesized, braced,
    nameExcept operandWords]

private def slice : R :=
  .node "slice" (seqs [opt value, exact ":", opt value, opt (seq (exact ":") (opt value))])

/-- Attributes, subscripts and calls. -/
def postfixOperators : Operators Symbol :=
  { operand := sym .atom
    tails := [
      { power := 0, kind := "attribute", left := some "object"
        rest := onLine (seq (op ".") (field "attribute" name)) },
      { power := 0, kind := "subscript", left := some "value"
        rest := onLine (brackets "[" (openList (field "subscript" (alt slice value))) "]") },
      { power := 0, kind := "call", left := some "function"
        rest := onLine (field "arguments" (alt generator (sym .arguments))) }] }

namespace Power

def condition : Nat := 1
def disjunction : Nat := 10
def conjunction : Nat := 11
def negation : Nat := 12
def comparison : Nat := 13
def unary : Nat := 20
def exponent : Nat := 21

end Power

private def arithmetic : List (String × Nat) :=
  [("|", 14), ("&", 15), ("^", 16), ("<<", 17), (">>", 17), ("+", 18), ("-", 18), ("*", 19),
   ("@", 19), ("//", 19), ("/", 19), ("%", 19), ("**", Power.exponent)]

private def assignableKinds : List String := ["identifier", "attribute", "subscript"]

private def assignable : R := ofKind assignableKinds (climb .postfixed 0)

/-- Operands joined by arithmetic. -/
def primaryOperators : Operators Symbol :=
  { operand := alts [
      .node "unary_operator" (seq
        (field "operator" (alts [op "+", op "-", op "~"]))
        (field "argument" (climb .primary Power.unary))),
      .node "await" (seq (keyword "await") (climb .primary Power.unary)),
      .node "list_splat" (seq (op "*") assignable),
      climb .postfixed 0]
    tails := arithmetic.map fun (text, power) =>
      { power, kind := "binary_operator", left := some "left"
        rest := onLine (seq (field "operator" (op text)) (field "right"
          (climb .primary (if text == "**" then power else power + 1)))) } }

private def lambda : R :=
  .node "lambda" (seqs [keyword "lambda",
    header (opt (field "parameters" (.node "lambda_parameters" (openList untyped)))),
    exact ":", field "body" value])
where
  starred (kind text : String) : R := .node kind (seq (op text) assignable)
  untyped := alts [
    .node "default_parameter" (seqs [field "name" (alt name (sym .pattern)), op "=",
      field "value" value]),
    starred "list_splat_pattern" "*", starred "dictionary_splat_pattern" "**",
    .node "keyword_separator" (exact "*"), .node "positional_separator" (exact "/"),
    ofKind ["identifier", "tuple_pattern"] (sym .pattern)]

private def comparison : R :=
  let text := alts [op "<=", op "<", op "==", op "!=", op ">=", op ">", op "<>", keyword "in",
    seq (keyword "not") (keyword "in"), seq (keyword "is") (keyword "not"), keyword "is"]
  many1 (onLine (seq (field "operators" text) (climb .primary 0)))

/-- A word between two operands, the right one at a higher power. -/
private def logical (word : String) (power : Nat) : Tail Symbol :=
  { power, kind := "boolean_operator", left := some "left"
    rest := onLine (seq (field "operator" (keyword word))
      (field "right" (climb .expression (power + 1)))) }

/-- Comparisons, logic, conditions and names given by `as`. -/
def expressionOperators : Operators Symbol :=
  { operand := alts [
      .node "not_operator" (seq (keyword "not")
        (field "argument" (climb .expression Power.negation))),
      lambda,
      .node "named_expression" (seqs [field "name" (nameExcept operandWords),
        onLine (op ":="), field "value" value]),
      climb .primary 0]
    tails := [
      { power := Power.comparison, kind := "comparison_operator", rest := comparison },
      logical "and" Power.conjunction, logical "or" Power.disjunction,
      { power := Power.condition, kind := "conditional_expression"
        rest := onLine (seqs [keyword "if", header (climb .expression (Power.condition + 1)),
          keyword "else", climb .expression Power.condition]) },
      { power := 0, kind := "as_pattern"
        rest := onLine (seq (keyword "as")
          (field "alias" (.node "as_pattern_target" (climb .expression Power.condition)))) }] }

/-- One value, several, or a `yield`. -/
def values : R :=
  alts [
    yielding,
    .node "expression_list" (seq value (alt
      (seq (many1 (onLine (seq (exact ",") (onLine value)))) (opt (onLine (exact ","))))
      (onLine (exact ",")))),
    value]

/-- What a value can be bound to. -/
def pattern : R :=
  alts [assignable,
    .node "list_splat_pattern" (seq (op "*") assignable),
    .node "tuple_pattern" (brackets "(" (opt (openList (sym .pattern))) ")"),
    .node "list_pattern" (brackets "[" (opt (openList (sym .pattern))) "]")]

/-- One target or several. The word `in` ends them. -/
def targets : R :=
  let next := onLine (seq (absent (keyword "in")) (sym .pattern))
  alt
    (.node "pattern_list" (seq (sym .pattern) (alt
      (seq (many1 (onLine (seq (exact ",") next))) (opt (onLine (exact ","))))
      (onLine (exact ",")))))
    (sym .pattern)

def typeRule : R :=
  .node "type" (alts [
    .node "splat_type" (seq (alt (op "**") (op "*")) name),
    seq value (absent (onLine (exact "["))),
    .node "generic_type" (seq name (sym .typeParameter))])

/-- The type parameters of a class or function; each may be bounded. -/
def typeParameter : R :=
  .node "type_parameter" (brackets "[" (openList (alt
    (.node "type" (.node "constrained_type" (seqs [sym .type, exact ":", sym .type])))
    (sym .type))) "]")

/-- The parameters of a function, in parentheses. -/
def parameters : R :=
  .node "parameters" (brackets "(" (opt (openList one)) ")")
where
  starred (kind text : String) : R := .node kind (seq (op text) assignable)
  typed := seq (exact ":") (field "type" (sym .type))
  one := alts [
    .node "typed_default_parameter" (seqs [field "name" name, typed, op "=",
      field "value" value]),
    .node "typed_parameter" (seq (alts [name, starred "list_splat_pattern" "*",
      starred "dictionary_splat_pattern" "**"]) typed),
    .node "default_parameter" (seqs [field "name" (alt name (sym .pattern)), op "=",
      field "value" value]),
    starred "list_splat_pattern" "*", starred "dictionary_splat_pattern" "**",
    .node "keyword_separator" (exact "*"), .node "positional_separator" (exact "/"),
    ofKind ["identifier", "tuple_pattern"] (sym .pattern)]

end RepairSearch.Grammar.Python
