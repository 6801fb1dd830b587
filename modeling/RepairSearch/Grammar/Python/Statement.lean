import RepairSearch.Grammar.Python.Expression

/-!
# Statements of Python
-/

namespace RepairSearch.Grammar.Python

open Rule

private def dottedName : R :=
  .node "dotted_name" (seq name (many (onLine (seq (op ".") name))))

private def importList : R :=
  let one := alt
    (.node "aliased_import" (seqs [field "name" dottedName, keyword "as", field "alias" name]))
    dottedName
  seq (field "name" one)
    (seq (many (onLine (seq (exact ",") (onLine (field "name" one))))) (opt (onLine (exact ","))))

private def imported : R := alt (brackets "(" importList ")") importList

private def importStatements : List R :=
  let relative := .node "relative_import" (seq
    (.node "import_prefix" (many1 (exact ".")))
    (opt (seq (absent (keyword "import")) dottedName)))
  [.node "import_statement" (seq (keyword "import") importList),
   .node "future_import_statement" (seqs [keyword "from", keyword "__future__",
     keyword "import", imported]),
   .node "import_from_statement" (seqs [keyword "from",
     header (field "module_name" (alt relative dottedName)), keyword "import",
     alt (.node "wildcard_import" (exact "*")) imported])]

private def moreValues : R := many (onLine (seq (exact ",") (onLine value)))

private def printArguments : R :=
  seqs [field "argument" value, many (onLine (seq (exact ",") (onLine (field "argument" value)))),
    opt (onLine (exact ","))]

private def printTo : R :=
  .node "print_statement" (seqs [keyword "print",
    .node "chevron" (onLine (seq (exact ">>") value)),
    many (onLine (seq (exact ",") (onLine (field "argument" value)))), opt (onLine (exact ","))])

private def assignmentRight : R :=
  field "right" (alts [sym .simple, sym .values, sym .targets])

/-- An assignment, with or without a type or an operator. -/
def assignment : R :=
  let types := seq (onLine (exact ":")) (field "type" (sym .type))
  let right := seq (onLine (op "=")) assignmentRight
  let augmented := ["+=", "-=", "*=", "/=", "@=", "//=", "%=", "**=", ">>=", "<<=", "&=", "^=",
    "|="]
  alt
    (.node "assignment" (seq (field "left" (sym .targets)) (alt (seq types (opt right)) right)))
    (.node "augmented_assignment" (seqs [field "left" (sym .targets),
      onLine (field "operator" (alts (augmented.map op))), assignmentRight]))

private def expressionStatement : R :=
  .node "expression_statement" (alts [
    sym .simple,
    seq value (alt (seq (many1 (onLine (seq (exact ",") (onLine value)))) (opt (onLine (exact ","))))
      (onLine (exact ","))),
    value,
    sym .values])

private def statementEnd : R := alt (exact ";") (.mark newline)

private def bare (word kind : String) : R := .node kind (keyword word)

private def nameList (word kind : String) : R :=
  .node kind (seqs [keyword word, name, many (onLine (seq (exact ",") name))])

/-- A statement on one line. A word such as `print` first counts as a name. -/
private def simpleStatement : R :=
  alts (importStatements ++ [
    printTo,
    .node "assert_statement" (seqs [keyword "assert", value, moreValues]),
    .node "return_statement" (seq (keyword "return") (opt (onLine (sym .values)))),
    .node "delete_statement" (seq (keyword "del") (sym .values)),
    .node "raise_statement" (seqs [keyword "raise",
      opt (onLine (seq (absent (keyword "from")) (sym .values))),
      opt (onLine (seq (keyword "from") (field "cause" value)))]),
    bare "pass" "pass_statement", bare "break" "break_statement",
    bare "continue" "continue_statement",
    nameList "global" "global_statement", nameList "nonlocal" "nonlocal_statement",
    .node "type_alias_statement" (seqs [keyword "type", field "left" (sym .type), onLine (op "="),
      field "right" (sym .type)]),
    seqs [absent (alts ((statementWords.filter (· != "lambda")).map keyword)),
      expressionStatement, ahead statementEnd],
    .node "exec_statement" (seqs [keyword "exec", field "code" (alt (sym .string) name),
      opt (onLine (seqs [keyword "in", value, moreValues]))]),
    .node "print_statement" (seq (keyword "print") (onLine printArguments))])

/-- Statements joined by semicolons up to the end of their line. -/
def simpleLine : R :=
  within (fun c => { c with lineEnds := true }) <| seqs [simpleStatement,
    many (onLine (seq (exact ";") (onLine simpleStatement))), opt (onLine (exact ";")),
    .mark newline]

/-- The body of a compound statement: a block on lines of its own, an empty line, or statements on
the same line. -/
def suite : R :=
  alts [
    indented indent (.node "block" (seq (many (sym .statement)) (.mark dedent))),
    seq (check fun src ctx i => (indent src ctx i).isNone) (.node "block" (.mark newline)),
    .node "block" (sym .simpleLine)]

private def body : R := seq (exact ":") (field "body" (sym .suite))

private def elseClause : R :=
  ifWord "else" (field "alternative" (.node "else_clause" (seq (keyword "else") body)))

private def ifStatement : R :=
  let branch := seqs [header (field "condition" value), exact ":",
    field "consequence" (sym .suite)]
  .node "if_statement" (seqs [keyword "if", branch,
    many (field "alternative" (.node "elif_clause" (seq (keyword "elif") branch))),
    absent (keyword "elif"), elseClause])

private def forStatement : R :=
  .node "for_statement" (seqs [opt (keyword "async"), keyword "for",
    header (seqs [field "left" (sym .targets), keyword "in", field "right" (sym .values)]),
    body, elseClause])

private def tryStatement : R :=
  let handler := .node "except_clause" (seqs [keyword "except", opt (exact "*"),
    header (opt (commaList (field "value" value))), exact ":", sym .suite])
  .node "try_statement" (seqs [keyword "try", body,
    many handler, absent (keyword "except"), elseClause,
    ifWord "finally" (.node "finally_clause" (seqs [keyword "finally", exact ":", sym .suite]))])

private def withStatement : R :=
  let item := .node "with_item" (field "value" value)
  .node "with_statement" (seqs [opt (keyword "async"), keyword "with",
    header (alt
      (seq (.node "with_clause" (brackets "(" (openList item) ")")) (ahead (exact ":")))
      (.node "with_clause" (openList item))),
    body])

private def functionDefinition : R :=
  .node "function_definition" (seqs [opt (keyword "async"), keyword "def",
    header (seqs [field "name" name, opt (field "type_parameters" (sym .typeParameter)),
      field "parameters" (sym .parameters),
      opt (seq (op "->") (field "return_type" (sym .type)))]),
    body])

private def classDefinition : R :=
  .node "class_definition" (seqs [keyword "class",
    header (seqs [field "name" name, opt (field "type_parameters" (sym .typeParameter)),
      opt (field "superclasses" (sym .arguments))]),
    body])

private def decoratedDefinition : R :=
  .node "decorated_definition" (seq
    (many1 (.node "decorator" (seqs [exact "@",
      within (fun c => { c with lineEnds := true }) (seq value (.mark newline))])))
    (field "definition" (alt classDefinition functionDefinition)))

private def caseClause : R :=
  .node "case_clause" (seqs [keyword "case",
    header (seqs [openList (sym .casePattern),
      opt (field "guard" (.node "if_clause" (seq (keyword "if") value)))]),
    exact ":", field "consequence" (sym .suite)])

private def matchStatement : R :=
  .node "match_statement" (seqs [keyword "match",
    header (openList (field "subject" value)), exact ":",
    field "body" (alt
      (indented indent (.node "block" (seq (many (field "alternative" caseClause)) (.mark dedent))))
      (seq (check fun src ctx i => (indent src ctx i).isNone) (.node "block" (.mark newline))))])

private def caseNumber : R :=
  seq (opt (exact "-")) (alt (token "float" true float) (token "integer" true integer))

/-- A pattern without alternatives and names. -/
def simplePattern : R :=
  alts [
    .node "class_pattern" (seq dottedName (brackets "(" (opt (openList (sym .casePattern))) ")")),
    .node "splat_pattern" (seq (alt (op "**") (op "*")) name),
    .node "list_pattern" (brackets "[" (opt (openList (sym .casePattern))) "]"),
    .node "tuple_pattern" (brackets "(" (opt (openList (sym .casePattern))) ")"),
    .node "dict_pattern" (brackets "\x7b" (opt (openList (alt
      (seqs [field "key" (sym .simplePattern), exact ":", field "value" (sym .casePattern)])
      (.node "splat_pattern" (seq (op "**") name))))) "\x7d"),
    .node "complex_pattern" (seqs [caseNumber, alt (exact "+") (exact "-"), caseNumber]),
    .node "concatenated_string" (seq (sym .string) (many1 (sym .string))),
    sym .string, caseNumber,
    token "true" true (Scan.wordWhere word (· == "True")),
    token "false" true (Scan.wordWhere word (· == "False")),
    token "none" true (Scan.wordWhere word (· == "None")),
    keyword "_", dottedName]

/-- A pattern of a case. -/
def casePattern : R :=
  .node "case_pattern" (alts [
    .node "as_pattern" (seqs [.node "case_pattern" plain, keyword "as", name]),
    plain])
where
  plain := alts [
    .node "keyword_pattern" (seqs [name, op "=", sym .simplePattern]),
    .node "union_pattern" (seq (sym .simplePattern) (many1 (seq (exact "|") (sym .simplePattern)))),
    sym .simplePattern]

/-- Any statement. -/
def statement : R :=
  alts [
    ifStatement, forStatement,
    .node "while_statement" (seqs [keyword "while", header (field "condition" value), body,
      elseClause]),
    tryStatement, withStatement, functionDefinition, classDefinition, decoratedDefinition,
    matchStatement,
    sym .simpleLine]

end RepairSearch.Grammar.Python
