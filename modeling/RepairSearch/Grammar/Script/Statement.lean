import RepairSearch.Grammar.Script.Type

/-!
# Statements and declarations of the script languages
-/

namespace RepairSearch.Grammar.Script

open Rule

variable (d : Dialect)

private def body (name : String := "body") : R := field name (sym .statement)

private def condition : R := field "condition" (ofKind ["parenthesized_expression"] (sym .atom))

def variableDeclarator : R :=
  let name := field "name" (alt (sym .destructuring) (binding d))
  let types := if d.types then opt (field "type" (sym .typeAscription)) else .empty
  let plain := .node "variable_declarator" (seqs [name, types, opt initializer])
  let definite := .node "variable_declarator"
    (seqs [field "name" (binding d), exact "!", field "type" (sym .typeAscription)])
  if d.types then alt definite plain else plain

private def lexicalDeclaration (stop : R) : R :=
  .node "lexical_declaration" (seqs [
    field "kind" (alt (keyword "let") (seq (keyword "const") (absent (keyword "enum")))),
    commaList (sym .declarator), stop])

private def variableDeclaration (stop : R) : R :=
  .node "variable_declaration" (seqs [keyword "var", commaList (sym .declarator), stop])

private def staticBlock : R :=
  .node "class_static_block" (seqs [keyword "static", field "body" (sym .block)])

private def access : R :=
  opt (seq accessibility (ahead (alts [sym .propertyName, exact "*"])))

private def override : R := opt (.node "override_modifier" (modifier "override"))

/-- A method of a class or object. -/
def methodDefinition : R :=
  if d.types then
    .node "method_definition" (seqs [access, marked "static", override, marked "readonly",
      marked "async", accessor, field "name" (sym .propertyName), opt (exact "?"), sym .signature,
      field "body" (sym .block)])
  else
    .node "method_definition" (seqs [decorators, marked "static", marked "async", accessor,
      field "name" (sym .propertyName), field "parameters" (sym .parameters),
      field "body" (sym .block)])

private def plainField : R :=
  .node "field_definition" (seqs [decorators, marked "static",
    field "property" (sym .propertyName), opt initializer])

private def typedField : R :=
  .node "public_field_definition" (seqs [decorators,
    opt (alt (seq (modifier "declare") access) (seq accessibility
      (seq (ahead (sym .propertyName)) (marked "declare")))),
    marked "static", override, marked "abstract", marked "readonly", marked "abstract",
    marked "accessor",
    field "name" (sym .propertyName), opt (alt (exact "?") (exact "!")),
    opt (field "type" (sym .typeAscription)), opt initializer])

private def plainMember : R :=
  alts [
    field "member" (seq (methodDefinition d) (opt (exact ";"))),
    field "member" staticBlock,
    seq (field "member" plainField) (terminator d false),
    exact ";"]

private def typedMember : R :=
  let stop := alt (terminator d false) (exact ",")
  alts [
    seqs [decorators, methodDefinition d, opt (exact ";")],
    staticBlock,
    seq (alts [abstractMethodSignature, indexSignature,
      seq methodSignature (absent (exact "\x7b"))]) stop,
    seq typedField stop,
    exact ";"]

def classBody : R :=
  .node "class_body" (seqs [exact "\x7b",
    onLines (many (if d.types then typedMember d else plainMember d)), exact "\x7d"])

private def typedHeritage : R :=
  let single := alt
    (seqs [field "value" (climb .constructor 0), field "type_arguments" (sym .typeArguments),
      absent (exact "(")])
    (field "value" value)
  let extending := .node "extends_clause" (seq (keyword "extends") (commaList single))
  let implementing := .node "implements_clause"
    (seq (keyword "implements") (commaList (climb .type 0)))
  .node "class_heritage" (alt (seq extending (opt implementing)) implementing)

/-- What follows the name of a class. -/
def classTail : R :=
  let heritage := if d.types then typedHeritage
    else .node "class_heritage" (seq (keyword "extends") value)
  let types := if d.types then opt (field "type_parameters" (sym .typeParameters)) else .empty
  seqs [types, opt (within (fun c => { c with lineEnds := false }) heritage),
    field "body" (classBody d)]

private def className : R := field "name" (if d.types then typeName else nameExcept reservedWords)

private def classDeclaration : R :=
  .node "class_declaration" (seqs [decorators, keyword "class",
    absent (alts [keyword "extends", keyword "implements"]), className d, sym .classTail])

private def abstractClass : R :=
  .node "abstract_class_declaration" (seqs [decorators, keyword "abstract", keyword "class",
    className d, sym .classTail])

/-- A decorator: a dotted name, possibly called, or an expression in parentheses. -/
def decorator : R :=
  .node "decorator" (seq (exact "@")
    (ofKind ["identifier", "member_expression", "call_expression", "parenthesized_expression"]
      (climb .primary 0)))

def functionDeclaration : R :=
  let header := seq (opt (keyword "async")) (keyword "function")
  let name := field "name" (binding d)
  alt (.node "generator_function_declaration" (seqs [header, exact "*", functionBody name]))
    (.node "function_declaration" (seq header (functionBody name)))

private def functionSignature : R :=
  .node "function_signature" (seqs [opt (keyword "async"), keyword "function",
    field "name" (binding d), sym .signature, terminator d false])

private def nestedName : R :=
  climb .moduleName 0

private def moduleBody : R :=
  let name := alts [sym .string,
    .node "nested_identifier" (seqs [field "object" nestedName, exact ".",
      field "property" (anyWord "property_identifier")]),
    anyWord "identifier"]
  seq (field "name" name) (opt (field "body" (sym .block)))

private def internalModule : R :=
  .node "internal_module" (seqs [keyword "namespace", sameStatement d false, moduleBody])

private def interfaceDeclaration : R :=
  let parent := field "type" (ofKind ["type_identifier", "nested_type_identifier", "generic_type"]
    (sym .typeOperand))
  .node "interface_declaration" (seqs [keyword "interface", field "name" typeName,
    opt (field "type_parameters" (sym .typeParameters)),
    opt (.node "extends_type_clause" (seq (keyword "extends") (commaList parent))),
    field "body" (.node "interface_body" (objectTypeBody d))])

private def enumDeclaration : R :=
  let entry := alt
    (.node "enum_assignment" (seq (field "name" (sym .propertyName)) initializer))
    (field "name" (sym .propertyName))
  .node "enum_declaration" (seqs [opt (keyword "const"), keyword "enum",
    field "name" (anyWord "identifier"),
    field "body" (.node "enum_body"
      (brackets "\x7b" (opt (seq (commaList entry) (opt (exact ",")))) "\x7d"))])

private def typeAlias : R :=
  .node "type_alias_declaration" (seqs [keyword "type", field "name" typeName,
    opt (field "type_parameters" (sym .typeParameters)), op "=", field "value" (climb .type 0),
    terminator d false])

private def importAlias : R :=
  .node "import_alias" (seqs [keyword "import", anyWord "identifier", op "=",
    alt (.node "nested_identifier" (seqs [nestedName, exact ".",
        anyWord "property_identifier"])) (anyWord "identifier"),
    terminator d false])

private def ambientDeclaration : R :=
  .node "ambient_declaration" (seq (keyword "declare") (alts [
    seq (keyword "global") (sym .block),
    seqs [keyword "module", exact ".", anyWord "property_identifier", exact ":", climb .type 0,
      terminator d false],
    sym .declaration]))

/-- The declarations; those of names first tried as declarations of types. -/
def declarations : R :=
  let common := [functionDeclaration d, classDeclaration d, lexicalDeclaration (terminator d),
    variableDeclaration (terminator d)]
  let typed := [functionSignature d, abstractClass d,
    .node "module" (seqs [keyword "module", sameStatement d false, moduleBody]),
    internalModule d, typeAlias d, enumDeclaration, interfaceDeclaration d, importAlias d,
    ambientDeclaration d]
  alts (common ++ if d.types then typed else [])

private def externalName : R := alt (sym .string) (anyWord "identifier")

private def fromClause : R := seq (keyword "from") (field "source" (sym .string))

private def typeMark : R :=
  if d.types then
    opt (seq (alt (keyword "type") (keyword "typeof"))
      (ahead (alts [seq (absent (keyword "from")) (anyWord ""), seq (keyword "from") (keyword "from"),
        exact "\x7b", exact "*"])))
  else .empty

private def specifierMark : R :=
  if d.types then
    opt (seq (alt (keyword "type") (keyword "typeof"))
      (ahead (alt (sym .string) (seq (absent (keyword "as")) (anyWord "")))))
  else .empty

private def namespaceImport : R :=
  .node "namespace_import" (seqs [exact "*", keyword "as", anyWord "identifier"])

private def namedImports : R :=
  let one := .node "import_specifier" (seq (specifierMark d) (alt
    (seqs [field "name" externalName, keyword "as", field "alias" (anyWord "identifier")])
    (field "name" (anyWord "identifier"))))
  .node "named_imports" (brackets "\x7b" (opt (seq (commaList one) (opt (exact ",")))) "\x7d")

private def importClause : R :=
  .node "import_clause" (alts [namespaceImport, namedImports d,
    seq (anyWord "identifier")
      (opt (seq (exact ",") (alt namespaceImport (namedImports d))))])

private def importStatement : R :=
  let required := .node "import_require_clause" (seqs [anyWord "identifier", op "=",
    keyword "require", exact "(", field "source" (sym .string), exact ")"])
  let source := alts ([seq (importClause d) fromClause]
    ++ (if d.types then [required] else []) ++ [field "source" (sym .string)])
  .node "import_statement" (seqs [keyword "import", typeMark d, source,
    opt (.node "import_attribute" (seq (alt (keyword "with") (keyword "assert")) (sym .object))),
    terminator d false])

private def exportClause : R :=
  let one := .node "export_specifier" (seqs [specifierMark d, field "name" externalName,
    opt (seq (keyword "as") (field "alias" externalName))])
  .node "export_clause" (brackets "\x7b" (opt (seq (commaList one) (opt (exact ",")))) "\x7d")

private def exportStatement : R :=
  let stop := terminator d false
  let namespaceExport := .node "namespace_export" (seqs [exact "*", keyword "as", externalName])
  let plain := [
    seqs [keyword "export", alts [seq (exact "*") fromClause, seq namespaceExport fromClause,
      seq (exportClause d) fromClause, exportClause d], stop],
    seqs [decorators, keyword "export", field "declaration" (sym .declaration)],
    seqs [decorators, keyword "export", keyword "default",
      field "declaration" (sym .declaration)],
    seqs [keyword "export", keyword "default", field "value" value, terminator d]]
  let typed := [
    seqs [keyword "export", keyword "type", exportClause d, opt fromClause, stop],
    seqs [keyword "export", op "=", value, terminator d],
    seqs [keyword "export", keyword "as", keyword "namespace", anyWord "identifier", stop]]
  .node "export_statement" (alts (plain ++ if d.types then typed else []))

def block : R :=
  .node "statement_block" (seqs [exact "\x7b", many (sym .statement), exact "\x7d"])

private def ifStatement : R :=
  .node "if_statement" (seqs [keyword "if", condition, body "consequence",
    opt (field "alternative" (.node "else_clause" (seq (keyword "else") (sym .statement))))])

private def emptyStatement : R := .node "empty_statement" (exact ";")

private def forStatement : R :=
  .node "for_statement" (seqs [keyword "for", exact "(",
    inside (seqs [
      alts [
        field "initializer" (alt (lexicalDeclaration (terminator d))
          (variableDeclaration (terminator d))),
        seq (field "initializer" (sym .expressions)) (exact ";"),
        field "initializer" emptyStatement],
      alt (field "condition" emptyStatement) (seq (field "condition" (sym .expressions)) (exact ";")),
      opt (field "increment" (sym .expressions))]),
    exact ")", body])

private def forInStatement : R :=
  let name := field "left" (alt (sym .destructuring) (binding d))
  let first := within fun c => { c with inEnds := true }
  let header := alts [
    seqs [field "kind" (keyword "var"), name, opt (first initializer)],
    seqs [field "kind" (alt (keyword "let") (keyword "const")), name],
    field "left" (sym .target)]
  .node "for_in_statement" (seqs [keyword "for", opt (keyword "await"), exact "(",
    inside (seqs [header, field "operator" (alt (keyword "in") (keyword "of")),
      field "right" (sym .expressions)]),
    exact ")", body])

private def switchStatement : R :=
  let statements := many (field "body" (sym .statement))
  let one := alt
    (.node "switch_case" (seqs [keyword "case",
      field "value" (alt (seq (beforeColon (sym .expressions)) (ahead (exact ":")))
        (inside (sym .expressions))), exact ":", statements]))
    (.node "switch_default" (seqs [keyword "default", exact ":", statements]))
  .node "switch_statement" (seqs [keyword "switch",
    field "value" (ofKind ["parenthesized_expression"] (sym .atom)),
    field "body" (.node "switch_body" (seqs [exact "\x7b", many one, exact "\x7d"]))])

private def tryStatement : R :=
  let types := if d.types then opt (field "type" (sym .typeAscription)) else .empty
  let parameter := seqs [exact "(",
    field "parameter" (alt (sym .destructuring) (binding d)), types, exact ")"]
  .node "try_statement" (seqs [keyword "try", field "body" (sym .block),
    opt (field "handler" (.node "catch_clause"
      (seqs [keyword "catch", opt parameter, field "body" (sym .block)]))),
    opt (field "finalizer" (.node "finally_clause"
      (seq (keyword "finally") (field "body" (sym .block)))))])

private def jump (word kind : String) : R :=
  .node kind (seqs [keyword word,
    opt (seq (sameStatement d false) (field "label" (binding d "statement_identifier"))),
    terminator d false])

private def labelledStatement : R :=
  .node "labeled_statement" (seqs [
    field "label" (nameExcept reservedWords "statement_identifier"), exact ":", body])

private def returnStatement : R :=
  .node "return_statement" (seq (keyword "return")
    (alt (seqs [sameStatement d false, sym .expressions, terminator d]) (terminator d false)))

private def expressionStatement : R :=
  let module := .node "expression_statement" (seq (internalModule d)
    (mark fun src _ i => lineEnd? d true src i))
  let plain := .node "expression_statement" (seqs [
    if d.types then absent (alts (statementWords.map keyword)) else .empty,
    sym .expressions, terminator d])
  if d.types then alt module plain else plain

/-- Any statement, each form at its first word. -/
def statements : R :=
  onLines <| alts [
    exportStatement d, importStatement d,
    .node "debugger_statement" (seq (keyword "debugger") (terminator d false)),
    ifStatement, switchStatement, forInStatement d, forStatement d,
    .node "while_statement" (seqs [keyword "while", condition, body]),
    .node "do_statement" (seqs [keyword "do", body, keyword "while", condition,
      opt (terminator d)]),
    tryStatement d,
    .node "with_statement" (seqs [keyword "with",
      field "object" (ofKind ["parenthesized_expression"] (sym .atom)), body]),
    jump d "break" "break_statement", jump d "continue" "continue_statement",
    returnStatement d,
    .node "throw_statement" (seqs [keyword "throw", sym .expressions, terminator d]),
    emptyStatement, labelledStatement,
    if d.types then seq (absent (keyword "namespace")) (sym .declaration) else sym .declaration,
    sym .block, expressionStatement d, sym .declaration]

end RepairSearch.Grammar.Script
