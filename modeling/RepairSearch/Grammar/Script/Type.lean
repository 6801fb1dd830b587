import RepairSearch.Grammar.Script.Expression

/-!
# Types of the typed script dialects

Types are operator expressions of their own: arrays, look-ups, intersections, unions and
conditions extend a type to the right.
-/

namespace RepairSearch.Grammar.Script

open Rule

variable (d : Dialect)

private def typeValue : R := climb .type 0

def typeAscription : R := .node "type_annotation" (seq (exact ":") typeValue)

def typeArguments : R :=
  .node "type_arguments" (brackets "<" (seq (commaList typeValue) (opt (exact ","))) ">")

def typeParameters : R :=
  .node "type_parameters" (brackets "<" (seq (commaList one) (opt (exact ","))) ">")
where
  one := .node "type_parameter" (seqs [
    opt (seq (keyword "const") (ahead (anyWord ""))),
    field "name" typeName,
    opt (field "constraint" (.node "constraint"
      (seq (alt (keyword "extends") (exact ":")) typeValue))),
    opt (field "value" (.node "default_type" (seq (exact "=") typeValue)))])

private def memberModifiers : R :=
  seqs [opt (seq accessibility (ahead (alts [sym .propertyName, exact "*"]))), marked "static",
    opt (.node "override_modifier" (modifier "override")), marked "readonly"]

def propertySignature : R :=
  .node "property_signature" (seqs [memberModifiers, field "name" (sym .propertyName),
    opt (exact "?"), opt (field "type" (sym .typeAscription))])

def methodSignature : R :=
  .node "method_signature" (seqs [memberModifiers, marked "async", accessor,
    field "name" (sym .propertyName), opt (exact "?"), sym .signature])

def abstractMethodSignature : R :=
  .node "abstract_method_signature" (seqs [
    opt (seq accessibility (ahead (anyWord ""))), modifier "abstract",
    opt (.node "override_modifier" (modifier "override")), accessor,
    field "name" (sym .propertyName), opt (exact "?"), sym .signature])

def indexSignature : R :=
  let annotation := alts [
    .node "omitting_type_annotation" (seq (exact "-?:") typeValue),
    .node "adding_type_annotation" (seq (exact "+?:") typeValue),
    .node "opting_type_annotation" (seq (exact "?:") typeValue),
    sym .typeAscription]
  .node "index_signature" (seqs [
    opt (seq (opt (field "sign" (alt (exact "-") (exact "+")))) (keyword "readonly")),
    exact "[",
    inside (alt mapped (seqs [field "name" (anyWord "identifier"), exact ":",
      field "index_type" typeValue])),
    exact "]",
    field "type" annotation])
where
  mapped := .node "mapped_type_clause" (seqs [field "name" typeName, keyword "in",
    field "type" typeValue, opt (seq (keyword "as") (field "alias" typeValue))])

private def constructSignature : R :=
  .node "construct_signature" (seqs [opt (keyword "abstract"), keyword "new",
    opt (field "type_parameters" (sym .typeParameters)), field "parameters" (sym .parameters),
    opt (field "type" (sym .typeAscription))])

/-- A member of an object type or interface. -/
def typeMember : R :=
  alts [constructSignature, .node "call_signature" (sym .signature), indexSignature,
    methodSignature, propertySignature]

/-- The members of an object type between braces. -/
def objectTypeBody : R :=
  let separator := alt (exact ",") (terminator d false)
  seqs [exact "\x7b",
    onLines (opt (seqs [opt (alt (exact ",") (exact ";")), sepBy1 separator (sym .typeMember),
      opt separator])),
    exact "\x7d"]

private def predefined : R :=
  .node "predefined_type" (alt
    (seq (keyword "unique") (keyword "symbol"))
    (alts (["any", "number", "boolean", "string", "symbol", "void", "unknown", "never",
      "object"].map keyword)))

private def literalType : R :=
  .node "literal_type" (alts [
    .node "unary_expression" (seq (field "operator" (alt (exact "-") (exact "+")))
      (field "argument" numberLiteral)),
    numberLiteral, sym .string,
    token "true" true (Scan.wordWhere word (· == "true")),
    token "false" true (Scan.wordWhere word (· == "false")),
    token "null" true (Scan.wordWhere word (· == "null")),
    token "undefined" true (Scan.wordWhere word (· == "undefined"))])

private def templateType : R :=
  .node "template_literal_type" (seqs [exact "`",
    many (alt (.adjacent "string_fragment" true templateCharacters)
      (.node "template_type" (seqs [.adjacent "$\x7b" false (Scan.text "$\x7b"),
        inside typeValue, exact "\x7d"]))),
    .adjacent "`" false (Scan.text "`")])

private def tupleType : R :=
  let named := alts [
    .node "optional_parameter" (seqs [field "name" (anyWord "identifier"), exact "?",
      field "type" (sym .typeAscription)]),
    .node "required_parameter" (seq (field "name" (alt (anyWord "identifier")
      (.node "rest_pattern" (seq (exact "...") (anyWord "identifier")))))
      (field "type" (sym .typeAscription)))]
  let entry := alts [named, .node "rest_type" (seq (exact "...") typeValue),
    .node "optional_type" (seq typeValue (exact "?")), typeValue]
  .node "tuple_type" (brackets "[" (opt (seq (commaList entry) (opt (exact ",")))) "]")

/-- A name of a type, with the modules it lies in and its arguments. -/
private def namedType : R :=
  let nested := .node "nested_type_identifier" (seqs [field "module" (climb .moduleName 0),
    exact ".", field "name" typeName])
  let name := alt nested typeName
  alt (.node "generic_type" (seq (field "name" name)
      (field "type_arguments" (sym .typeArguments)))) name

/-- A dotted name whose last part is left for what follows. -/
def moduleNameOperators : Operators Symbol :=
  { operand := anyWord "identifier"
    tails := [{ power := 0, kind := "nested_identifier", left := some "object"
                rest := seqs [exact ".", field "property" (anyWord "property_identifier"),
                  ahead (exact ".")] }] }

/-- The value whose type `typeof` names. -/
private def queriedValue : R := ofKind
  ["identifier", "member_expression", "subscript_expression", "call_expression",
   "instantiation_expression", "this"] (climb .primary 0)

private def functionType : R :=
  let result := alts [
    .node "asserts" (seqs [keyword "asserts", absent (keyword "is"), alt predicate predicateName]),
    predicate, typeValue]
  .node "function_type" (seqs [opt (field "type_parameters" (sym .typeParameters)),
    field "parameters" (sym .parameters), exact "=>", field "return_type" result])
where
  predicateName := alt (.node "this" (keyword "this")) (anyWord "identifier")
  predicate := .node "type_predicate"
    (seqs [field "name" predicateName, keyword "is", field "type" typeValue])

private def constructorType : R :=
  .node "constructor_type" (seqs [opt (keyword "abstract"), keyword "new",
    opt (field "type_parameters" (sym .typeParameters)), field "parameters" (sym .parameters),
    exact "=>", field "type" typeValue])

namespace Power

def condition : Nat := 1
def union : Nat := 2
def intersection : Nat := 3
def element : Nat := 4

end Power

def typeOperand : R :=
  alts [functionType, constructorType,
    .node "readonly_type" (seq (keyword "readonly") typeValue),
    .node "infer_type" (seqs [keyword "infer", typeName,
      opt (seqs [keyword "extends", climb .type Power.union, absent (exact "?")])]),
    .node "index_type_query" (seq (keyword "keyof") (climb .type Power.element)),
    .node "type_query" (seq (keyword "typeof") queriedValue),
    .node "union_type" (seq (exact "|") (climb .type Power.intersection)),
    .node "intersection_type" (seq (exact "&") (climb .type Power.element)),
    .node "parenthesized_type" (brackets "(" typeValue ")"),
    ofKind ["call_expression", "member_expression"]
      (seq (ahead (keyword "import")) (climb .primary 0)),
    predefined, literalType, templateType, tupleType, sym .objectType,
    token "this_type" true (Scan.wordWhere word (· == "this")),
    .node "existential_type" (exact "*"),
    .node "flow_maybe_type" (seq (exact "?") (climb .type Power.element)),
    namedType]

/-- How a type extends to the right. -/
def typeOperators : Operators Symbol :=
  { operand := sym .typeOperand
    tails := [
      { power := Power.element, kind := "array_type"
        rest := seqs [sameStatement d false, exact "[", exact "]"] },
      { power := Power.element, kind := "lookup_type"
        rest := seqs [sameStatement d false, exact "[", inside typeValue, exact "]"] },
      { power := Power.intersection, kind := "intersection_type"
        rest := seq (exact "&") (climb .type Power.element) },
      { power := Power.union, kind := "union_type"
        rest := seq (exact "|") (climb .type Power.intersection) },
      { power := Power.condition, kind := "conditional_type", left := some "left"
        rest := seqs [keyword "extends", field "right" (climb .type Power.union), exact "?",
          field "consequence" typeValue, exact ":", field "alternative" typeValue] }] }

def objectType : R := .node "object_type" (objectTypeBody d)

end RepairSearch.Grammar.Script
