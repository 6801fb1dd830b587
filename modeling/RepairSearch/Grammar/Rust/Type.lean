import RepairSearch.Grammar.Rust.Symbol

/-!
# Types and paths of Rust
-/

namespace RepairSearch.Grammar.Rust

open Rule

/-- The type arguments of a path or call, in angle brackets. -/
def typeArguments : R :=
  .node "type_arguments" (brackets "<" (seq (sepBy1 (exact ",") one) (opt (exact ","))) ">")
where
  binding := .node "type_binding" (seqs [field "name" (name "type_identifier"),
    opt (field "type_arguments" (sym .typeArguments)), op "=", field "type" typeValue])
  one := seq (alts [binding, typeValue, sym .literal, lifetime, sym .block])
    (opt (sym .bounds))

/-- A type in angle brackets, possibly seen as a trait. -/
def bracketedType : R :=
  .node "bracketed_type" (brackets "<" (alt
    (.node "qualified_type" (seqs [field "type" typeValue, keyword "as", field "alias" typeValue]))
    typeValue) ">")

private def pathStart : R :=
  alts [selfName, named "super" "super", named "crate" "crate",
    token "metavariable" true metavariable, nameExcept operandWords]

private def isPrimitive (w : String) : Bool := primitiveTypes.contains w

/-- A path to a value. Type arguments inside it follow two colons. -/
def pathOperators : Operators Symbol :=
  { operand := alts [
      .node "scoped_identifier" (seq (exact "::") (field "name" (name))),
      .node "scoped_identifier" (seqs [field "path" bracketedType, exact "::",
        field "name" (name)]),
      pathStart]
    tails := [
      { power := 0, kind := "scoped_identifier", left := some "path"
        rest := seq (exact "::") (field "name" (alt (named "super" "super") (name))) },
      { power := 0, kind := "generic_type", left := some "type"
        rest := seqs [exact "::", field "type_arguments" (sym .typeArguments),
          ahead (seq (exact "::") (absent (exact "<")))] }] }

/-- A path to a type. -/
def typePathOperators : Operators Symbol :=
  { operand := alts [
      .node "scoped_type_identifier" (seq (exact "::") (field "name" (name "type_identifier"))),
      .node "scoped_type_identifier" (seqs [field "path" bracketedType, exact "::",
        field "name" (name "type_identifier")]),
      seq (alts [selfName, named "super" "super", named "crate" "crate", name]) (ahead (exact "::")),
      token "primitive_type" true (Scan.wordWhere word isPrimitive),
      token "metavariable" true metavariable,
      nameExcept ["as", "const", "for", "mut", "where"] "type_identifier"]
    tails := [
      { power := 0, kind := "scoped_type_identifier", left := some "path"
        rest := seq (exact "::") (field "name" (name "type_identifier")) },
      { power := 0, kind := "generic_type", left := some "type"
        rest := seq (opt (exact "::")) (field "type_arguments" (sym .typeArguments)) }] }

private def returnType : R := opt (seq (exact "->") (field "return_type" (sym .typeOperand)))

private def forLifetimes : R :=
  .node "for_lifetimes" (seqs [keyword "for", exact "<", sepBy1 (exact ",") lifetime,
    opt (exact ","), exact ">"])

def functionModifiers : R :=
  let external := .node "extern_modifier" (seq (keyword "extern") (opt (sym .literal)))
  opt (.node "function_modifiers" (many1 (alts [keyword "async", keyword "default",
    keyword "const", keyword "unsafe", external])))

private def functionType : R :=
  .node "function_type" (seqs [opt forLifetimes,
    alt (seq functionModifiers (keyword "fn")) (field "trait" (climb .typePath 0)),
    field "parameters" (sym .parameters), returnType])

private def higherRanked : R :=
  .node "higher_ranked_trait_bound" (seqs [keyword "for",
    field "type_parameters" (sym .typeParameters), field "type" (sym .typeOperand)])

private def removedBound : R := .node "removed_trait_bound" (seq (exact "?") (sym .typeOperand))

/-- A type without a sum of bounds. -/
def typeOperand : R :=
  alts [
    .node "reference_type" (seqs [exact "&", opt lifetime, opt mutable,
      field "type" (sym .typeOperand)]),
    .node "pointer_type" (seqs [exact "*", alt (keyword "const") mutable,
      field "type" (sym .typeOperand)]),
    .node "unit_type" (seq (exact "(") (exact ")")),
    .node "tuple_type" (brackets "(" (seq (sepBy1 (exact ",") typeValue) (opt (exact ","))) ")"),
    .node "array_type" (brackets "[" (seq (field "element" typeValue)
      (opt (seq (exact ";") (field "length" value)))) "]"),
    .node "never_type" (exact "!"),
    .node "abstract_type" (seqs [keyword "impl",
      opt (seq (keyword "for") (sym .typeParameters)),
      field "trait" (alt removedBound (sym .typeOperand))]),
    .node "dynamic_type" (seq (keyword "dyn") (field "trait" (alt higherRanked (sym .typeOperand)))),
    functionType, removedBound,
    .node "macro_invocation" (seqs [
      field "macro" (ofKind ["identifier", "scoped_identifier"] (climb .path 0)),
      op "!", sym .macroTree]),
    climb .typePath 0]

/-- A type, or several joined as bounds. -/
def typeOperators : Operators Symbol :=
  { operand := alt (seq lifetime (ahead (op "+"))) (sym .typeOperand)
    tails := [{ power := 0, kind := "bounded_type"
                rest := seq (op "+") (alt lifetime (sym .typeOperand)) }] }

def traitBounds : R :=
  .node "trait_bounds" (seq (exact ":")
    (sepBy1 (op "+") (alts [lifetime, higherRanked, sym .typeOperand])))

/-- The parameters of a type or function that stand for types, lifetimes and constants. -/
def typeParameters : R :=
  .node "type_parameters" (brackets "<" (seq (sepBy1 (exact ",") one) (opt (exact ","))) ">")
where
  one := seq (sym .attributes) (alts [
    token "metavariable" true metavariable,
    .node "const_parameter" (seqs [keyword "const", field "name" (name), exact ":",
      field "type" typeValue, opt (seq (op "=") (field "value"
        (alts [sym .block, .node "negative_literal" (seq (exact "-") (sym .literal)),
          sym .literal, name])))]),
    .node "lifetime_parameter" (seq (field "name" lifetime) (opt (field "bounds" (sym .bounds)))),
    .node "type_parameter" (seqs [field "name" (name "type_identifier"),
      opt (field "bounds" (sym .bounds)),
      opt (seq (op "=") (field "default_type" typeValue))])])

def whereClause : R :=
  let predicate := .node "where_predicate" (seq
    (field "left" (alts [lifetime, higherRanked, sym .typeOperand]))
    (field "bounds" (sym .bounds)))
  .node "where_clause" (seq (keyword "where") (commaList predicate))

/-- The parameters of a function. -/
def parameters : R :=
  .node "parameters" (brackets "(" (commaList (seq (sym .attributes) one)) ")")
where
  one := alts [
    .node "self_parameter" (seqs [opt (exact "&"), opt lifetime, opt mutable, selfName,
      absent (exact ":")]),
    .node "variadic_parameter" (seqs [opt mutable, opt (seq (field "pattern" (sym .pattern))
      (exact ":")), exact "..."]),
    .node "parameter" (seqs [opt mutable, field "pattern" (alt selfName (sym .pattern)),
      op ":", field "type" typeValue]),
    seq (keyword "_") (ahead (alt (exact ",") (exact ")"))),
    typeValue]

end RepairSearch.Grammar.Rust
