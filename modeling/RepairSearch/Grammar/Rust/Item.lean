import RepairSearch.Grammar.Rust.Expression
import RepairSearch.Grammar.Rust.Macro

/-!
# Items and statements of Rust
-/

namespace RepairSearch.Grammar.Rust

open Rule

private def attributeBody : R :=
  .node "attribute" (seq (climb .path 0)
    (opt (alt (seq (op "=") (field "value" value)) (field "arguments" (sym .macroTree)))))

private def attributeItem : R :=
  .node "attribute_item" (seqs [exact "#", exact "[", attributeBody, exact "]"])

private def innerAttribute : R :=
  .node "inner_attribute_item" (seqs [exact "#", exact "!", exact "[", attributeBody, exact "]"])

/-- The attributes before an entry. -/
def attributes : R := many (alt attributeItem innerAttribute)

private def visibility : R :=
  let area := alts [selfName, named "super" "super", named "crate" "crate",
    seq (keyword "in") (climb .path 0)]
  opt (.node "visibility_modifier" (alt (seq (keyword "pub") (opt (brackets "(" area ")")))
    (seq (named "crate" "crate") (absent (exact "::")))))

private def generics : R := opt (field "type_parameters" (sym .typeParameters))

private def wherePart : R := opt (sym .whereClause)

private def typeName : R := field "name" (name "type_identifier")

private def fieldList : R :=
  .node "field_declaration_list" (brackets "\x7b" (commaList (seq (sym .attributes)
    (.node "field_declaration" (seqs [visibility, field "name" (name "field_identifier"),
      op ":", field "type" typeValue])))) "\x7d")

private def orderedFields : R :=
  .node "ordered_field_declaration_list" (brackets "(" (commaList (seqs [sym .attributes,
    visibility, field "type" typeValue])) ")")

private def structItem : R :=
  .node "struct_item" (seqs [visibility, keyword "struct", typeName, generics, alts [
    seq wherePart (field "body" fieldList),
    seqs [field "body" orderedFields, wherePart, exact ";"],
    exact ";"]])

private def unionItem : R :=
  .node "union_item" (seqs [visibility, keyword "union", typeName, generics, wherePart,
    field "body" fieldList])

private def enumItem : R :=
  let variant := .node "enum_variant" (seqs [visibility, field "name" (name),
    opt (field "body" (alt fieldList orderedFields)),
    opt (seq (op "=") (field "value" value))])
  .node "enum_item" (seqs [visibility, keyword "enum", typeName, generics, wherePart,
    field "body" (.node "enum_variant_list"
      (brackets "\x7b" (commaList (seq (sym .attributes) variant)) "\x7d"))])

private def functionHead : R :=
  seqs [visibility, functionModifiers, keyword "fn",
    field "name" (alt (token "metavariable" true metavariable) (name)), generics,
    field "parameters" (sym .parameters),
    opt (seq (exact "->") (field "return_type" typeValue)), wherePart]

private def functionItem : R :=
  .node "function_item" (seq functionHead (field "body" (sym .block)))

private def functionSignature : R :=
  .node "function_signature_item" (seq functionHead (exact ";"))

/-- Items between braces. -/
def itemList : R :=
  .node "declaration_list" (seqs [exact "\x7b", inside (many (sym .item)), exact "\x7d"])

private def itemsOrEnd : R := alt (exact ";") (field "body" (sym .itemList))

private def implItem : R :=
  let trait := seqs [opt (exact "!"), field "trait" (climb .typePath 0), keyword "for"]
  .node "impl_item" (seqs [opt (keyword "unsafe"), keyword "impl", generics, opt trait,
    field "type" (sym .typeOperand), wherePart, itemsOrEnd])

private def traitItem : R :=
  .node "trait_item" (seqs [visibility, opt (keyword "unsafe"), keyword "trait", typeName,
    generics, opt (field "bounds" (sym .bounds)), wherePart, field "body" (sym .itemList)])

private def foreignItems : R :=
  .node "foreign_mod_item" (seqs [visibility,
    .node "extern_modifier" (seq (keyword "extern") (opt (sym .literal))), itemsOrEnd])

private def externCrate : R :=
  .node "extern_crate_declaration" (seqs [visibility, keyword "extern", named "crate" "crate",
    field "name" (name), opt (seq (keyword "as") (field "alias" (name))), exact ";"])

private def typeItem : R :=
  .node "type_item" (seqs [visibility, keyword "type", typeName, generics, wherePart, op "=",
    field "type" typeValue, wherePart, exact ";"])

private def associatedType : R :=
  .node "associated_type" (seqs [keyword "type", typeName, generics,
    opt (field "bounds" (sym .bounds)), wherePart, exact ";"])

private def typedValue : R :=
  seqs [field "name" (name), op ":", field "type" typeValue,
    opt (seq (op "=") (field "value" value)), exact ";"]

private def letDeclaration : R :=
  .node "let_declaration" (seqs [keyword "let", opt mutable, field "pattern" (sym .pattern),
    opt (seq (op ":") (field "type" typeValue)),
    opt (seq (op "=") (field "value" value)),
    opt (seq (keyword "else") (field "alternative" (sym .block))), exact ";"])

/-- What a `use` brings into scope. -/
def useClause : R :=
  let group := .node "use_list" (brackets "\x7b" (commaList (sym .useClause)) "\x7d")
  let path := climb .path 0
  alts [
    .node "use_as_clause" (seqs [field "path" path, keyword "as", field "alias" (name)]),
    .node "scoped_use_list" (seqs [opt (field "path" path), exact "::", field "list" group]),
    .node "use_wildcard" (seq (opt (seq (opt path) (exact "::"))) (exact "*")),
    group, path]

private def useDeclaration : R :=
  .node "use_declaration" (seqs [visibility, keyword "use", field "argument" (sym .useClause),
    exact ";"])

/-- An item that stands in a file, a block or a group of items. -/
def itemRule : R :=
  alts [
    .node "const_item" (seqs [visibility, keyword "const", typedValue]),
    .node "static_item" (seqs [visibility, keyword "static", opt (keyword "ref"), opt mutable,
      typedValue]),
    .node "empty_statement" (exact ";"),
    attributeItem, innerAttribute,
    .node "mod_item" (seqs [visibility, keyword "mod", field "name" (name), itemsOrEnd]),
    externCrate, foreignItems, structItem, enumItem, unionItem, typeItem, associatedType,
    functionItem, functionSignature, implItem, traitItem, letDeclaration, useDeclaration,
    macroDefinition, macroInvocation]

/-- Marks that continue an expression and cannot begin one. -/
private def continuation : R :=
  alts ([op ".", exact "?", keyword "as"]
    ++ ["+", "/", "%", "^", "==", "!=", "<=", ">=", ">", ">>", "&&", "||", "=", "+=", "-=", "*=",
        "/=", "%=", "&=", "|=", "^=", "<<=", ">>="].map op)

/-- Marks that continue an expression, whether or not they can begin one. -/
private def anyContinuation : R :=
  alts ([continuation, exact "(", exact "["]
    ++ ["-", "*", "&", "|", "<", "<<", "..", "..=", "..."].map op)

/-- A statement. An expression that ends with its own braces needs no semicolon, and neither does
the call of a macro that nothing continues. -/
def statement : R :=
  let plain := seqs [absent (alts ((itemWords ++ ["let"]).map keyword)), value, exact ";"]
  alts [
    .node "expression_statement" (seq macroInvocation (exact ";")),
    seq (absent macroInvocation) (sym .item),
    .node "expression_statement" (seq (sym .blockLike) (absent continuation)),
    .node "expression_statement" plain,
    seq macroInvocation (absent anyContinuation)]

/-- Statements between braces, the last of which may be a value. -/
def blockRule : R :=
  .node "block" (seqs [opt (seq label (exact ":")), exact "\x7b",
    inside (seq (many (sym .statement)) (opt value)), exact "\x7d"])

end RepairSearch.Grammar.Rust
