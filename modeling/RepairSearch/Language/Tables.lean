import RepairSearch.Language.Basic
import RepairSearch.Language.Profile

/-!
# The profiles of the languages
-/

namespace RepairSearch

namespace Profile

/-- The nodes of Python. -/
def python : Profile where
  statementKinds :=
    ["expression_statement", "return_statement", "assert_statement", "pass_statement",
     "delete_statement", "raise_statement", "break_statement", "continue_statement",
     "if_statement", "for_statement", "while_statement", "try_statement", "with_statement"]
  blockKinds :=
    ["block", "module"]
  classKinds :=
    [("class_definition", "name")]
  scopeKinds :=
    ["module", "function_definition", "lambda", "class_definition"]
  bindingSites :=
    [⟨"assignment", some "left"⟩, ⟨"for_statement", some "left"⟩, ⟨"for_in_clause", some "left"⟩,
     ⟨"function_definition", some "name"⟩, ⟨"function_definition", some "parameters"⟩,
     ⟨"class_definition", some "name"⟩, ⟨"lambda", some "parameters"⟩,
     ⟨"import_statement", none⟩, ⟨"import_from_statement", some "name"⟩,
     ⟨"aliased_import", some "alias"⟩, ⟨"as_pattern", some "alias"⟩,
     ⟨"named_expression", some "name"⟩, ⟨"global_statement", none⟩, ⟨"nonlocal_statement", none⟩]
  referenceKinds :=
    ["identifier"]
  nonReferenceFields :=
    [("attribute", "attribute"), ("keyword_argument", "name"),
     ("import_from_statement", "module_name")]
  opaqueKinds :=
    ["comment", "string_content", "dotted_name"]
  builtins :=
    ["print", "len", "range", "str", "int", "float", "bool", "bytes", "list", "dict", "set",
     "frozenset", "tuple", "object", "type", "super", "isinstance", "issubclass", "open", "min",
     "max", "sum", "abs", "round", "sorted", "reversed", "enumerate", "zip", "map", "filter",
     "any", "all", "iter", "next", "getattr", "setattr", "hasattr", "delattr", "repr", "hash",
     "id", "input", "divmod", "pow", "chr", "ord", "format", "vars", "dir", "callable",
     "property", "staticmethod", "classmethod", "NotImplemented", "Ellipsis", "__name__",
     "__file__", "Exception", "BaseException", "ValueError", "TypeError", "KeyError",
     "IndexError", "AttributeError", "RuntimeError", "StopIteration", "AssertionError",
     "NotImplementedError", "ZeroDivisionError", "OSError", "IOError", "FileNotFoundError",
     "ImportError"]
  placeholder := some "pass"
  separator := "; "
  literalKinds :=
    ["string"]

/-- The nodes of Rust. Only `let` and expression statements are statements; the last expression of a
block is not one. -/
def rust : Profile where
  statementKinds :=
    ["expression_statement", "let_declaration"]
  blockKinds :=
    ["block"]
  classKinds :=
    [("impl_item", "type"), ("trait_item", "name"), ("mod_item", "name")]
  scopeKinds :=
    ["source_file", "function_item", "closure_expression", "impl_item", "trait_item", "mod_item"]
  bindingSites :=
    [⟨"let_declaration", some "pattern"⟩, ⟨"parameter", some "pattern"⟩,
     ⟨"closure_parameters", none⟩, ⟨"for_expression", some "pattern"⟩,
     ⟨"match_arm", some "pattern"⟩, ⟨"let_condition", some "pattern"⟩,
     ⟨"function_item", some "name"⟩, ⟨"function_signature_item", some "name"⟩,
     ⟨"const_item", some "name"⟩, ⟨"static_item", some "name"⟩,
     ⟨"use_declaration", some "argument"⟩, ⟨"extern_crate_declaration", none⟩,
     ⟨"macro_definition", some "name"⟩]
  referenceKinds :=
    ["identifier"]
  nonReferenceFields :=
    [("macro_invocation", "macro"), ("field_expression", "field"),
     ("field_initializer", "field"), ("mod_item", "name")]
  opaqueKinds :=
    ["scoped_identifier", "scoped_type_identifier", "scoped_use_list", "attribute_item",
     "inner_attribute_item", "lifetime", "label", "line_comment", "block_comment",
     "string_literal"]
  builtins :=
    ["Some", "None", "Ok", "Err", "Vec", "String", "Box", "Option", "Result", "drop", "Default",
     "From", "Into", "Clone", "Iterator", "std", "core", "alloc"]
  placeholder := none
  separator := " "
  literalKinds :=
    ["string_literal", "raw_string_literal", "block_comment"]

/-- The nodes of JavaScript. -/
def javascript : Profile where
  statementKinds :=
    ["expression_statement", "variable_declaration", "lexical_declaration", "return_statement",
     "if_statement", "for_statement", "for_in_statement", "while_statement", "do_statement",
     "throw_statement", "try_statement", "break_statement", "continue_statement",
     "switch_statement"]
  blockKinds :=
    ["statement_block", "program", "switch_case", "switch_default"]
  classKinds :=
    [("class_declaration", "name"), ("class", "name")]
  scopeKinds :=
    ["program", "function_declaration", "generator_function_declaration", "function_expression",
     "arrow_function", "method_definition", "class_declaration", "class"]
  bindingSites :=
    [⟨"variable_declarator", some "name"⟩, ⟨"function_declaration", some "name"⟩,
     ⟨"generator_function_declaration", some "name"⟩, ⟨"function_expression", some "name"⟩,
     ⟨"class_declaration", some "name"⟩, ⟨"class", some "name"⟩, ⟨"formal_parameters", none⟩,
     ⟨"arrow_function", some "parameter"⟩, ⟨"import_clause", none⟩,
     ⟨"catch_clause", some "parameter"⟩, ⟨"for_in_statement", some "left"⟩]
  referenceKinds :=
    ["identifier"]
  nonReferenceFields :=
    [("labeled_statement", "label"), ("break_statement", "label"),
     ("continue_statement", "label")]
  opaqueKinds :=
    ["comment", "string", "regex", "import_statement", "jsx_closing_element"]
  builtins :=
    ["console", "Math", "JSON", "Object", "Array", "String", "Number", "Boolean", "Promise",
     "Error", "TypeError", "RangeError", "SyntaxError", "Symbol", "Map", "Set", "WeakMap",
     "WeakSet", "Date", "RegExp", "BigInt", "Reflect", "Proxy", "parseInt", "parseFloat",
     "isNaN", "isFinite", "undefined", "NaN", "Infinity", "globalThis", "window", "document",
     "require", "module", "exports", "process", "Buffer", "__dirname", "__filename",
     "setTimeout", "clearTimeout", "setInterval", "clearInterval", "queueMicrotask",
     "structuredClone", "fetch", "URL", "arguments"]
  placeholder := none
  separator := "; "
  literalKinds :=
    ["string", "template_string", "comment"]

/-- The nodes of the typed dialects of JavaScript. Their declarations of types hold no references. -/
def typescript : Profile where
  statementKinds :=
    ["expression_statement", "variable_declaration", "lexical_declaration", "return_statement",
     "if_statement", "for_statement", "for_in_statement", "while_statement", "do_statement",
     "throw_statement", "try_statement", "break_statement", "continue_statement",
     "switch_statement"]
  blockKinds :=
    ["statement_block", "program", "switch_case", "switch_default"]
  classKinds :=
    [("class_declaration", "name"), ("class", "name"), ("abstract_class_declaration", "name")]
  scopeKinds :=
    ["program", "function_declaration", "generator_function_declaration", "function_expression",
     "arrow_function", "method_definition", "class_declaration", "class"]
  bindingSites :=
    [⟨"variable_declarator", some "name"⟩, ⟨"function_declaration", some "name"⟩,
     ⟨"generator_function_declaration", some "name"⟩, ⟨"function_expression", some "name"⟩,
     ⟨"class_declaration", some "name"⟩, ⟨"abstract_class_declaration", some "name"⟩,
     ⟨"class", some "name"⟩, ⟨"formal_parameters", none⟩, ⟨"arrow_function", some "parameter"⟩,
     ⟨"import_clause", none⟩, ⟨"catch_clause", some "parameter"⟩,
     ⟨"for_in_statement", some "left"⟩, ⟨"enum_declaration", some "name"⟩,
     ⟨"internal_module", some "name"⟩]
  referenceKinds :=
    ["identifier"]
  nonReferenceFields :=
    [("labeled_statement", "label"), ("break_statement", "label"),
     ("continue_statement", "label")]
  opaqueKinds :=
    ["comment", "string", "regex", "import_statement", "jsx_closing_element", "type_annotation",
     "type_arguments", "type_parameters", "interface_declaration", "type_alias_declaration"]
  builtins :=
    ["console", "Math", "JSON", "Object", "Array", "String", "Number", "Boolean", "Promise",
     "Error", "TypeError", "RangeError", "SyntaxError", "Symbol", "Map", "Set", "WeakMap",
     "WeakSet", "Date", "RegExp", "BigInt", "Reflect", "Proxy", "parseInt", "parseFloat",
     "isNaN", "isFinite", "undefined", "NaN", "Infinity", "globalThis", "window", "document",
     "require", "module", "exports", "process", "Buffer", "__dirname", "__filename",
     "setTimeout", "clearTimeout", "setInterval", "clearInterval", "queueMicrotask",
     "structuredClone", "fetch", "URL", "arguments"]
  placeholder := none
  separator := "; "
  literalKinds :=
    ["string", "template_string", "comment"]

end Profile

/-- The profile of a language; both typed dialects share one. -/
def Language.profile : Language → Profile
  | python => Profile.python
  | rust => Profile.rust
  | javascript => Profile.javascript
  | typescript | tsx => Profile.typescript

end RepairSearch
