import RepairSearch.Grammar.Rust.Symbol

/-!
# Macros of Rust

The arguments of a macro are trees of tokens. Names in them are ordinary names.
-/

namespace RepairSearch.Grammar.Rust

open Rule

/-- A tree of tokens in brackets of any kind. -/
private def tree (kind : String) (content : R) : R :=
  .node kind (alts [
    seqs [exact "(", content, exact ")"], seqs [exact "[", content, exact "]"],
    seqs [exact "\x7b", content, exact "\x7d"]])

/-- A token that is no bracket and no dollar sign. -/
private def plainToken : R :=
  alts ([sym .literal, named "mutable_specifier" "mut", selfName, named "super" "super",
    named "crate" "crate",
    token "primitive_type" true (Scan.wordWhere word primitiveTypes.contains)]
    ++ tokenWords.map keyword
    ++ [nameExcept ["_"]] ++ tokenMarks.map exact)

/-- The arguments of a call of a macro. -/
def macroTree : R := tree "token_tree" (many (alts [sym .macroTree, plainToken, exact "$"]))

private def variable_ : R := token "metavariable" true metavariable

private def repetition (kind : String) (content : R) : R :=
  .node kind (seqs [exact "$", exact "(", content, exact ")",
    opt (seq (absent (seq (alts [exact "+", exact "*", exact "?"]) (absent (alts
        [exact "+", exact "*", exact "?"]))))
      (token "" false (Scan.many1 fun c => c != '+' && c != '*' && c != '?'))),
    alts [exact "+", exact "*", exact "?"]])

/-- What a rule of a macro definition expands to. -/
def ruleTokens : R :=
  many (alts [sym .ruleTree, variable_, repetition "token_repetition" (sym .ruleTokens),
    plainToken])

def ruleTree : R := tree "token_tree" (sym .ruleTokens)

/-- What a rule of a macro definition matches. -/
def patternTokens : R :=
  many (alts [sym .patternTree,
    .node "token_binding_pattern" (seqs [field "name" variable_, exact ":",
      field "type" (name "fragment_specifier")]),
    variable_, repetition "token_repetition_pattern" (sym .patternTokens), plainToken])

def patternTree : R := tree "token_tree_pattern" (sym .patternTokens)

/-- The definition of a macro by rules. -/
def macroDefinition : R :=
  let rule := .node "macro_rule" (seqs [field "left" (sym .patternTree), exact "=>",
    field "right" (sym .ruleTree)])
  let rules := seq (many (seq rule (exact ";"))) (opt rule)
  .node "macro_definition" (seqs [exact "macro_rules!", field "name" (name),
    alts [seqs [exact "(", rules, exact ")", exact ";"],
      seqs [exact "[", rules, exact "]", exact ";"],
      seqs [exact "\x7b", rules, exact "\x7d"]]])

end RepairSearch.Grammar.Rust
