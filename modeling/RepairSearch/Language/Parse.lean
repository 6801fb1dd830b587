import RepairSearch.Grammar.Script
import RepairSearch.Grammar.Python
import RepairSearch.Grammar.Rust
import RepairSearch.Language.Tables
import RepairSearch.Text.Basic

/-!
# Parsing

A text always has a tree. Where it does not follow the grammar of its language, the tree is one
node without children and marked as malformed.
-/

namespace RepairSearch

/-- The tree of a text and whether the text follows its grammar. -/
structure Parsed where
  tree : Syntax.Tree
  wellFormed : Bool
deriving Repr, Inhabited

namespace Language

private def read (language : Language) (src : Grammar.Source) : Option Syntax.Tree :=
  match language with
  | javascript => Grammar.Script.parse .plain src
  | typescript => Grammar.Script.parse .typed src
  | tsx => Grammar.Script.parse .typedElements src
  | python => Grammar.Python.parse src
  | rust => Grammar.Rust.parse src

-- proofs never look into a tree, and comparing two of them would read both texts
@[irreducible] def parse (language : Language) (text : Text) : Parsed :=
  match language.read (Grammar.Source.ofBytes text) with
  | some tree => ⟨tree, true⟩
  | none => ⟨.node { kind := "ERROR", start := 0, stop := text.length } [], false⟩

end Language

end RepairSearch
