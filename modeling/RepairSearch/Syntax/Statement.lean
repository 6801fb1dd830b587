import RepairSearch.Language.Profile
import RepairSearch.Syntax.Tree
import RepairSearch.Text.Basic

/-!
# The statements of a text

Every statement is listed with its range, its place and the innermost class-like node around it.
-/

namespace RepairSearch.Syntax

/-- A statement of the original text of a document. -/
structure Statement where
  kind : String
  start : Nat
  stop : Nat
  /-- Counted from one. -/
  line : Nat
  /-- In bytes. -/
  column : Nat
  /-- The innermost class-like node around the statement, or nothing. -/
  typeName : String
  parentKind : String
deriving DecidableEq, Repr, Inhabited

/-- The bytes a node covers. -/
def Tree.textIn (t : Tree) (text : Text) : Text := text.slice t.start t.stop

namespace Statement

variable (profile : Profile) (text : Text)

/-- The name that a class-like node gives to what it holds. -/
def ownTypeName? (t : Tree) : Option String := do
  let field ← profile.nameField? t.kind
  let name ← t.childOf? field
  pure (name.textIn text).toString

/-- A node as an entry of the table. -/
def ofTree (typeName parentKind : String) (t : Tree) : Statement where
  kind := t.kind
  start := t.start
  stop := t.stop
  line := text.lineAt t.start
  column := text.columnAt t.start
  typeName := typeName
  parentKind := parentKind

mutual

/-- The statements at and below a node, parents before children. -/
def below (typeName parentKind : String) : Tree → List Statement
  | .node i cs =>
    let t := Tree.node i cs
    let typeName := (ownTypeName? profile text t).getD typeName
    let rest := belowAll typeName i.kind cs
    if profile.isStatement i.kind then ofTree text typeName parentKind t :: rest else rest

def belowAll (typeName parentKind : String) : List Tree → List Statement
  | [] => []
  | t :: ts => below typeName parentKind t ++ belowAll typeName parentKind ts

end

/-- The statements of a whole tree. -/
def table (root : Tree) : List Statement := below profile text "" "" root

end Statement

end RepairSearch.Syntax
