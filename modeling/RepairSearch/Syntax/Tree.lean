/-!
# Syntax trees

A tree has ordered children. Every node knows its kind, the byte range it covers, whether it is a
named construct or a bare token, whether it is filler such as a comment, and the field that it
fills in its parent.
-/

namespace RepairSearch.Syntax

/-- What a node says about itself. -/
structure NodeInfo where
  kind : String
  named : Bool := true
  extra : Bool := false
  field : Option String := none
  start : Nat
  stop : Nat
deriving DecidableEq, Repr, Inhabited

inductive Tree where
  | node (info : NodeInfo) (children : List Tree)
deriving Repr, Inhabited

namespace Tree

def info : Tree → NodeInfo
  | node i _ => i

def children : Tree → List Tree
  | node _ cs => cs

def kind (t : Tree) : String := t.info.kind

def start (t : Tree) : Nat := t.info.start

def stop (t : Tree) : Nat := t.info.stop

/-- The same tree in another position of its parent. -/
def withField (t : Tree) (field : Option String) : Tree :=
  node { t.info with field } t.children

/-- The first child that fills a field. -/
def childOf? (t : Tree) (field : String) : Option Tree :=
  t.children.find? (·.info.field == some field)

mutual

/-- The node and all below it, parents before children and children in order. -/
def preorder : Tree → List Tree
  | node i cs => node i cs :: preorderAll cs

/-- The nodes of several trees in turn. -/
def preorderAll : List Tree → List Tree
  | [] => []
  | t :: ts => preorder t ++ preorderAll ts

end

/-- How many named children there are that are not filler. -/
def namedCount (t : Tree) : Nat :=
  t.children.countP fun c => c.info.named && !c.info.extra

end Tree

end RepairSearch.Syntax
