/-!
# Language profiles

What indexing, editing and scope checking need to know about the trees of a language.
-/

namespace RepairSearch

/-- A place in a tree: the kind of a node and a field of it, or the whole node. -/
structure BindingSite where
  kind : String
  field : Option String
deriving DecidableEq, Repr

structure Profile where
  /-- Statements that can be edited and copied. -/
  statementKinds : List String
  /-- Nodes whose children are a sequence of statements. -/
  blockKinds : List String
  /-- Nodes that give a name to the statements inside them, and the field that holds it. -/
  classKinds : List (String × String)
  /-- Nodes that open a scope for names. -/
  scopeKinds : List String
  /-- Places that declare the names in them. -/
  bindingSites : List BindingSite
  /-- Nodes that refer to a name. -/
  referenceKinds : List String
  /-- Places where a name is a member or a label. -/
  nonReferenceFields : List (String × String)
  /-- Nodes in which no names are looked for. -/
  opaqueKinds : List String
  /-- Names that need no declaration. -/
  builtins : List String
  /-- The statement that keeps an emptied block valid. -/
  placeholder : Option String
  /-- What joins two statements on one line. -/
  separator : String
  /-- Nodes whose lines are never indented anew. -/
  literalKinds : List String
deriving Repr

namespace Profile

def isStatement (p : Profile) (kind : String) : Bool := p.statementKinds.contains kind

def isBlock (p : Profile) (kind : String) : Bool := p.blockKinds.contains kind

def isScope (p : Profile) (kind : String) : Bool := p.scopeKinds.contains kind

def isReference (p : Profile) (kind : String) : Bool := p.referenceKinds.contains kind

def isOpaque (p : Profile) (kind : String) : Bool := p.opaqueKinds.contains kind

def isLiteral (p : Profile) (kind : String) : Bool := p.literalKinds.contains kind

/-- The places of a kind of node that declare names. -/
def bindingsOf (p : Profile) (kind : String) : List (Option String) :=
  (p.bindingSites.filter (·.kind == kind)).map BindingSite.field

/-- The field that names a kind of node, if it gives names to what it holds. -/
def nameField? (p : Profile) (kind : String) : Option String :=
  (p.classKinds.find? (·.1 == kind)).map Prod.snd

end Profile

end RepairSearch
