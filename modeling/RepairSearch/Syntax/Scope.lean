import RepairSearch.Syntax.Statement

/-!
# Names and scopes

A name is declared by every reference node at or below a binding site, for the whole of the scope
that the site belongs to. A reference is resolved if a scope around it declares its name or the
language provides it. Nodes are told apart by the way that leads to them from the root.
-/

namespace RepairSearch.Syntax.Scope

/-- The child numbers that lead to a node, last one first. -/
abbrev Path := List Nat

structure Declaration where
  scope : Path
  /-- The node that declares. -/
  site : Path
  name : Text
deriving DecidableEq, Repr

structure Unresolved where
  name : String
  /-- Counted from one. -/
  line : Nat
deriving DecidableEq, Repr

structure Report where
  unresolved : List Unresolved
  wellFormed : Bool
deriving DecidableEq, Repr

def Report.inScope (r : Report) : Bool := r.unresolved.isEmpty

variable (profile : Profile) (text : Text)

mutual

/-- The declarations that a binding site makes in a scope. -/
def declared (scope path : Path) : Tree → List Declaration
  | .node i cs =>
    let rest := declaredAmong scope path 0 cs
    if profile.isReference i.kind then
      ⟨scope, path, text.slice i.start i.stop⟩ :: rest
    else rest

def declaredAmong (scope path : Path) (n : Nat) : List Tree → List Declaration
  | [] => []
  | t :: ts => declared scope (n :: path) t ++ declaredAmong scope path (n + 1) ts

end

/-- The declarations of the children of a node that fill a field. -/
def declaredInField (scope path : Path) (field : String) (children : List Tree) :
    List Declaration :=
  (children.zipIdx 0).flatMap fun (t, n) =>
    if t.info.field == some field then declared profile text scope (n :: path) t else []

/-- The declarations that a node itself makes. The name of a scope belongs to the scope around
it, all else in a scope to the scope itself. -/
def declaredHere (outer path : Path) (t : Tree) : List Declaration :=
  (profile.bindingsOf t.kind).flatMap fun field =>
    let scope := if profile.isScope t.kind && field != some "name" then path else outer
    match field with
    | some f => declaredInField profile text scope path f t.children
    | none => declared profile text scope path t

mutual

/-- All declarations at and below a node whose nearest scope is `outer`. A node that lies in no
scope declares for itself. -/
def declarations (outer : Option Path) (path : Path) : Tree → List Declaration
  | .node i cs =>
    declaredHere profile text (outer.getD path) path (.node i cs)
      ++ declarationsAmong (if profile.isScope i.kind then some path else outer) path 0 cs

def declarationsAmong (outer : Option Path) (path : Path) (n : Nat) :
    List Tree → List Declaration
  | [] => []
  | t :: ts => declarations outer (n :: path) t ++ declarationsAmong outer path (n + 1) ts

end

/-- Whether a field of a kind of node holds members and labels instead of references. -/
def isMemberField (parentKind : Option String) (field : Option String) : Bool :=
  profile.nonReferenceFields.any fun (kind, f) => parentKind == some kind && field == some f

/-- Whether one of the scopes declares a name or the language provides it. -/
def isKnown (decls : List Declaration) (scopes : List Path) (name : Text) : Bool :=
  profile.builtins.any (fun b => Text.ofString b == name)
    || decls.any fun d => d.name == name && scopes.contains d.scope

mutual

/-- The references at and below a node that no scope around them declares. The root has no parent
kind. -/
def unresolved (decls : List Declaration) (scopes : List Path) (parentKind : Option String)
    (path : Path) : Tree → List Unresolved
  | .node i cs =>
    if profile.isOpaque i.kind then []
    else
      let scopes := if profile.isScope i.kind then path :: scopes else scopes
      let rest := unresolvedAmong decls scopes (some i.kind) path 0 cs
      let name := text.slice i.start i.stop
      if profile.isReference i.kind && !decls.any (·.site == path)
          && !isMemberField profile parentKind i.field && !isKnown profile decls scopes name then
        ⟨name.toString, text.lineAt i.start⟩ :: rest
      else rest

def unresolvedAmong (decls : List Declaration) (scopes : List Path) (parentKind : Option String)
    (path : Path) (n : Nat) : List Tree → List Unresolved
  | [] => []
  | t :: ts =>
    unresolved decls scopes parentKind (n :: path) t
      ++ unresolvedAmong decls scopes parentKind path (n + 1) ts

end

/-- The references of a tree that nothing declares. Every reference sees what the root declares. -/
def resolve (root : Tree) : List Unresolved :=
  unresolved profile text (declarations profile text none [] root) [[]] none [] root

end RepairSearch.Syntax.Scope
