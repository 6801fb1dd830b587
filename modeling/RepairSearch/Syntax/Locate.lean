import RepairSearch.Language.Profile
import RepairSearch.Syntax.Tree
import RepairSearch.Text.Basic

/-!
# Finding nodes by position

`Tree.pathTo` descends to the smallest node around a byte range. `Tree.statementAt?` climbs from
there to the outermost statement with exactly that range.
-/

namespace RepairSearch.Syntax.Tree

/-- A node reaches a range if it ends no earlier and is not over before the range begins. -/
def reaches (t : Tree) (start stop : Nat) : Bool :=
  stop ≤ t.stop && (if t.start = t.stop then start ≤ t.stop else start < t.stop)

mutual

/-- The nodes from a node down to the smallest one around a range, outermost first. -/
def pathTo (start stop : Nat) : Tree → List Tree
  | node i cs => node i cs :: pathAmong start stop cs

/-- The way into the first of several children that reaches a range, if it begins early enough. -/
def pathAmong (start stop : Nat) : List Tree → List Tree
  | [] => []
  | t :: ts =>
    if t.reaches start stop then
      if start < t.start then [] else pathTo start stop t
    else pathAmong start stop ts

end

/-- A node with the nodes around it, innermost first. -/
structure Place where
  node : Tree
  ancestors : List Tree

def Place.parent? (p : Place) : Option Tree := p.ancestors.head?

/-- Climbs from a node while the nodes around it have the same range, and keeps the last
statement met. -/
def climb (profile : Profile) (start stop : Nat) :
    List Tree → Option Place → Option Place
  | [], found => found
  | t :: ts, found =>
    if t.start = start ∧ t.stop = stop then
      climb profile start stop ts (if profile.isStatement t.kind then some ⟨t, ts⟩ else found)
    else found

/-- The statement at a range: the outermost with that range, or else the smallest node around the
range, if it is a statement. -/
def statementAt? (profile : Profile) (t : Tree) (start stop : Nat) : Option Place :=
  if stop < start then none
  else match (t.pathTo start stop).reverse with
    | [] => none
    | n :: above =>
      climb profile start stop above
        (if profile.isStatement n.kind then some ⟨n, above⟩ else none)

/-- Whether an offset lies inside a literal that begins before it. -/
def insideLiteral (profile : Profile) (t : Tree) (offset : Nat) : Bool :=
  (t.pathTo offset offset).any fun n => n.start < offset && profile.isLiteral n.kind

/-- The offsets right after the line breaks of a text that begins at `offset`. -/
def lineStarts (offset : Nat) : Text → List Nat
  | [] => []
  | b :: bs => if b == Text.newline then (offset + 1) :: lineStarts (offset + 1) bs
    else lineStarts (offset + 1) bs

/-- The lines of a range that begin inside a literal; the line after the first one is number one. -/
def literalLines (profile : Profile) (t : Tree) (text : Text) (start stop : Nat) : List Nat :=
  ((lineStarts start (text.slice start stop)).zipIdx 1).filterMap fun (offset, line) =>
    if insideLiteral profile t offset then some line else none

end RepairSearch.Syntax.Tree
