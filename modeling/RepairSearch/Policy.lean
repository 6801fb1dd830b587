import RepairSearch.Json.Basic
import RepairSearch.Mutation
import RepairSearch.Random

/-!
# Choice of mutations

A policy says which kind of mutation a generation tries: one of three kinds by lot, or always
the same.
-/

namespace RepairSearch

inductive MutationPolicy where
  | random
  | fixed (kind : MutationKind)
deriving DecidableEq, Repr, Inhabited

namespace MutationPolicy

/-- The kinds that a lot can fall on. -/
def lots : List MutationKind := [.addition, .replacement, .deletion]

def choose {σ W : Type} [RandomSource σ W] (p : MutationPolicy) (g : σ) : MutationKind × σ :=
  match p with
  | random =>
    let (n, g) := RandomSource.below lots.length g
    (lots.getD n .deletion, g)
  | fixed kind => (kind, g)

def ofName? (name : String) : Option MutationPolicy :=
  if name = "random" then some random else (MutationKind.ofName? name).map fixed

/-- Whether a choice may need a seed statement. -/
def needsSeeds : MutationPolicy → Bool
  | random => true
  | fixed kind => kind.needsSeed

end MutationPolicy

/-! ## As JSON

A choice without content is a string, or an object with its name and null. A choice with content
is an object with its name and the content. -/

namespace MutationKind

def toJson (k : MutationKind) : Json := .ofString k.title

def ofJson? : Json → Option MutationKind
  | .string (some title) => ofTitle? title
  | .object [(some title, .null)] => ofTitle? title
  | _ => none

end MutationKind

namespace MutationPolicy

def toJson : MutationPolicy → Json
  | random => .ofString "Random"
  | fixed kind => .ofMembers [("Fixed", kind.toJson)]

def ofJson? : Json → Option MutationPolicy
  | .string (some "Random") => some random
  | .object [(some "Random", .null)] => some random
  | .object [(some "Fixed", kind)] => (MutationKind.ofJson? kind).map fixed
  | _ => none

end MutationPolicy

end RepairSearch
