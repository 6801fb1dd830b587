import RepairSearch.Document.Set

/-!
# Mutations

A mutation changes one statement and is made once and undone once. Its description names the
statements it is about as they stand in the original texts.
-/

namespace RepairSearch

inductive MutationKind where
  | null
  | addition
  | replacement
  | deletion
deriving DecidableEq, Repr, Inhabited

namespace MutationKind

def name : MutationKind → String
  | null => "null"
  | addition => "addition"
  | replacement => "replacement"
  | deletion => "deletion"

def title : MutationKind → String
  | null => "Null"
  | addition => "Addition"
  | replacement => "Replacement"
  | deletion => "Deletion"

def all : List MutationKind := [null, addition, replacement, deletion]

def ofName? (name : String) : Option MutationKind := all.find? (·.name == name)

def ofTitle? (title : String) : Option MutationKind := all.find? (·.title == title)

/-- Whether the mutation copies another statement. -/
def needsSeed : MutationKind → Bool
  | addition | replacement => true
  | null | deletion => false

end MutationKind

namespace Mutation

/-- How far a mutation has come. -/
inductive Stage where
  | pending
  /-- The mutation is made; the number is that of its edit, if it made one. -/
  | applied (edit : Option Nat)
  | undone
deriving DecidableEq, Repr

end Mutation

structure Mutation where
  kind : MutationKind
  faulty : StatementRef
  seed : Option StatementRef
  stage : Mutation.Stage
  /-- Why the texts stayed as they were, if they did. -/
  skipped : Option Skip
  description : String
deriving DecidableEq, Repr

namespace Mutation

/-- The lines of a text as they are shown: without their ends, and without an empty last line. -/
def shownLines (t : Text) : List Text :=
  let ended := fun (l : Text) => if l.getLast? == some 13 then l.dropLast else l
  match t.lines.reverse with
  | [] => []
  | last :: before =>
    (before.reverse.map ended) ++ (if last.isEmpty then [] else [last])

private def indented (t : Text) : String :=
  String.join ((shownLines t).map fun l => "    " ++ l.toString ++ "\n")

/-- One statement of a description: its place and its text. -/
def describeStatement (role : String) (ds : DocumentSet) (r : StatementRef) :
    Except RepairError String :=
  match ds.location r, ds.statementText r with
  | .ok place, .ok text => .ok ("  " ++ role ++ ": " ++ place ++ "\n" ++ indented text)
  | .error e, _ => .error e
  | _, .error e => .error e

def describe (kind : MutationKind) (faulty : StatementRef) (seed : Option StatementRef)
    (ds : DocumentSet) : Except RepairError String := do
  let first ← describeStatement "faulty" ds faulty
  let second ← match seed with
    | some r => describeStatement "seed" ds r
    | none => .ok ""
  .ok (kind.title ++ " mutation\n" ++ first ++ second)

def create (kind : MutationKind) (faulty : StatementRef) (seed : Option StatementRef)
    (ds : DocumentSet) : Except RepairError Mutation :=
  if kind.needsSeed && seed.isNone then .error (.mutationState .seedMissing)
  else do
    let description ← describe kind faulty seed ds
    .ok { kind, faulty, seed, stage := .pending, skipped := none, description }

def isApplied (m : Mutation) : Bool :=
  match m.stage with
  | .applied _ => true
  | _ => false

/-- The document that the mutation edits. -/
def document (m : Mutation) : Nat := m.faulty.document

/-- The seed statement as a donor. -/
def donor (m : Mutation) (ds : DocumentSet) : Except RepairError Donor :=
  match m.seed with
  | some r => ds.donor r
  | none => .error (.mutationState .seedMissing)

/-- The edit that the mutation makes, if it makes one. -/
def operation (m : Mutation) (ds : DocumentSet) : Except RepairError (Option Operation) :=
  match m.kind with
  | .null => .ok none
  | .addition => (m.donor ds).map fun d => some (.insertBefore d)
  | .replacement => (m.donor ds).map fun d => some (.replace d)
  | .deletion => .ok (some .delete)

/-- Makes the mutation, which has to be pending. -/
def mutate (m : Mutation) (ds : DocumentSet) : Except RepairError (Mutation × DocumentSet) :=
  if m.stage ≠ .pending then .error (.mutationState .madeTwice)
  else do
    match ← m.operation ds with
    | none => .ok ({ m with stage := .applied none }, ds)
    | some op =>
      match ← ds.apply m.faulty op with
      | (.applied edit, ds) => .ok ({ m with stage := .applied (some edit) }, ds)
      | (.skipped reason, ds) =>
        .ok ({ m with stage := .applied none, skipped := some reason }, ds)

/-- Undoes the mutation, which has to be made and not undone yet. -/
def undo (m : Mutation) (ds : DocumentSet) : Except RepairError (Mutation × DocumentSet) :=
  match m.stage with
  | .applied none => .ok ({ m with stage := .undone }, ds)
  | .applied (some edit) => do
    let ds ← ds.undo m.faulty.document edit
    .ok ({ m with stage := .undone }, ds)
  | _ => .error (.mutationState .undoneUnmade)

/-- The description, with the reason if the texts stayed as they were. -/
def text (m : Mutation) : String :=
  m.description ++ match m.skipped with
    | some .notInBlock => "  (skipped: parent is not a block)\n"
    | some .targetRemoved => "  (skipped: target already removed)\n"
    | none => ""

end Mutation

end RepairSearch
