import RepairSearch.Diff.Unified
import RepairSearch.Document.Basic

/-!
# Sets of documents

The documents of a session are numbered from zero. A statement is named by its document and by
its place in the table of that document.
-/

namespace RepairSearch

/-- The changes to the original text. -/
def Document.diff (d : Document) : String := Diff.unified d.path d.original d.current

structure StatementRef where
  document : Nat
  index : Nat
deriving DecidableEq, Repr, Inhabited

structure DocumentSet where
  documents : List Document
deriving Repr, Inhabited

namespace DocumentSet

def isEmpty (ds : DocumentSet) : Bool := ds.documents.isEmpty

def document (ds : DocumentSet) (n : Nat) : Except RepairError Document :=
  match ds.documents[n]? with
  | some d => .ok d
  | none => .error (.unknownStatement s!"#{n}" 0)

/-- Every statement with its name, document by document in the order of the text. -/
def statements (ds : DocumentSet) : List (StatementRef × Syntax.Statement) :=
  (ds.documents.zipIdx 0).flatMap fun (d, n) =>
    (d.statements.zipIdx 0).map fun (s, i) => (⟨n, i⟩, s)

/-- What a document says about one of its statements. -/
def ask {α : Type} (ds : DocumentSet) (r : StatementRef)
    (question : Document → Nat → Option α) : Except RepairError α :=
  match ds.document r.document with
  | .error e => .error e
  | .ok d =>
    match question d r.index with
    | some a => .ok a
    | none => .error (.unknownStatement d.path r.index)

def statement (ds : DocumentSet) (r : StatementRef) : Except RepairError Syntax.Statement :=
  ds.ask r fun d i => d.statements[i]?

/-- The original text of a statement. -/
def statementText (ds : DocumentSet) (r : StatementRef) : Except RepairError Text :=
  ds.ask r fun d i => d.statementText? i

/-- The path of a document and the line of a statement in it. -/
def location (ds : DocumentSet) (r : StatementRef) : Except RepairError String :=
  ds.ask r fun d i => (d.statements[i]?).map fun s => s!"{d.path}:{s.line}"

/-- A statement of an original text as a donor. -/
def donor (ds : DocumentSet) (r : StatementRef) : Except RepairError Donor :=
  ds.ask r fun d i => d.donor? i

/-- The set with another document in one place. -/
def replace (ds : DocumentSet) (n : Nat) (d : Document) : DocumentSet :=
  ⟨ds.documents.set n d⟩

def apply (ds : DocumentSet) (target : StatementRef) (op : Operation) :
    Except RepairError (Outcome × DocumentSet) :=
  match ds.document target.document with
  | .error e => .error e
  | .ok d =>
    match d.apply target.index op with
    | .error e => .error e
    | .ok (outcome, d) => .ok (outcome, ds.replace target.document d)

def undo (ds : DocumentSet) (n edit : Nat) : Except RepairError DocumentSet :=
  match ds.document n with
  | .error e => .error e
  | .ok d =>
    match d.undo edit with
    | .error e => .error e
    | .ok d => .ok (ds.replace n d)

/-- Whether no edit is in force and every text is the original. -/
def isPristine (ds : DocumentSet) : Bool :=
  ds.documents.all fun d => d.edits.isEmpty && !d.isModified

/-- The status of a build that only reads the texts: zero if all follow their grammars. -/
def syntaxStatus (ds : DocumentSet) : Int :=
  if ds.documents.all (·.parsed.wellFormed) then 0 else -1

/-- The changes of all documents. -/
def diff (ds : DocumentSet) : String :=
  String.join ((ds.documents.filter (·.isModified)).map Document.diff)

end DocumentSet

end RepairSearch
