import RepairSearch.Document.Donor
import RepairSearch.Document.Splice
import RepairSearch.Error
import RepairSearch.Language.Parse
import RepairSearch.Syntax.Locate
import RepairSearch.Syntax.Scope

/-!
# Documents

A document keeps its original text for ever. An edit aims at a statement of the original and is
kept as a splice of the text that it was made on. The latest edit can be taken back: the text is
then made anew from the original by the splices that remain.
-/

namespace RepairSearch

/-- What an edit does to the statement that it aims at. -/
inductive Operation where
  | insertBefore (donor : Donor)
  | replace (donor : Donor)
  | delete
deriving DecidableEq, Repr

/-- Why an edit leaves the text as it is. -/
inductive Skip where
  /-- The statement does not stand in a list of statements. -/
  | notInBlock
  /-- An edit in force has removed or overwritten the statement. -/
  | targetRemoved
deriving DecidableEq, Repr

inductive Outcome where
  | applied (edit : Nat)
  | skipped (reason : Skip)
deriving DecidableEq, Repr

/-- An edit in force. -/
structure Edit where
  number : Nat
  splice : Splice
deriving DecidableEq, Repr

structure Document where
  path : String
  package : String
  language : Language
  original : Text
  originalTree : Syntax.Tree
  statements : List Syntax.Statement
  current : Text
  /-- The tree of the current text. -/
  parsed : Parsed
  /-- The edits in force, the earliest first. -/
  edits : List Edit
  /-- The number of the next edit. -/
  nextEdit : Nat
  /-- Grows with every change of the current text. -/
  revision : Nat
deriving Repr, Inhabited

namespace Document

/-- A document without edits. -/
def ofText (path package : String) (language : Language) (text : Text) : Document :=
  let parsed := language.parse text
  { path, package, language
    original := text
    originalTree := parsed.tree
    statements := Syntax.Statement.table language.profile text parsed.tree
    current := text
    parsed
    edits := []
    nextEdit := 0
    revision := 0 }

def profile (d : Document) : Profile := d.language.profile

/-- The names of the current text that nothing declares. -/
def scopeReport (d : Document) : Syntax.Scope.Report :=
  ⟨Syntax.Scope.resolve d.profile d.current d.parsed.tree, d.parsed.wellFormed⟩

def isModified (d : Document) : Bool := d.current != d.original

def splices (d : Document) : List Splice := d.edits.map (·.splice)

/-- The place of a statement of the original in the current text, if it is still there. -/
def currentSpan? (d : Document) (index : Nat) : Option Span := do
  let s ← d.statements[index]?
  Splice.moveAll d.splices ⟨s.start, s.stop⟩

/-- The original text of a statement. -/
def statementText? (d : Document) (index : Nat) : Option Text := do
  let s ← d.statements[index]?
  pure (d.original.slice s.start s.stop)

/-- A statement of the original as a donor. -/
def donor? (d : Document) (index : Nat) : Option Donor := do
  let s ← d.statements[index]?
  pure {
    text := d.original.slice s.start s.stop
    indent := d.original.indentAt s.start
    literalLines := d.originalTree.literalLines d.profile d.original s.start s.stop }

/-- Whether the statement at a range of the current text stands in a block, and whether it stands
there alone. Where the current tree does not know the statement, its original parent decides, and
it does not count as alone. -/
def surroundings (d : Document) (s : Syntax.Statement) (place : Span) : Bool × Bool :=
  match (d.parsed.tree.statementAt? d.profile place.start place.stop).bind (·.parent?) with
  | some parent => (d.profile.isBlock parent.kind, parent.namedCount ≤ 1)
  | none => (d.profile.isBlock s.parentKind, false)

/-- Whether something other than white space stands before an offset on its line. -/
def sharesLine (d : Document) (offset : Nat) : Bool :=
  !(d.current.slice (d.current.lineStart offset) offset).isWhite

/-- The splice of an operation at a range of the current text. A donor goes on a line of its own
before the range, or on the same line if something else stands before the range there. The only
statement of a block gives way to a placeholder, if the language has one. -/
def spliceOf (d : Document) (op : Operation) (place : Span) (alone : Bool) : Splice :=
  let indent := d.current.indentAt place.start
  match op with
  | .insertBefore donor =>
    let separator :=
      if d.sharesLine place.start then Text.ofString d.profile.separator
      else Text.newline :: indent
    ⟨place.start, place.start, donor.rebase indent ++ separator⟩
  | .replace donor => ⟨place.start, place.stop, donor.rebase indent⟩
  | .delete =>
    match d.profile.placeholder with
    | some placeholder =>
      if alone then ⟨place.start, place.stop, Text.ofString placeholder⟩
      else Splice.deletion d.current place.start place.stop
    | none => Splice.deletion d.current place.start place.stop

/-- The splice that an edit asks for, or why there is none. -/
def splice? (d : Document) (index : Nat) (s : Syntax.Statement) (op : Operation) :
    Except Skip Splice :=
  match d.currentSpan? index with
  | none => .error .targetRemoved
  | some span =>
    let place : Span := ⟨span.start, d.current.trimmedEnd span.start span.stop⟩
    let (inBlock, alone) := d.surroundings s place
    if inBlock then .ok (d.spliceOf op place alone) else .error .notInBlock

/-- The document with another current text. -/
def withText (d : Document) (text : Text) : Document :=
  { d with current := text, parsed := d.language.parse text, revision := d.revision + 1 }

/-- Puts a splice in force. -/
def push (d : Document) (s : Splice) : Document :=
  { d.withText (s.apply d.current) with
    edits := d.edits ++ [⟨d.nextEdit, s⟩]
    nextEdit := d.nextEdit + 1 }

def apply (d : Document) (index : Nat) (op : Operation) :
    Except RepairError (Outcome × Document) :=
  match d.statements[index]? with
  | none => .error (.unknownStatement d.path index)
  | some s =>
    match d.splice? index s op with
    | .error reason => .ok (.skipped reason, d)
    | .ok splice => .ok (.applied d.nextEdit, d.push splice)

/-- Drops the latest edit. -/
def pop (d : Document) : Document :=
  let edits := d.edits.dropLast
  { d.withText (Splice.applyAll (edits.map (·.splice)) d.original) with edits := edits }

/-- Takes back the latest edit, which has to be the one named. -/
def undo (d : Document) (edit : Nat) : Except RepairError Document :=
  if d.edits.getLast?.map (·.number) = some edit then .ok d.pop
  else .error (.undoOutOfOrder edit d.path)

end Document

end RepairSearch
