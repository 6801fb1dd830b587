import RepairSearch.Mutation
import RepairSearch.Session.Recorder

/-!
# Events of a search

Every change of the documents is an event, and so is every choice of what to change and every call
of a collaborator but for what it is told.
-/

namespace RepairSearch.Search

/-- What happens in a search. -/
inductive Event where
  /-- A candidate starts, on these documents and with these patches. -/
  | began (candidate : Nat) (documents : DocumentSet) (patches : List String)
  /-- A candidate is over and leaves these documents and these patches. -/
  | ended (candidate : Nat) (documents : DocumentSet) (patches : List String)
  /-- A generation starts, and tries mutations of this kind. -/
  | chose (kind : MutationKind)
  /-- An attempt starts: a faulty statement is drawn for a mutation of this kind, if one can be. -/
  | drew (kind : MutationKind) (answer : Except RepairError StatementRef)
  /-- A mutation has been made. -/
  | made (m : Mutation)
  /-- A mutation is to be undone, and is or is not. -/
  | undid (m : Mutation) (answer : Except RepairError Unit)
  | checked (document : Document) (answer : Except RepairError Syntax.Scope.Report)
  | logged (text : String) (answer : Except RepairError Unit)
  | compiled (documents : DocumentSet) (answer : Except RepairError Int)
  /-- The tests were run while these were the documents. -/
  | tested (documents : DocumentSet) (answer : Except RepairError Int)
  /-- A generation is over and keeps a mutation, with this status of the tests. -/
  | kept (generation : Nat) (m : Mutation) (status : Int)
  | recorded (found : FoundPatch) (answer : Option RecordedPatch)
  /-- An error has ended a candidate's way down, in this generation. -/
  | failed (candidate generation : Nat) (error : RepairError)

end RepairSearch.Search
