import RepairSearch.Session.Recorder

/-!
# What a search works with

A search acts on the world outside through its collaborators: they check names, keep the log,
compile, test, record and tell. Each may do anything to the state `κ` of that world.
-/

namespace RepairSearch.Search

/-- What a search tells while it runs. -/
inductive Notice where
  | candidate (number total : Nat)
  | generation (number total : Nat)
  | mutation (description : String)
  | compileFailed
  | compiled
  | tests (status : Int)
  | patch (recorded : RecordedPatch)
  | candidateFailed (number : Nat) (error : RepairError)

structure Collaborators (κ : Type) where
  checkScope : Document → κ → Except RepairError Syntax.Scope.Report × κ
  appendLog : String → κ → Except RepairError Unit × κ
  /-- A status: below zero if the program does not compile. -/
  compile : DocumentSet → κ → Except RepairError Int × κ
  /-- A status: above zero if the tests pass, below zero if they could not be run. -/
  runTests : κ → Except RepairError Int × κ
  record : FoundPatch → κ → Option RecordedPatch × κ
  tell : Notice → κ → κ

end RepairSearch.Search
