import RepairSearch.Files.Fault

/-!
# Errors

Everything that can go wrong in a session. Failed builds and failed tests are not errors: the
search sees them as status numbers.
-/

namespace RepairSearch

/-- A mutation is made once and undone once. -/
inductive Misuse where
  | madeTwice
  | undoneUnmade
  | seedMissing
deriving DecidableEq, Repr

def Misuse.message : Misuse → String
  | madeTwice => "mutate called twice"
  | undoneUnmade => "undo called without a successful mutate"
  | seedMissing => "addition and replacement need a seed statement"

inductive RepairError where
  | emptyPool
  /-- A weight that is negative, infinite or no number, as text. -/
  | invalidWeight (weight : String)
  | unsupportedLanguage (path : String)
  | parse (path : String)
  | io (path : String) (fault : Files.Fault)
  | coverage (path : String)
  | unknownStatement (document : String) (index : Nat)
  | mutationState (misuse : Misuse)
  | undoOutOfOrder (edit : Nat) (path : String)
  | testExecution (reason : String)
  | collaborator (reason : String)
  | setup (reason : String)
  | config (reason : String)
deriving DecidableEq, Repr

namespace RepairError

def message : RepairError → String
  | emptyPool => "statement pool is empty (total weight is zero)"
  | invalidWeight w => s!"statement weight must be finite and non-negative, got {w}"
  | unsupportedLanguage path => s!"unsupported source file: {path}"
  | parse path => s!"failed to parse {path}"
  | io path fault => "i/o error on " ++ Files.Name.shownPath path ++ ": " ++ fault.message
  | coverage path => s!"malformed coverage file {path}"
  | unknownStatement document index => s!"unknown statement {index} in {document}"
  | mutationState misuse => "mutation state error: " ++ misuse.message
  | undoOutOfOrder edit path => s!"edit {edit} is not the most recent edit applied to {path}"
  | testExecution reason => s!"test execution failed: {reason}"
  | collaborator reason => s!"collaborator failed: {reason}"
  | setup reason => s!"setup failed: {reason}"
  | config reason => s!"invalid configuration: {reason}"

/-- Whether the user's input is at fault and not the machinery of the session. -/
def isInputError : RepairError → Bool
  | config _ | unsupportedLanguage _ | coverage _ | invalidWeight _ => true
  | _ => false

end RepairError

end RepairSearch
