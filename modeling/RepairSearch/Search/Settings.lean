import RepairSearch.Policy

/-!
# Settings and results of a search
-/

namespace RepairSearch

/-- What follows a generation that has used up its attempts. -/
inductive RecursionPolicy where
  /-- The search goes on to the next generation, with nothing kept at this one. -/
  | always
  | stopWhenExhausted
deriving DecidableEq, Repr, Inhabited

namespace RecursionPolicy

def title : RecursionPolicy → String
  | always => "Always"
  | stopWhenExhausted => "StopWhenExhausted"

def ofTitle? (title : String) : Option RecursionPolicy :=
  [always, stopWhenExhausted].find? (·.title == title)

def toJson (p : RecursionPolicy) : Json := .ofString p.title

def ofJson? : Json → Option RecursionPolicy
  | .string (some title) => ofTitle? title
  | .object [(some title, .null)] => ofTitle? title
  | _ => none

end RecursionPolicy

namespace Search

structure Settings where
  candidates : Nat
  generations : Nat
  /-- How often a generation tries; it tries at least once. -/
  attempts : Nat
  policy : MutationPolicy
  recursion : RecursionPolicy
  /-- Whether mutations with names that are not in scope are given up before they are compiled. -/
  scopeGate : Bool
  /-- Whether the search keeps what it does to itself. -/
  quiet : Bool
deriving DecidableEq, Repr

/-- How much a search has done. -/
structure Stats where
  candidatesRun : Nat
  candidatesFailed : Nat
  compilations : Nat
  testRuns : Nat
  patches : Nat
deriving DecidableEq, Repr

def Stats.zero : Stats := ⟨0, 0, 0, 0, 0⟩

/-- The statuses of the program as it is; there is none for the tests of a program that does not
compile. -/
structure Probe where
  compile : Int
  tests : Option Int
deriving DecidableEq, Repr

end Search

end RepairSearch
