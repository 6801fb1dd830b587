/-!
# Runs

A comparison of two sequences is a list of runs. A run covers a range of the old sequence and a
range of the new one. The lines of equal runs are common to both, the others are taken out, put
in or replaced.
-/

namespace RepairSearch.Diff

inductive Kind where
  | equal
  | delete
  | insert
  | replace
deriving DecidableEq, Repr, Inhabited

/-- A run with its range of the old sequence and its range of the new one. -/
structure Run where
  kind : Kind
  old : Nat
  oldLength : Nat
  new : Nat
  newLength : Nat
deriving DecidableEq, Repr, Inhabited

namespace Run

def equal (old new length : Nat) : Run := ⟨.equal, old, length, new, length⟩

def delete (old length new : Nat) : Run := ⟨.delete, old, length, new, 0⟩

def insert (old new length : Nat) : Run := ⟨.insert, old, 0, new, length⟩

def oldEnd (r : Run) : Nat := r.old + r.oldLength

def newEnd (r : Run) : Nat := r.new + r.newLength

end Run

variable {α : Type} [BEq α]

/-- How far two lists agree from their heads. -/
def agreement : List α → List α → Nat
  | a :: as, b :: bs => if a == b then agreement as bs + 1 else 0
  | _, _ => 0

/-- A range of one of two sequences. -/
structure Range where
  start : Nat
  stop : Nat
deriving DecidableEq, Repr

namespace Range

def length (r : Range) : Nat := r.stop - r.start

def isEmpty (r : Range) : Bool := r.stop ≤ r.start

/-- Whether a range can be parted at a place. -/
def partsAt (r : Range) (place : Nat) : Bool := r.start ≤ place && place ≤ r.stop

end Range

/-- How far two ranges agree from their starts. -/
def commonPrefix (old new : Array α) (p q : Range) : Nat :=
  agreement (old.extract p.start p.stop).toList (new.extract q.start q.stop).toList

/-- How far two ranges agree from their ends. -/
def commonSuffix (old new : Array α) (p q : Range) : Nat :=
  agreement (old.extract p.start p.stop).toList.reverse
    (new.extract q.start q.stop).toList.reverse

end RepairSearch.Diff
