import RepairSearch.Coverage
import RepairSearch.Document.Set
import RepairSearch.Random

/-!
# Pools of statements

A pool lays its statements end to end on a line, each as long as its weight. A number on that line
selects the statement that it falls on; a random number selects every statement with a
probability proportional to its weight.
-/

namespace RepairSearch

namespace Pool

structure Entry (W : Type) where
  /-- The sum of the weights up to this entry. -/
  cumulative : W
  weight : W
  statement : StatementRef
deriving DecidableEq, Repr

end Pool

structure Pool (W : Type) where
  entries : Array (Pool.Entry W)
  total : W
deriving Repr

namespace Pool

variable {W : Type} [Weight W]

def empty : Pool W := ⟨#[], Weight.zero⟩

def add (p : Pool W) (statement : StatementRef) (weight : W) : Except RepairError (Pool W) :=
  if Weight.isLegal weight then
    let total := p.total + weight
    .ok ⟨p.entries.push ⟨total, weight, statement⟩, total⟩
  else .error (.invalidWeight (Weight.text weight))

def hasWeight (p : Pool W) : Bool := Weight.isPositive p.total

/-- By halving, the number of the first entry of a range that does not lie left of a number on
the line. -/
def firstAt (p : Pool W) (draw : W) (lo hi : Nat) : Nat :=
  if lo < hi then
    let mid := (lo + hi) / 2
    match p.entries[mid]? with
    | some e =>
      if Weight.less e.cumulative draw then p.firstAt draw (mid + 1) hi else p.firstAt draw lo mid
    | none => lo
  else lo
termination_by hi - lo

/-- The first entry with a positive weight that does not lie left of a number on the line; past
the end of the line, the last entry with a positive weight. -/
def select (p : Pool W) (draw : W) : Except RepairError StatementRef :=
  if !p.hasWeight then .error .emptyPool
  else
    let rest := p.entries.toList.drop (p.firstAt draw 0 p.entries.size)
    let isHeavy := fun (e : Entry W) => Weight.isPositive e.weight
    match (rest.find? isHeavy).or (p.entries.toList.reverse.find? isHeavy) with
    | some e => .ok e.statement
    | none => .error .emptyPool

section

variable {σ : Type} [RandomSource σ W]

def draw (p : Pool W) (g : σ) : Except RepairError StatementRef × σ :=
  let (x, g) := RandomSource.fraction g
  (p.select (x * p.total), g)

/-- How often another statement is drawn before any statement will do. -/
def redraws : Nat := 8

def drawOther (p : Pool W) (excluded : StatementRef) :
    Nat → σ → Except RepairError StatementRef × σ
  | 0, g => p.draw g
  | n + 1, g =>
    match p.draw g with
    | (.ok s, g) => if s ≠ excluded then (.ok s, g) else drawOther p excluded n g
    | (.error e, g) => (.error e, g)

/-- A statement other than the one given, if a few draws find one. -/
def drawExcluding (p : Pool W) (excluded : StatementRef) (g : σ) :
    Except RepairError StatementRef × σ :=
  drawOther p excluded redraws g

end

/-- Adds the statements on covered lines, in order, with the weights that `weight` makes of those
of their lines. -/
def ofCoverage (ds : DocumentSet) (c : Coverage W) (weight : W → W) :
    Except RepairError (Pool W) :=
  ds.statements.foldlM (fun p (r, s) =>
    match ds.document r.document with
    | .error e => .error e
    | .ok d =>
      match c.weight? ⟨d.package, s.typeName, s.line⟩ with
      | some w => p.add r (weight w)
      | none => .ok p) empty

/-- The pool of faulty statements, weighted by coverage, and the pool of seeds, all of weight
one. -/
def build (ds : DocumentSet) (faulty seeds : Coverage W) :
    Except RepairError (Pool W × Pool W) := do
  let p ← ofCoverage ds faulty id
  let q ← ofCoverage ds seeds fun _ => Weight.one
  .ok (p, q)

private def entryText (e : Entry W) : String :=
  Weight.text e.cumulative ++ " : doc " ++ toString e.statement.document ++ " statement "
    ++ toString e.statement.index ++ "\n"

/-- The entries, one on a line. -/
def text (p : Pool W) : String := String.join (p.entries.toList.map entryText)

end Pool

end RepairSearch
