import RepairSearch.Error
import RepairSearch.Files.System
import RepairSearch.Json.Reader
import RepairSearch.Weight

/-!
# Coverage of lines

A coverage file lists lines that a run has reached, each with a weight. A line belongs to a
package and a type. Where a line is listed twice, the later record counts.
-/

namespace RepairSearch

structure CoverageLine where
  package : String
  typeName : String
  line : Nat
deriving DecidableEq, Repr

structure CoverageRecord (W : Type) where
  place : CoverageLine
  weight : W
deriving Repr

/-- The weights of the lines of a file, one for each line. -/
structure Coverage (W : Type) where
  weights : List (CoverageLine × W)
deriving Repr

namespace Coverage

variable {W : Type} [Weight W]

/-- Puts one record in, in the place of an earlier one for the same line. -/
def insert (c : Coverage W) (r : CoverageRecord W) : Coverage W :=
  ⟨(r.place, r.weight) :: c.weights.filter (·.1 ≠ r.place)⟩

/-- Takes up one record, if its weight is legal. -/
def add (c : Coverage W) (r : CoverageRecord W) : Except RepairError (Coverage W) :=
  if Weight.isLegal r.weight then .ok (c.insert r)
  else .error (.invalidWeight (Weight.text r.weight))

/-- Takes up the records one after the other; the first whose weight is not legal stops this. -/
def ofRecords (rs : List (CoverageRecord W)) : Except RepairError (Coverage W) :=
  rs.foldlM add ⟨[]⟩

def weight? (c : Coverage W) (line : CoverageLine) : Option W := c.weights.lookup line

def size (c : Coverage W) : Nat := c.weights.length

end Coverage

namespace CoverageRecord

/-- A record of a coverage file. The type is empty and the weight one where they are left out. -/
def ofJson? (j : Json) : Option (CoverageRecord Float) := do
  let fields ← j.asRecord?
    [("package", .required), ("type", .optional), ("line", .required), ("weight", .optional)]
  match fields with
  | [some package, typeName, some line, weight] =>
    pure {
      place := {
        package := ← package.asString?
        typeName := ← (match typeName with | some t => t.asString? | none => some "")
        line := ← line.asWord? }
      weight := ← (match weight with | some w => w.asFloat? | none => some 1) }
  | _ => none

end CoverageRecord

/-- The coverage that the text of a file describes. -/
def Coverage.ofText (path text : String) : Except RepairError (Coverage Float) :=
  match (Json.read? text).bind (Json.asList? CoverageRecord.ofJson?) with
  | some records => Coverage.ofRecords records
  | none => .error (.coverage path)

/-- The coverage that a file describes. -/
def Coverage.load (fs : Files.System) (path : String) : Except RepairError (Coverage Float) :=
  match fs.readString path with
  | .ok text => Coverage.ofText path text
  | .error fault => .error (.io path fault)

end RepairSearch
