import RepairSearch.Json.Basic

/-!
# Recorded patches

What is known of a program that passed its tests: the mutations that lead to it, the file that
lists them, where the program is stored, and its difference from the original.
-/

namespace RepairSearch

structure RecordedPatch where
  candidate : Nat
  generation : Nat
  timestamp : String
  /-- The descriptions of the mutations, oldest first. -/
  mutations : List String
  file : String
  /-- Where the program is stored, if it could be. -/
  compiled : Option String
  diff : String
deriving DecidableEq, Repr

namespace RecordedPatch

def toJson (p : RecordedPatch) : Json :=
  .ofMembers [("candidate", .ofNat p.candidate), ("generation", .ofNat p.generation),
    ("timestamp", .ofString p.timestamp), ("mutations", .array (p.mutations.map .ofString)),
    ("patch_file", .ofString p.file), ("compiled", .ofOption .ofString p.compiled),
    ("diff", .ofString p.diff)]

def ofJson? (j : Json) : Option RecordedPatch := do
  let fields ← j.asRecord?
    [("candidate", .required), ("generation", .required), ("timestamp", .required),
      ("mutations", .required), ("patch_file", .required), ("compiled", .nullable),
      ("diff", .required)]
  match fields with
  | [some candidate, some generation, some timestamp, some mutations, some file, some compiled,
      some diff] =>
    pure {
      candidate := ← candidate.asWord?
      generation := ← generation.asWord?
      timestamp := ← timestamp.asString?
      mutations := ← mutations.asList? Json.asString?
      file := ← file.asString?
      compiled := ← compiled.asOption? Json.asString?
      diff := ← diff.asString? }
  | _ => none

end RecordedPatch

end RepairSearch
