import RepairSearch.Json.Printer
import RepairSearch.Json.Reader
import RepairSearch.Session.BuildDirectory
import RepairSearch.Session.Config
import RepairSearch.Session.Patch

/-!
# Summaries

The summary of a session is kept in its build directory, where it can be read again.
-/

namespace RepairSearch

structure Summary where
  config : Config
  /-- When the session began, as a timestamp. -/
  started : String
  candidatesRun : Nat
  candidatesFailed : Nat
  compilations : Nat
  testRuns : Nat
  patches : List RecordedPatch
  milliseconds : Nat
deriving DecidableEq, Repr

namespace Summary

def toJson (s : Summary) : Json :=
  .ofMembers [("config", s.config.toJson), ("started", .ofString s.started),
    ("candidates_run", .ofNat s.candidatesRun), ("candidates_failed", .ofNat s.candidatesFailed),
    ("compilations", .ofNat s.compilations), ("test_runs", .ofNat s.testRuns),
    ("patches", .array (s.patches.map RecordedPatch.toJson)),
    ("duration_ms", .ofNat s.milliseconds)]

def ofJson? (j : Json) : Option Summary := do
  let fields ← j.asRecord?
    [("config", .required), ("started", .required), ("candidates_run", .required),
      ("candidates_failed", .required), ("compilations", .required), ("test_runs", .required),
      ("patches", .required), ("duration_ms", .required)]
  match fields with
  | [some config, some started, some candidatesRun, some candidatesFailed, some compilations,
      some testRuns, some patches, some milliseconds] =>
    pure {
      config := ← Config.ofJson? config
      started := ← started.asString?
      candidatesRun := ← candidatesRun.asWord?
      candidatesFailed := ← candidatesFailed.asWord?
      compilations := ← compilations.asWord?
      testRuns := ← testRuns.asWord?
      patches := ← patches.asList? RecordedPatch.ofJson?
      milliseconds := ← milliseconds.asWord? }
  | _ => none

/-- The summary that a text holds, if it holds one. -/
def ofText? (text : String) : Option Summary := (Json.read? text).bind ofJson?

def save (s : Summary) (b : BuildDirectory) (fs : Files.System) :
    Except RepairError Files.System :=
  match fs.write b.summaryPath (Text.ofString s.toJson.pretty) with
  | .ok fs => .ok fs
  | .error fault => .error (.io b.summaryPath fault)

/-- The summary in a build directory, if a legal one is there. -/
def load? (b : BuildDirectory) (fs : Files.System) : Option Summary :=
  match fs.readString b.summaryPath with
  | .ok text => ofText? text
  | .error _ => none

end Summary

end RepairSearch
