import RepairSearch.Error
import RepairSearch.Files.System
import RepairSearch.Search.Settings
import RepairSearch.Text.Space

/-!
# Configuration of a session

The first fault of a configuration is its error; a configuration without a fault is legal.
-/

namespace RepairSearch

structure Config where
  /-- Source files and directories of them. -/
  sources : List String
  /-- Paths that the build command is told about. -/
  classpath : List String
  /-- The coverage file of the failing tests. -/
  faultyCoverage : String
  /-- The coverage file of the passing tests. -/
  seedCoverage : String
  candidates : Nat
  generations : Nat
  attempts : Nat
  seed : Nat
  buildDirectory : String
  buildCommand : Option String
  testCommand : String
  /-- The directory of the build's output, relative to the root of the project. -/
  artifacts : Option String
  timeoutSeconds : Option Nat
  mutation : MutationPolicy
  recursion : RecursionPolicy
  scopeGate : Bool
deriving DecidableEq, Repr

namespace Config

/-- The first budget that is zero, by the name of its option. -/
private def emptyBudget? (c : Config) : Option String :=
  ([("candidates", c.candidates), ("generations", c.generations), ("attempts", c.attempts)].find?
    (·.2 = 0)).map (·.1)

/-- The first path that leads nowhere. -/
private def missingPath? (c : Config) (fs : Files.System) : Option String :=
  (c.sources ++ [c.faultyCoverage, c.seedCoverage]).find? fun path => !fs.contains path

/-- What is wrong with a configuration. -/
def fault? (c : Config) (fs : Files.System) : Option String :=
  if c.sources.isEmpty then some "at least one --source is required"
  else
    match c.emptyBudget?, c.missingPath? fs with
    | some name, _ => some ("--" ++ name ++ " must be at least 1")
    | none, some path => some (path ++ " does not exist")
    | none, none =>
      if isBlankString c.testCommand then some "--test-cmd must not be empty"
      else if c.timeoutSeconds = some 0 then some "--timeout-secs must be positive"
      else if c.artifacts.isSome && c.buildCommand.isNone then
        some "--artifacts needs a --build-cmd"
      else none

def validate (c : Config) (fs : Files.System) : Except RepairError Unit :=
  match c.fault? fs with
  | some reason => .error (.config reason)
  | none => .ok ()

/-- How the search is to run. -/
def settings (c : Config) (quiet : Bool) : Search.Settings where
  candidates := c.candidates
  generations := c.generations
  attempts := c.attempts
  policy := c.mutation
  recursion := c.recursion
  scopeGate := c.scopeGate
  quiet := quiet

def toJson (c : Config) : Json :=
  .ofMembers [("sources", .array (c.sources.map .ofString)),
    ("classpath", .array (c.classpath.map .ofString)),
    ("faulty_coverage", .ofString c.faultyCoverage), ("seed_coverage", .ofString c.seedCoverage),
    ("candidates", .ofNat c.candidates), ("generations", .ofNat c.generations),
    ("attempts", .ofNat c.attempts), ("seed", .ofNat c.seed),
    ("build_dir", .ofString c.buildDirectory), ("build_cmd", .ofOption .ofString c.buildCommand),
    ("test_cmd", .ofString c.testCommand), ("artifacts", .ofOption .ofString c.artifacts),
    ("timeout_secs", .ofOption .ofNat c.timeoutSeconds), ("mutation", c.mutation.toJson),
    ("recursion", c.recursion.toJson), ("scope_gate", .bool c.scopeGate)]

def ofJson? (j : Json) : Option Config := do
  let fields ← j.asRecord?
    [("sources", .required), ("classpath", .required), ("faulty_coverage", .required),
      ("seed_coverage", .required), ("candidates", .required), ("generations", .required),
      ("attempts", .required), ("seed", .required), ("build_dir", .required),
      ("build_cmd", .nullable), ("test_cmd", .required), ("artifacts", .nullable),
      ("timeout_secs", .nullable), ("mutation", .required), ("recursion", .required),
      ("scope_gate", .required)]
  match fields with
  | [some sources, some classpath, some faultyCoverage, some seedCoverage, some candidates,
      some generations, some attempts, some seed, some buildDirectory, some buildCommand,
      some testCommand, some artifacts, some timeoutSeconds, some mutation, some recursion,
      some scopeGate] =>
    pure {
      sources := ← sources.asList? Json.asString?
      classpath := ← classpath.asList? Json.asString?
      faultyCoverage := ← faultyCoverage.asString?
      seedCoverage := ← seedCoverage.asString?
      candidates := ← candidates.asWord?
      generations := ← generations.asWord?
      attempts := ← attempts.asWord?
      seed := ← seed.asWord?
      buildDirectory := ← buildDirectory.asString?
      buildCommand := ← buildCommand.asOption? Json.asString?
      testCommand := ← testCommand.asString?
      artifacts := ← artifacts.asOption? Json.asString?
      timeoutSeconds := ← timeoutSeconds.asOption? Json.asWord?
      mutation := ← MutationPolicy.ofJson? mutation
      recursion := ← RecursionPolicy.ofJson? recursion
      scopeGate := ← scopeGate.asBool? }
  | _ => none

end Config

end RepairSearch
