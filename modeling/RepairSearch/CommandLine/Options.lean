import RepairSearch.CommandLine.Parameter
import RepairSearch.Decimal
import RepairSearch.Session.Config

/-!
# Options

The parameters of the commands and the configuration that they make.
-/

namespace RepairSearch.CommandLine

open Parameter

/-- A number that fits in a word of 64 bits. -/
def word? : String → Option Nat := Decimal.natural? UInt64.size

private def anyText (_ : String) : Bool := true

private def isWord (s : String) : Bool := (word? s).isSome

private def isTruth (s : String) : Bool := s = trueText || s = "false"

/-- The variable of the environment for a parameter. -/
private def environmentName (name : String) : String :=
  "RSREPAIR_" ++ String.ofList (name.toList.map fun c => if c = '-' then '_' else c.toUpper)

private def value (name : String) (required : Bool) (accepts : String → Bool) : Parameter :=
  ⟨name, none, .single, some (environmentName name), required, accepts⟩

private def list (name : String) (required : Bool) : Parameter :=
  ⟨name, none, .many, some (environmentName name), required, anyText⟩

private def flag (name : String) : Parameter :=
  ⟨name, none, .flag, some (environmentName name), false, isTruth⟩

/-- A flag that only the command line sets. -/
private def localFlag (name : String) (letter : Option Char) : Parameter :=
  ⟨name, letter, .flag, none, false, isTruth⟩

/-- The parameters of a session. -/
def sessionParameters : List Parameter :=
  [list "source" true, list "classpath" false, value "faulty-coverage" true anyText,
    value "seed-coverage" true anyText, value "candidates" false isWord,
    value "generations" false isWord, value "attempts" false isWord, value "seed" false isWord,
    value "build-dir" false anyText, value "build-cmd" false anyText,
    value "test-cmd" true anyText, value "artifacts" false anyText,
    value "timeout-secs" false isWord, value "mutation" false anyText,
    flag "stop-on-exhausted", flag "scope-gate", localFlag "json" none,
    localFlag "quiet" (some 'q')]

def statusParameters : List Parameter :=
  [value "build-dir" false anyText, localFlag "json" none]

private def isSet (vs : Values) (name : String) : Bool := vs.get? name == some trueText

private def text (vs : Values) (name default : String) : String := (vs.get? name).getD default

private def number (vs : Values) (name : String) (default : Nat) : Nat :=
  ((vs.get? name).bind word?).getD default

/-- The build directory of a command. -/
def buildDirectory (vs : Values) : String := text vs "build-dir" "rsrepair-build"

def asksForJson (vs : Values) : Bool := isSet vs "json"

def asksForQuiet (vs : Values) : Bool := isSet vs "quiet"

/-- The configuration of a session. A seed that is not given is any number. -/
def configOf (vs : Values) (anySeed : Nat) : Except RepairError Config :=
  let name := text vs "mutation" "random"
  match MutationPolicy.ofName? name with
  | none => .error (.config ("unknown mutation '" ++ name
      ++ "'. Expected random, null, addition, replacement or deletion"))
  | some mutation => .ok
    { sources := vs.get "source"
      classpath := vs.get "classpath"
      faultyCoverage := text vs "faulty-coverage" ""
      seedCoverage := text vs "seed-coverage" ""
      candidates := number vs "candidates" 10
      generations := number vs "generations" 2
      attempts := number vs "attempts" 10
      seed := number vs "seed" anySeed
      buildDirectory := buildDirectory vs
      buildCommand := vs.get? "build-cmd"
      testCommand := text vs "test-cmd" ""
      artifacts := vs.get? "artifacts"
      timeoutSeconds := (vs.get? "timeout-secs").bind word?
      mutation
      recursion := if isSet vs "stop-on-exhausted" then .stopWhenExhausted else .always
      scopeGate := isSet vs "scope-gate" }

end RepairSearch.CommandLine
