/-!
# Parameters of a command line

A command line names its parameters by two dashes and a word, or by one dash and a letter. A
parameter that is not on the line may be in the environment. Whatever does not fit ends the
reading.
-/

namespace RepairSearch.CommandLine

inductive Arity where
  | flag
  | single
  /-- The parameter may stand several times, and commas divide its values. -/
  | many
deriving DecidableEq, Repr

structure Parameter where
  /-- The word behind two dashes. -/
  name : String
  /-- The letter behind one dash. -/
  letter : Option Char
  arity : Arity
  /-- The variable of the environment that stands in for the parameter. -/
  environmentName : Option String
  required : Bool
  accepts : String → Bool

/-- Why a line is not carried out. -/
inductive Refusal where
  | usage
  /-- The user has asked for help. -/
  | help
deriving DecidableEq, Repr

/-- The values that parameters have been given. -/
abbrev Values := List (String × List String)

abbrev Environment := List (String × String)

namespace Values

def get (vs : Values) (name : String) : List String := (vs.lookup name).getD []

def get? (vs : Values) (name : String) : Option String := (vs.get name).head?

/-- Adds values to those that a parameter has. -/
def add (vs : Values) (name : String) (values : List String) : Values :=
  (name, vs.get name ++ values) :: vs.filter (·.1 ≠ name)

end Values

namespace Parameter

/-- The values that a text is for a parameter. -/
def valuesOf (p : Parameter) (text : String) : List String :=
  if p.arity = .many then text.splitOn "," else [text]

/-- Gives a parameter a value. Only some parameters may be given one again. -/
def give (p : Parameter) (text : String) (vs : Values) : Except Refusal Values :=
  let values := p.valuesOf text
  if (p.arity ≠ .many && (vs.lookup p.name).isSome) || !values.all p.accepts then .error .usage
  else .ok (vs.add p.name values)

def trueText : String := "true"

/-- What an argument is. -/
private inductive Argument where
  | long (name : String) (value : Option String)
  | short (letters : List Char)
  | plain

private def argumentOf (a : String) : Argument :=
  match a.toList with
  | '-' :: '-' :: rest =>
    let name := rest.takeWhile (· != '=')
    let value := rest.drop name.length
    .long (String.ofList name)
      (if value.isEmpty then none else some (String.ofList (value.drop 1)))
  | '-' :: c :: rest => .short (c :: rest)
  | _ => .plain

/-- Whether an argument can be the value of the parameter before it. -/
private def isValue (a : String) : Bool :=
  match argumentOf a with
  | .plain => true
  | _ => false

variable (ps : List Parameter)

/-- Takes the letters behind one dash, which all have to be flags. -/
private def readLetters : List Char → Values → Except Refusal Values
  | [], vs => .ok vs
  | c :: cs, vs =>
    if c == 'h' then .error .help
    else
      match ps.find? fun p => p.letter == some c && p.arity = .flag with
      | some p => (p.give trueText vs).bind (readLetters cs)
      | none => .error .usage

/-- Takes arguments one after another. -/
def readArguments : List String → Values → Except Refusal Values
  | [], vs => .ok vs
  | a :: rest, vs =>
    match argumentOf a with
    | .plain => .error .usage
    | .short letters => (readLetters ps letters vs).bind (readArguments rest)
    | .long "" none => if rest.isEmpty then .ok vs else .error .usage
    | .long name value =>
      if name = "help" then .error (if value.isSome then .usage else .help)
      else
        match ps.find? (·.name == name), value, rest with
        | none, _, _ => .error .usage
        | some p, none, rest =>
          if p.arity = .flag then (p.give trueText vs).bind (readArguments rest)
          else
            match rest with
            | v :: rest =>
              if isValue v then (p.give v vs).bind (readArguments rest) else .error .usage
            | [] => .error .usage
        | some p, some v, rest =>
          if p.arity = .flag then .error .usage else (p.give v vs).bind (readArguments rest)

/-- Takes the parameters that are not on the line from the environment. -/
def readEnvironment (environment : Environment) :
    List Parameter → Values → Except Refusal Values
  | [], vs => .ok vs
  | p :: ps, vs =>
    match vs.lookup p.name, p.environmentName.bind (environment.lookup ·) with
    | none, some text => (p.give text vs).bind (readEnvironment environment ps)
    | _, _ => readEnvironment environment ps vs

/-- The values of all parameters. -/
def read (arguments : List String) (environment : Environment) : Except Refusal Values := do
  let vs ← readArguments ps arguments []
  let vs ← readEnvironment environment ps vs
  if ps.all fun p => !p.required || (vs.lookup p.name).isSome then .ok vs else .error .usage

end Parameter

end RepairSearch.CommandLine
