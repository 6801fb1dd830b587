import RepairSearch.Grammar.Script.Token

/-!
# Symbols of the script grammar

The names of the rules that refer to each other, and the small rules that the others are made of.
-/

namespace RepairSearch.Grammar.Script

inductive Symbol where
  | program | statement | declaration | block | declarator | classTail | member | decorator
  | expression | operand | assignment | primary | atom | constructor | expressions
  | arguments | object | array | template | string | propertyName
  | signature | parameters | pattern | destructuring | target
  | element | elementName | attribute
  | type | typeOperand | typeArguments | typeParameters | typeAscription | typeMember | objectType
  | moduleName
deriving DecidableEq, Repr

abbrev R := Rule Symbol

open Rule

/-- An operator, taken as long as possible. -/
def op (text : String) : R := token text false (Scan.operator operators text)

/-- A token taken as it is, whatever follows. -/
def exact (text : String) : R := token text false (Scan.text text)

def keyword (text : String) : R := token text false (Scan.wordWhere word (· == text))

def anyWord (kind : String) : R := token kind true word

/-- A name at a place where some words have another meaning. -/
def nameExcept (words : List String) (kind : String := "identifier") : R :=
  token kind true (Scan.wordWhere word fun w => !words.contains w)

/-- Inside brackets, where a line break has no meaning. -/
def inside (r : R) : R :=
  within (fun c => { c with lineEnds := false, inEnds := false, stopsShort := false }) r

/-- Where a colon follows, so that none can introduce a type. -/
def beforeColon (r : R) : R :=
  within (fun c => { c with lineEnds := false, inEnds := false, stopsShort := true }) r

/-- Where a line break may end the statement. -/
def onLines (r : R) : R :=
  within (fun c => { c with lineEnds := true, inEnds := false, stopsShort := false }) r

def brackets (left : String) (r : R) (right : String) : R :=
  seqs [exact left, inside r, exact right]

variable (d : Dialect)

/-- The end of a statement: a semicolon or what stands for one. -/
def terminator (afterValue : Bool := true) : R :=
  alt (exact ";") (mark fun src _ i => lineEnd? d afterValue src i)

/-- No line break that would end the statement lies before the next token. -/
def sameStatement (afterValue : Bool := true) : R :=
  check fun src ctx i => !ctx.lineEnds || (lineEnd? d afterValue src i).isNone

/-- A comma-separated list in which entries may be missing. -/
def looseList (r : R) : R := sepBy1 (exact ",") (opt r)

def commaList (r : R) : R := sepBy1 (exact ",") r

/-- A name in a place that only holds names. -/
def binding (kind : String := "identifier") : R :=
  if d.types then anyWord kind else nameExcept reservedWords kind

def privateName : R :=
  token "private_property_identifier" true (Scan.andThen (Scan.text "#") word)

def typeName : R := anyWord "type_identifier"

def value : R := climb .expression 0

def initializer : R := seq (op "=") (field "value" value)

def decorators : R := many (field "decorator" (sym .decorator))

end RepairSearch.Grammar.Script
