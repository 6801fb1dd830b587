import RepairSearch.Grammar.Python.Token

/-!
# Symbols of the Python grammar
-/

namespace RepairSearch.Grammar.Python

inductive Symbol where
  | module | statement | simpleLine | simple | suite
  | expression | primary | postfixed | atom | string | interpolation
  | comprehension | arguments | parameters | pattern | targets | values | type | typeParameter
  | casePattern | simplePattern
deriving DecidableEq, Repr

abbrev R := Rule Symbol

open Rule

def op (text : String) : R := token text false (Scan.operator operators text)

def exact (text : String) : R := token text false (Scan.text text)

def keyword (text : String) : R := token text false (Scan.wordWhere word (· == text))

def name : R := token "identifier" true word

def nameExcept (words : List String) : R :=
  token "identifier" true (Scan.wordWhere word fun w => !words.contains w)

/-- A token that only continues a statement when no line break lies before it. -/
def onLine (r : R) : R := seq (check sameLine) r

/-- Inside brackets, where neither line breaks nor indentation have a meaning. -/
def inside (r : R) : R :=
  within (fun c => { c with lineEnds := false, indents := [] }) r

/-- Between a keyword and the token that has to follow. -/
def header (r : R) : R := within (fun c => { c with lineEnds := false }) r

def brackets (left : String) (r : R) (right : String) : R :=
  seqs [exact left, inside (seq r (exact right))]

def commaList (r : R) : R := sepBy1 (exact ",") r

/-- A list in which a last comma may stand. -/
def openList (r : R) : R := seq (commaList r) (opt (exact ","))

def value : R := climb .expression 0

/-- A part that is there exactly when its first word is. -/
def ifWord (text : String) (r : R) : R := alt r (absent (keyword text))

end RepairSearch.Grammar.Python
