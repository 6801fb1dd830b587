import RepairSearch.Grammar.Lexing
import RepairSearch.Text.Letters

/-!
# Tokens and layout of Python

Lines and their indentation are tokens without characters. A line break ends a statement where a
statement may end, and is a blank elsewhere.
-/

namespace RepairSearch.Grammar.Python

def word : Scanner :=
  Scan.andThen (Scan.char fun c => c == '_' || Text.Letters.isStart c)
    (Scan.many Text.Letters.isContinue)

/-- Words that begin another form where an operand may stand. -/
def operandWords : List String := ["False", "None", "True", "lambda", "not", "yield"]

/-- Words that begin a statement other than an expression. -/
def statementWords : List String :=
  ["assert", "break", "class", "continue", "def", "del", "for", "from", "global", "if", "import",
   "lambda", "nonlocal", "pass", "raise", "return", "try", "while", "with"]

def operators : List String :=
  ["+", "-", "*", "**", "/", "//", "%", "@", "<<", ">>", "&", "|", "^", "~", "<", ">", "<=", ">=",
   "==", "!=", "<>", "=", "+=", "-=", "*=", "/=", "//=", "%=", "@=", "&=", "|=", "^=", ">>=",
   "<<=", "**=", ":", ":=", "->", ".", "..."]

private def digitRun : Scanner :=
  let piece := Scan.andThen (Scan.many1 Char.isDigit) (Scan.opt (Scan.text "_"))
  Scan.andThen piece (Scan.repeated piece)

private def oneOf (cs : String) : Scanner := Scan.char fun c => cs.contains c

private def radix (mark : String) (p : Char → Bool) : Scanner :=
  let piece := Scan.andThen (Scan.opt (Scan.text "_")) (Scan.many1 p)
  Scan.seqs [Scan.text "0", oneOf mark, piece, Scan.repeated piece, Scan.opt (oneOf "Ll")]

def integer : Scanner :=
  Scan.longest [radix "xX" isHexDigit, radix "oO" isOctalDigit, radix "bB" isBinaryDigit,
    Scan.andThen digitRun (Scan.opt (oneOf "LlJj"))]

def float : Scanner :=
  let exponent := Scan.seqs [oneOf "eE", Scan.opt (oneOf "+-"), digitRun]
  Scan.andThen
    (Scan.longest [
      Scan.seqs [digitRun, Scan.text ".", Scan.opt digitRun, Scan.opt exponent],
      Scan.seqs [Scan.opt digitRun, Scan.text ".", digitRun, Scan.opt exponent],
      Scan.andThen digitRun exponent])
    (Scan.opt (oneOf "jJ"))

/-- The form of a string, fixed by the letters and quotes that open it. -/
structure Quotation where
  quote : Char
  triple : Bool
  raw : Bool
  format : Bool

namespace Quotation

private def prefixLetters : List Char := "fFtTrRbBuU".toList

def closing (q : Quotation) : String :=
  let s := String.singleton q.quote
  if q.triple then s ++ s ++ s else s

/-- The letters and quotes that open a string of this form. -/
def opening (q : Quotation) : Scanner := fun src i => do
  let j := src.run prefixLetters.contains i
  let letters := Scan.slice src i j
  let has := fun (cs : List Char) => letters.toList.any cs.contains
  guard (has ['f', 'F', 't', 'T'] == q.format && has ['r', 'R'] == q.raw)
  guard (src.ascii j == q.quote)
  if q.triple then src.literal? q.closing j
  else
    guard (src.literal? { q with triple := true }.closing j).isNone
    pure (j + 1)

/-- The end of the characters that start at an offset, up to the closing quotes, and in a format
string up to a brace that opens an expression. -/
private def textEnd (q : Quotation) (src : Source) (start : Nat) : Nat → Nat → Option Nat
  | 0, _ => none
  | n + 1, i =>
    let c := src.ascii i
    let next := src.ascii (i + 1)
    if src.atEnd i then none
    else if (src.literal? q.closing i).isSome then some i
    else if c == '\n' && !q.triple && start < i then none
    else if q.format && c == '\x7b' then
      if next == '\x7b' then textEnd q src start n (i + 2) else some i
    else if q.format && c == '\x7d' then
      if next == '\x7d' then textEnd q src start n (i + 2) else none
    else if c == '\\' then
      if q.raw then
        if next == q.quote || next == '\\' || next == '\n' then textEnd q src start n (i + 2)
        else textEnd q src start n (i + 1)
      else if next == 'N' && src.ascii (i + 2) == '\x7b' then
        textEnd q src start n (src.run (· != '\x7d') (i + 3) + 1)
      else if next == '\r' && src.ascii (i + 2) == '\n' then textEnd q src start n (i + 3)
      else if "'\"\\\n".contains next then textEnd q src start n (i + 2)
      else textEnd q src start n (i + 1)
    else textEnd q src start n (i + 1)

/-- One run of plain characters. -/
def content (q : Quotation) : Scanner := fun src i => do
  let j ← textEnd q src i (src.size + 1) i
  guard (i < j)
  pure j

def all : List Quotation :=
  ['"', '\''].flatMap fun quote => [true, false].flatMap fun triple =>
    [true, false].flatMap fun raw => [true, false].map fun format => ⟨quote, triple, raw, format⟩

end Quotation

/-- The comment or joined line that starts at an offset. -/
def filler? (src : Source) (i : Nat) : Option (String × Nat) :=
  if src.ascii i == '#' then some ("comment", src.run (· != '\n') i)
  else if src.ascii i == '\\' then
    if src.ascii (i + 1) == '\n' || src.size == i + 1 then
      some ("line_continuation", min src.size (i + 2))
    else if src.ascii (i + 1) == '\r' && src.ascii (i + 2) == '\n' then
      some ("line_continuation", i + 3)
    else none
  else none

/-- The blanks, comments and line breaks between two tokens. -/
structure Gap where
  /-- A line break, or the end of the text. -/
  breaksLine : Bool
  /-- The column of the next token. -/
  column : Nat
  /-- The first comment that has a line of its own: its column and end. -/
  comment? : Option (Nat × Nat)

/-- Measures the gap at an offset. A comment that ends its line belongs to what lies before it:
if there is one, the gap is measured from its end, which is given too. -/
def gapAt (src : Source) (start : Nat) : Nat × Gap :=
  go (src.size + 1) start start ⟨false, 0, none⟩
where
  go : Nat → Nat → Nat → Gap → Nat × Gap
    | 0, base, _, g => (base, g)
    | n + 1, base, i, g =>
      let c := src.ascii i
      if src.atEnd i then (base, { g with breaksLine := true, column := 0 })
      else if c == '\n' then go n base (i + 1) { g with breaksLine := true, column := 0 }
      else if c == ' ' then go n base (i + 1) { g with column := g.column + 1 }
      else if c == '\t' then go n base (i + 1) { g with column := g.column + 8 }
      else if c == '\r' || c == '\x0c' then go n base (i + 1) { g with column := 0 }
      else if c == '#' then
        let stop := src.run (· != '\n') i
        if g.breaksLine then
          go n base (stop + 1)
            { g with column := 0, comment? := g.comment? <|> some (g.column, stop) }
        else go n stop stop ⟨false, 0, none⟩
      else if c == '\\' then
        match filler? src i with
        | some (_, j) => if i < j then go n base j g else (base, g)
        | none => (base, g)
      else (base, g)

def currentColumn (ctx : Context) : Nat := ctx.indents.headD 0

/-- The end of the blanks and comments at an offset. No token of a block may stand on a line that
is indented less than the block. -/
def skip : ContextScanner := fun src ctx i =>
  let (_, gap) := gapAt src i
  if gap.breaksLine && gap.column < currentColumn ctx then none
  else some (go src (src.size + 1) i)
where
  go (src : Source) : Nat → Nat → Nat
    | 0, i => i
    | n + 1, i =>
      let j := src.run (fun c => isPlainSpace c || isInvisible c) i
      match filler? src j with
      | some (_, k) => if j < k then go src n k else j
      | none => j

/-- The end of a line, after the comment on it. -/
def newline : ContextScanner := fun src _ i =>
  let (stop, gap) := gapAt src i
  if gap.breaksLine then some stop else none

/-- Whether the next token can still belong to the statement being read. -/
def sameLine (src : Source) (ctx : Context) (i : Nat) : Bool :=
  !ctx.lineEnds || !(gapAt src i).2.breaksLine

/-- The start of a block that is indented more deeply than what surrounds it. -/
def indent (src : Source) (ctx : Context) (i : Nat) : Option (Nat × Nat) :=
  let (stop, gap) := gapAt src i
  if gap.breaksLine && currentColumn ctx < gap.column then some (stop, gap.column) else none

/-- The end of a block: the next token is indented less, and comments indented as deeply as the
block still belong to it. -/
def dedent : ContextScanner := fun src ctx i => go src (currentColumn ctx) (src.size + 1) i
where
  go (src : Source) (current : Nat) : Nat → Nat → Option Nat
    | 0, _ => none
    | n + 1, i =>
      let (stop, gap) := gapAt src i
      if gap.breaksLine && gap.column < current then
        match gap.comment? with
        | some (column, commentEnd) => if current ≤ column then go src current n commentEnd else some stop
        | none => some stop
      else none

end RepairSearch.Grammar.Python
