import RepairSearch.Grammar.Lexing
import RepairSearch.Text.Space

/-!
# Tokens of the script languages

JavaScript and its typed dialects share their words, literals and comments, and the rule by which
the end of a line can stand for a semicolon.
-/

namespace RepairSearch.Grammar.Script

/-- Which forms a dialect of the script languages has. -/
structure Dialect where
  /-- Type annotations and declarations of types. -/
  types : Bool
  /-- Markup elements as expressions. -/
  elements : Bool

def Dialect.plain : Dialect := ⟨false, true⟩

def Dialect.typed : Dialect := ⟨true, false⟩

def Dialect.typedElements : Dialect := ⟨true, true⟩

private def separators : List Char := ":;`\"'@#.,|^&<=>+-*/\\%?!~()[]\x7b\x7d".toList

/-- The blanks between tokens: plain ones, line and paragraph separators and the characters with
the Unicode category Zs. -/
def isGap (c : Char) : Bool := (isSpace c && c != '\u0085') || isInvisible c

def isWordPart (c : Char) : Bool :=
  32 ≤ c.toNat && !isGap c && !separators.contains c

private def unicodeEscape : Scanner :=
  let hex := Scan.char isHexDigit
  Scan.orElse
    (Scan.seqs [Scan.text "\\u", hex, hex, hex, hex])
    (Scan.seqs [Scan.text "\\u\x7b", Scan.many1 isHexDigit, Scan.text "\x7d"])

def word : Scanner :=
  Scan.andThen
    (Scan.orElse (Scan.char fun c => isWordPart c && !c.isDigit) unicodeEscape)
    (Scan.repeated (Scan.orElse (Scan.char isWordPart) unicodeEscape))

/-- Words that never name a value in the plain dialect. -/
def reservedWords : List String :=
  ["break", "case", "catch", "class", "const", "continue", "debugger", "default", "delete", "do",
   "else", "export", "extends", "false", "finally", "for", "function", "if", "import", "in",
   "instanceof", "new", "null", "return", "super", "switch", "this", "throw", "true", "try",
   "typeof", "var", "void", "while", "with"]

/-- Words that begin another form where an operand may stand. -/
def operandWords : List String :=
  ["class", "delete", "false", "function", "import", "new", "null", "super", "this", "true",
   "typeof", "void", "yield"]

/-- Words that begin a statement other than an expression. -/
def statementWords : List String :=
  ["abstract", "break", "class", "const", "continue", "debugger", "do", "enum", "for", "if",
   "interface", "return", "switch", "throw", "try", "var", "while", "with"]

def operators : List String :=
  ["<", "<=", ">", ">=", "=", "==", "===", "!", "!=", "!==", "+", "-", "*", "**", "/", "%", "++",
   "--", "<<", ">>", ">>>", "&", "|", "^", "&&", "||", "??", "?", "?.", "+=", "-=", "*=", "/=",
   "%=", "**=", "<<=", ">>=", ">>>=", "&=", "|=", "^=", "&&=", "||=", "??=", "=>", ".", "..."]

private def exponent : Scanner :=
  Scan.seqs [Scan.char fun c => c == 'e' || c == 'E',
    Scan.opt (Scan.char fun c => c == '-' || c == '+'), Scan.digits Char.isDigit]

private def radixLiteral (mark upper : String) (p : Char → Bool) : Scanner :=
  Scan.andThen (Scan.orElse (Scan.text mark) (Scan.text upper)) (Scan.digits p)

private def integerLiteral : Scanner :=
  Scan.orElse
    (Scan.seqs [Scan.opt (Scan.text "0"), Scan.char fun c => '1' ≤ c && c ≤ '9',
      Scan.opt (Scan.andThen (Scan.opt (Scan.text "_")) (Scan.digits Char.isDigit))])
    (Scan.text "0")

def number : Scanner :=
  let digits := Scan.digits Char.isDigit
  let radix := Scan.orElse (radixLiteral "0x" "0X" isHexDigit)
    (Scan.orElse (radixLiteral "0b" "0B" isBinaryDigit) (radixLiteral "0o" "0O" isOctalDigit))
  Scan.longest
    [radix,
     Scan.seqs [integerLiteral, Scan.text ".", Scan.opt digits, Scan.opt exponent],
     Scan.seqs [Scan.text ".", digits, Scan.opt exponent],
     Scan.andThen integerLiteral exponent,
     digits,
     Scan.andThen (Scan.orElse radix digits) (Scan.text "n")]

def escapeSequence : Scanner :=
  let hex := Scan.char isHexDigit
  Scan.andThen (Scan.text "\\") <| Scan.longest
    [Scan.char fun c => c != 'x' && c != 'u' && !isOctalDigit c,
     Scan.seqs [Scan.char isOctalDigit, Scan.opt (Scan.char isOctalDigit),
       Scan.opt (Scan.char isOctalDigit)],
     Scan.seqs [Scan.text "x", hex, hex],
     Scan.seqs [Scan.text "u", hex, hex, hex, hex],
     Scan.seqs [Scan.text "u\x7b", Scan.many1 isHexDigit, Scan.text "\x7d"],
     Scan.seqs [Scan.char fun c => c == '\r' || c == '?',
       Scan.char fun c => c == '\n' || c == '\u2028' || c == '\u2029']]

/-- The characters of a template up to its end, a substitution or an escape. -/
def templateCharacters : Scanner := fun src i =>
  let j := go src (src.size + 1) i
  if i < j && !src.atEnd j then some j else none
where
  go (src : Source) : Nat → Nat → Nat
    | 0, i => i
    | n + 1, i =>
      if src.atEnd i || src.ascii i == '`' || src.ascii i == '\\' then i
      else if src.ascii i == '$' && src.ascii (i + 1) == '\x7b' then i
      else go src n (i + 1)

def regexPattern : Scanner :=
  let escaped := Scan.andThen (Scan.text "\\") (Scan.char (· != '\n'))
  let piece := Scan.orElse escaped (Scan.orElse
    (Scan.seqs [Scan.text "[",
      Scan.repeated (Scan.orElse escaped
        (Scan.char fun c => c != ']' && c != '\n' && c != '\\')),
      Scan.text "]"])
    (Scan.char fun c => c != '/' && c != '\\' && c != '[' && c != '\n'))
  Scan.andThen piece (Scan.repeated piece)

/-- Text between elements; blanks that hold a line break and nothing else are not text. -/
def elementText : Scanner := fun src i =>
  let (j, isText) := go src (src.size + 1) i false false
  if isText then some j else none
where
  go (src : Source) : Nat → Nat → Bool → Bool → Nat × Bool
    | 0, i, _, isText => (i, isText)
    | n + 1, i, fresh, isText =>
      let c := src.ascii i
      if src.atEnd i || ['<', '>', '\x7b', '\x7d', '&'].contains c then (i, isText)
      else if c == '\n' then go src n (i + 1) true isText
      else
        let fresh := fresh && isPlainSpace c
        go src n (i + 1) fresh (isText || !fresh)

/-- A character reference such as an entity. -/
def characterReference : Scanner :=
  Scan.seqs [Scan.text "&",
    Scan.orElse (Scan.andThen (Scan.text "#")
        (Scan.orElse (Scan.andThen (Scan.char fun c => c == 'x' || c == 'X') (Scan.many1 isHexDigit))
          (Scan.many1 Char.isDigit)))
      (Scan.many1 Char.isAlpha),
    Scan.text ";"]

/-- The name of an element or attribute, which may hold hyphens. -/
def elementWord : Scanner :=
  let part := fun (c : Char) => c.isAlphanum || c == '_' || c == '$'
  Scan.orElse
    (Scan.seqs [Scan.char fun c => part c && !c.isDigit, Scan.many part, Scan.text "-",
      Scan.many fun c => part c || c == '-'])
    word

private def isLineEnd (c : Char) : Bool := c == '\n' || c == '\u2028' || c == '\u2029'

private def blockCommentEnd (src : Source) : Nat → Nat → Option Nat
  | 0, _ => none
  | n + 1, i =>
    if src.atEnd i then none
    else if src.ascii i == '*' && src.ascii (i + 1) == '/' then some (i + 2)
    else blockCommentEnd src n (i + 1)

private def onlyBlanksBefore (src : Source) : Nat → Bool
  | 0 => true
  | i + 1 =>
    let c := src.ascii i
    c == '\n' || ((c == ' ' || c == '\t') && onlyBlanksBefore src i)

/-- The comment that starts at an offset. -/
def filler? (src : Source) (i : Nat) : Option (String × Nat) :=
  let line := src.run fun c => !(isLineEnd c || c == '\r')
  if (src.literal? "//" i).isSome then some ("comment", line i)
  else if (src.literal? "/*" i).isSome then
    (blockCommentEnd src src.size (i + 2)).map ("comment", ·)
  else if ((src.literal? "<!--" i).isSome || (src.literal? "-->" i).isSome)
      && onlyBlanksBefore src i then some ("html_comment", line i)
  else none

/-- The end of the blanks and comments at an offset. -/
def skip : ContextScanner := fun src _ i => some (go src (src.size + 1) i)
where
  go (src : Source) : Nat → Nat → Nat
    | 0, i => i
    | n + 1, i =>
      let j := src.run isGap i
      match filler? src j with
      | some (_, k) => if j < k then go src n k else j
      | none => j

/-- What a scan over blanks and comments meets. -/
private inductive Gap where
  /-- A slash that starts no comment. -/
  | slash
  /-- Other text. -/
  | clear (offset : Nat)
  /-- The end of a comment on one line. -/
  | comment (offset : Nat)

/-- Passes over blanks and comments, all of them or up to the first block comment. -/
private def passGap (src : Source) (all : Bool) : Nat → Bool → Nat → Gap
  | 0, _, i => .clear i
  | n + 1, brokeLine, i =>
    let i := src.run isPlainSpace i
    if src.ascii i != '/' then .clear i
    else if src.ascii (i + 1) == '/' then
      passGap src all n brokeLine (src.run (fun c => !isLineEnd c) (i + 2))
    else if src.ascii (i + 1) == '*' then
      let stop := (blockCommentEnd src src.size (i + 2)).getD src.size
      let brokeLine := brokeLine || (Scan.slice src i stop).any isLineEnd
      if src.ascii stop != '/' && !all then
        if brokeLine then .clear stop else .comment stop
      else passGap src all n brokeLine stop
    else .slash

/-- Whether the first text after a line break starts a new statement. -/
private def startsStatement (d : Dialect) (afterValue : Bool) (src : Source) (i : Nat) : Bool :=
  let c := src.ascii i
  let next := src.ascii (i + 1)
  if c == '(' || c == '[' then d.types && !afterValue
  else if "`,:;*%><=?^|&/".contains c then false
  else if c == '.' then next.isDigit
  else if c == '+' then next == '+'
  else if c == '-' then next == '-'
  else if c == '!' then next != '='
  else if (src.literal? "in" i).isSome then
    (src.ascii (i + 2)).isAlpha
      && !((src.literal? "instanceof" i).isSome && !(src.ascii (i + 10)).isAlpha)
  else true

/-- Whether a statement ends at an offset although no semicolon stands there. After a value more
tokens can continue the statement than after a bare keyword or name. -/
private def endsHere (d : Dialect) (afterValue : Bool) (src : Source) : Nat → Nat → Bool
  | 0, _ => true
  | n + 1, i =>
    if src.atEnd i then true
    else
      let gap := if src.ascii i == '/' then passGap src false src.size false i else .comment i
      match gap with
      | .slash => false
      | .clear j =>
        if !afterValue && src.ascii j != ',' && src.ascii j != '=' then true else onward n j
      | .comment j => onward n j
where
  onward (n i : Nat) : Bool :=
    let c := src.ascii i
    if src.atEnd i then true
    else if c == '\x7d' then
      if d.types then
        let j := src.run isPlainSpace (i + 1)
        src.ascii j != ':' || afterValue
      else true
    else if c == '\n' then
      match passGap src true src.size false (i + 1) with
      | .slash => false
      | .clear j | .comment j => src.atEnd j || startsStatement d afterValue src j
    else if isPlainSpace c then endsHere d afterValue src n (i + 1)
    else false

/-- The offset at which a statement ends without a semicolon, after the comments that still belong
to it. -/
def lineEnd? (d : Dialect) (afterValue : Bool) (src : Source) (i : Nat) : Option Nat :=
  go (src.size + 1) i
where
  go : Nat → Nat → Option Nat
    | 0, _ => none
    | n + 1, i =>
      if endsHere d afterValue src (src.size + 1) i then some i
      else
        let j := src.run isGap i
        match filler? src j with
        | some (_, k) => if j < k then go n k else none
        | none => none

end RepairSearch.Grammar.Script
