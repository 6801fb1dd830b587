import RepairSearch.Grammar.Lexing
import RepairSearch.Text.Letters

/-!
# Tokens of Rust
-/

namespace RepairSearch.Grammar.Rust

def word : Scanner :=
  Scan.seqs [Scan.opt (Scan.text "r#"),
    Scan.char fun c => c == '_' || Text.Letters.isStart c, Scan.many Text.Letters.isContinue]

/-- Words that begin another form where an operand may stand. -/
def operandWords : List String :=
  ["async", "break", "const", "continue", "crate", "false", "for", "if", "let", "loop", "match",
   "move", "return", "self", "static", "super", "true", "unsafe", "while", "yield"]

/-- Words that begin an item where a statement may stand. -/
def itemWords : List String :=
  ["enum", "extern", "fn", "impl", "mod", "pub", "struct", "trait", "type", "use"]

/-- Words that have a meaning of their own in a pattern. -/
def patternWords : List String :=
  ["_", "const", "crate", "false", "mut", "ref", "self", "super", "true"]

/-- Words that are no names inside the arguments of a macro. -/
def tokenWords : List String :=
  ["as", "async", "await", "break", "const", "continue", "default", "enum", "fn", "for", "gen",
   "if", "impl", "let", "loop", "match", "mod", "pub", "return", "static", "struct", "trait",
   "type", "union", "unsafe", "use", "where", "while"]

def numericTypes : List String :=
  ["u8", "i8", "u16", "i16", "u32", "i32", "u64", "i64", "u128", "i128", "isize", "usize", "f32",
   "f64"]

def primitiveTypes : List String := numericTypes ++ ["bool", "str", "char"]

def operators : List String :=
  ["+", "-", "*", "/", "%", "^", "!", "&", "|", "&&", "||", "<<", ">>", "+=", "-=", "*=", "/=",
   "%=", "^=", "&=", "|=", "<<=", ">>=", "=", "==", "!=", ">", "<", ">=", "<=", ".", "..", "...",
   "..=", ":", "::", "->", "=>"]

/-- Marks inside the arguments of a macro. -/
def tokenMarks : List String :=
  ["<<=", ">>=", "...", "..=", "&&", "||", "<<", ">>", "+=", "-=", "*=", "/=", "%=", "^=", "&=",
   "|=", "==", "!=", ">=", "<=", "..", "::", "->", "=>", "+", "-", "*", "/", "%", "^", "!", "&",
   "|", "=", ">", "<", "@", "_", ".", ",", ";", ":", "#", "?", "'"]

private def numberPart (c : Char) : Bool := c.isDigit || c == '_'

def integer : Scanner :=
  let radix := fun (mark : String) (p : Char → Bool) => Scan.andThen (Scan.text mark)
    (Scan.many1 fun c => p c || c == '_')
  Scan.andThen
    (Scan.longest [Scan.andThen (Scan.char Char.isDigit) (Scan.many numberPart),
      radix "0x" isHexDigit, radix "0b" isBinaryDigit, radix "0o" isOctalDigit])
    (Scan.opt (Scan.longest (numericTypes.map Scan.text)))

private def suffix : Scanner :=
  Scan.opt (Scan.andThen (Scan.char fun c => c == 'u' || c == 'i' || c == 'f')
    (Scan.many1 Char.isDigit))

/-- A number with a fraction or an exponent. A dot before a letter or another dot is no fraction. -/
def float : Scanner :=
  let whole := Scan.andThen (Scan.char Char.isDigit) (Scan.many numberPart)
  let exponent := Scan.seqs [Scan.char fun c => c == 'e' || c == 'E',
    Scan.opt (Scan.char fun c => c == '+' || c == '-'), Scan.char numberPart,
    Scan.many numberPart]
  let fraction := Scan.andThen (Scan.notBefore (Scan.text ".")
    (Scan.char fun c => c.isAlpha || c == '.')) (Scan.many numberPart)
  Scan.andThen
    (Scan.orElse (Scan.seqs [whole, fraction, Scan.opt exponent]) (Scan.andThen whole exponent))
    suffix

private def escape : Scanner :=
  let hex := Scan.char isHexDigit
  Scan.andThen (Scan.text "\\") <| Scan.longest
    [Scan.char fun c => c != 'x' && c != 'u',
     Scan.seqs [Scan.text "u", hex, hex, hex, hex],
     Scan.seqs [Scan.text "u\x7b", Scan.many1 isHexDigit, Scan.text "\x7d"],
     Scan.seqs [Scan.text "x", hex, hex]]

def escapeSequence : Scanner := escape

def character : Scanner :=
  Scan.seqs [Scan.opt (Scan.text "b"), Scan.text "'",
    Scan.opt (Scan.orElse escape (Scan.char fun c => c != '\\' && c != '\'')), Scan.text "'"]

def stringContent : Scanner := Scan.many1 fun c => c != '"' && c != '\\'

/-- A raw string from its letters to the marks that close it. -/
def rawString : Scanner := fun src i => do
  let j ← Scan.orElse (Scan.text "r") (Scan.orElse (Scan.text "br") (Scan.text "cr")) src i
  let k := src.run (· == '#') j
  let start ← src.literal? "\"" k
  close src (String.ofList ('"' :: List.replicate (k - j) '#')) (src.size + 1) start
where
  close (src : Source) (closing : String) : Nat → Nat → Option Nat
    | 0, _ => none
    | n + 1, i =>
      if src.atEnd i then none
      else match src.literal? closing i with
        | some j => some j
        | none => close src closing n (i + 1)

def metavariable : Scanner :=
  Scan.seqs [Scan.text "$", Scan.char fun c => c.isAlpha || c == '_',
    Scan.many Text.Letters.isContinue]

/-- The end of a block comment, in which others may be nested. -/
private def blockEnd (src : Source) : Nat → Nat → Nat → Option Nat
  | 0, _, _ => none
  | n + 1, depth, i =>
    if src.atEnd i then none
    else if (src.literal? "/*" i).isSome then blockEnd src n (depth + 1) (i + 2)
    else if (src.literal? "*/" i).isSome then
      if depth ≤ 1 then some (i + 2) else blockEnd src n (depth - 1) (i + 2)
    else blockEnd src n depth (i + 1)

/-- The comment that starts at an offset. A documentation line holds its line break. -/
def filler? (src : Source) (i : Nat) : Option (String × Nat) :=
  if (src.literal? "//" i).isSome then
    let stop := src.run (· != '\n') i
    let third := src.ascii (i + 2)
    let documents := third == '!' || (third == '/' && src.ascii (i + 3) != '/')
    some ("line_comment", if documents then min src.size (stop + 1) else stop)
  else if (src.literal? "/*" i).isSome then
    (blockEnd src (src.size + 1) 0 i).map ("block_comment", ·)
  else none

/-- The end of the blanks and comments at an offset. -/
def skip : ContextScanner := fun src _ i => some (go src (src.size + 1) i)
where
  go (src : Source) : Nat → Nat → Nat
    | 0, i => i
    | n + 1, i =>
      let j := src.run (fun c => isPlainSpace c || (i == 0 && c == '\uFEFF')) i
      match filler? src j with
      | some (_, k) => if j < k then go src n k else j
      | none => j

end RepairSearch.Grammar.Rust
