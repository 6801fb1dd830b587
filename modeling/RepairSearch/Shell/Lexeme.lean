import RepairSearch.Shell.Syntax

/-!
# Lexemes of scripts

A script is a row of words, operators and line ends. A quote, a substitution and a backslash
belong to the word that they stand in.
-/

namespace RepairSearch.Shell

inductive Token where
  | word (w : Word)
  | operator (text : String)
  /-- A digit directly before a redirection. -/
  | descriptor (number : Nat)
  | lineEnd
deriving Repr, Inhabited

structure Lexeme where
  token : Token
  line : Nat
deriving Repr, Inhabited

namespace Lexeme

/-- Operators, those before others that they begin with. -/
def operators : List String :=
  ["&&", "||", ";;", ">>", ">&", "<&", ">", "<", ";", "&", "|", "(", ")"]

private def operatorAt? (cs : List Char) : Option String :=
  operators.find? fun op => op.toList.isPrefixOf cs

private def isNameStart (c : Char) : Bool := c.isAlpha || c == '_'

private def isNameChar (c : Char) : Bool := c.isAlphanum || c == '_'

/-- Parameters that are named by one sign. -/
private def isSpecial (c : Char) : Bool := "@*#?$!-".toList.contains c || c.isDigit

/-- What a double quote leaves special. -/
private def isQuotedSpecial (c : Char) : Bool := "$`\"\\\n".toList.contains c

/-- The text up to the bracket that closes, which is one of several open ones, and what follows
it. Quotes hide the brackets in them. -/
private def enclosed (opening closing : Char) :
    Nat → Option Char → List Char → List Char → Option (List Char × List Char)
  | _, _, _, [] => none
  | depth, some q, seen, c :: cs =>
    if c == '\\' && q == '"' then
      match cs with
      | d :: ds => enclosed opening closing depth (some q) (d :: c :: seen) ds
      | [] => none
    else enclosed opening closing depth (if c == q then none else some q) (c :: seen) cs
  | depth, none, seen, c :: cs =>
    if c == '\\' then
      match cs with
      | d :: ds => enclosed opening closing depth none (d :: c :: seen) ds
      | [] => none
    else if c == '\'' || c == '"' then enclosed opening closing depth (some c) (c :: seen) cs
    else if c == opening then enclosed opening closing (depth + 1) none (c :: seen) cs
    else if c == closing then
      match depth with
      | 0 => some (seen.reverse, cs)
      | depth + 1 => enclosed opening closing depth none (c :: seen) cs
    else enclosed opening closing depth none (c :: seen) cs

/-- Adds a character to the pieces of a word, which are in reverse. -/
private def addChar (c : Char) (quoted : Bool) : Word → Word
  | .text s q :: rest => if q == quoted then .text (s.push c) q :: rest
      else .text (String.singleton c) quoted :: .text s q :: rest
  | rest => .text (String.singleton c) quoted :: rest

/-- Adds an empty quoted text, so that the word exists if it has nothing else. -/
private def addQuote : Word → Word
  | .text s true :: rest => .text s true :: rest
  | rest => .text "" true :: rest

/-- How a stretch of text is read. -/
private inductive Mode where
  /-- As words, up to a blank or an operator. -/
  | bare
  /-- Up to the double quote that ends it. -/
  | quoted
  /-- To the end, with expansions. -/
  | inner
deriving DecidableEq

private abbrev Read := Except SyntaxFault (Word × List Char)

mutual

/-- The pieces of a word in reverse, and what follows it. -/
private def pieces : Nat → Mode → Word → List Char → Read
  | 0, _, _, _ => .error .unexpectedEnd
  | _ + 1, mode, seen, [] =>
    if mode = .quoted then .error .unterminatedQuote else .ok (seen, [])
  | fuel + 1, mode, seen, c :: cs =>
    let quoted := mode ≠ .bare
    if c == '$' then
      match dollar fuel quoted cs with
      | .ok (found, rest) => pieces fuel mode (found ++ seen) rest
      | .error e => .error e
    else if c == '\\' then
      match cs with
      | [] => pieces fuel mode (addChar c quoted seen) []
      | d :: ds =>
        if d == '\n' then pieces fuel mode seen ds
        else if !quoted || isQuotedSpecial d then pieces fuel mode (addChar d true seen) ds
        else pieces fuel mode (addChar d true (addChar c true seen)) ds
    else
      match mode with
      | .quoted =>
        if c == '"' then .ok (seen, cs) else pieces fuel mode (addChar c true seen) cs
      | .inner => pieces fuel mode (addChar c true seen) cs
      | .bare =>
        if c == '"' then
          match pieces fuel .quoted (addQuote seen) cs with
          | .ok (seen, rest) => pieces fuel .bare seen rest
          | .error e => .error e
        else if c == '\'' then
          let content := cs.takeWhile (· != '\'')
          match cs.drop content.length with
          | _ :: rest =>
            pieces fuel .bare (content.foldl (fun w d => addChar d true w) (addQuote seen)) rest
          | [] => .error .unterminatedQuote
        else if " \t\n;&|<>()".toList.contains c then .ok (seen, c :: cs)
        else pieces fuel .bare (addChar c false seen) cs

/-- What a dollar sign begins, as pieces in reverse. -/
private def dollar : Nat → Bool → List Char → Read
  | 0, _, _ => .error .unexpectedEnd
  | fuel + 1, quoted, cs =>
    match cs with
    | '(' :: '(' :: rest =>
      match enclosed '(' ')' 1 none [] rest with
      | some (inside, after) =>
        match pieces fuel .inner [] inside.dropLast with
        | .ok (w, _) => .ok ([.arithmetic w.reverse], after)
        | .error e => .error e
      | none => .error .unexpectedEnd
    | '(' :: rest =>
      match enclosed '(' ')' 0 none [] rest with
      | some (inside, after) => .ok ([.substitution (String.ofList inside) quoted], after)
      | none => .error .unexpectedEnd
    | '\x7b' :: rest =>
      match enclosed '\x7b' '\x7d' 0 none [] rest with
      | some (inside, after) =>
        let name := inside.takeWhile isNameChar
        let name := if name.isEmpty then inside.take 1 else name
        match inside.drop name.length with
        | [] => .ok ([.parameter (String.ofList name) none quoted], after)
        | ':' :: '-' :: fallback =>
          match pieces fuel .inner [] fallback with
          | .ok (w, _) => .ok ([.parameter (String.ofList name) (some w.reverse) quoted], after)
          | .error e => .error e
        | _ => .error .badSubstitution
      | none => .error .unexpectedEnd
    | c :: rest =>
      if isNameStart c then
        let name := cs.takeWhile isNameChar
        .ok ([.parameter (String.ofList name) none quoted], cs.drop name.length)
      else if isSpecial c then .ok ([.parameter (String.singleton c) none quoted], rest)
      else .ok ([.text "$" quoted], cs)
    | [] => .ok ([.text "$" quoted], [])

end

private def newLines (cs : List Char) : Nat := cs.count '\n'

/-- The token of a word, which depends on what stands directly behind it. -/
private def tokenOf (w : Word) (rest : List Char) : Token :=
  match w, rest with
  | [.text s false], c :: _ =>
    if (c == '<' || c == '>') && s.length == 1 && s.all Char.isDigit then
      .descriptor (s.toNat?.getD 0)
    else .word w
  | _, _ => .word w

private def scan : Nat → Nat → List Char → Except SyntaxFault (List Lexeme)
  | 0, _, _ | _, _, [] => .ok []
  | fuel + 1, line, c :: cs =>
    if c == ' ' || c == '\t' then scan fuel line cs
    else if c == '\\' && cs.head? == some '\n' then scan fuel (line + 1) (cs.drop 1)
    else if c == '\n' then (scan fuel (line + 1) cs).map (⟨.lineEnd, line⟩ :: ·)
    else if c == '#' then scan fuel line (cs.dropWhile (· != '\n'))
    else
      match operatorAt? (c :: cs) with
      | some op => (scan fuel line ((c :: cs).drop op.length)).map (⟨.operator op, line⟩ :: ·)
      | none =>
        match pieces (cs.length + 2) .bare [] (c :: cs) with
        | .error e => .error e
        | .ok (w, rest) =>
          let after := line + newLines cs - newLines rest
          (scan fuel after rest).map (⟨tokenOf w.reverse rest, line⟩ :: ·)

/-- The lexemes of a text. -/
def ofText (text : String) : Except SyntaxFault (List Lexeme) :=
  scan (text.length + 1) 1 text.toList

end Lexeme

end RepairSearch.Shell
