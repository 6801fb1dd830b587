import RepairSearch.Shell.Lexeme

/-!
# Reading scripts

The lexemes of a text as a script. Reserved words count only where a command may begin.
-/

namespace RepairSearch.Shell

namespace Reader

private abbrev Parse := Except SyntaxFault (Script × List Lexeme)

/-- The text of a word without quotes and expansions. -/
private def bare? (l : Lexeme) : Option String :=
  match l.token with
  | .word [.text s false] => some s
  | _ => none

private def isBare (l : Lexeme) (text : String) : Bool := bare? l == some text

private def isOperator (l : Lexeme) (text : String) : Bool :=
  match l.token with
  | .operator op => op == text
  | _ => false

private def isLineEnd (l : Lexeme) : Bool :=
  match l.token with
  | .lineEnd => true
  | _ => false

/-- Whether a lexeme ends the list that it stands behind. -/
private def isCloser (l : Lexeme) : Bool :=
  isOperator l ")" || isOperator l ";;"
    || ["then", "elif", "else", "fi", "do", "done", "\x7d"].any (isBare l)

private def skipLineEnds (ls : List Lexeme) : List Lexeme := ls.dropWhile isLineEnd

private def textOf (l : Lexeme) : String :=
  match l.token with
  | .operator op => op
  | .lineEnd => "newline"
  | .descriptor n => toString n
  | .word _ => (bare? l).getD "word"

private def unexpected (ls : List Lexeme) : SyntaxFault :=
  match ls with
  | [] => .unexpectedEnd
  | l :: _ => .unexpected (textOf l)

/-- Takes a reserved word. -/
private def expect (word : String) (ls : List Lexeme) : Except SyntaxFault (List Lexeme) :=
  match ls with
  | l :: rest => if isBare l word then .ok rest else .error (unexpected ls)
  | [] => .error .unexpectedEnd

private def isName (s : String) : Bool :=
  match s.toList with
  | c :: cs => (c.isAlpha || c == '_') && cs.all fun d => d.isAlphanum || d == '_'
  | [] => false

/-- A word that begins with a name and an equals sign. -/
private def assignment? (w : Word) : Option (String × Word) :=
  match w with
  | .text s false :: rest =>
    let name := String.ofList (s.toList.takeWhile (· != '='))
    if isName name && name.length < s.length then
      some (name, .text (String.ofList (s.toList.drop (name.length + 1))) false :: rest)
    else none
  | _ => none

/-- The redirection that an operator and its target make. -/
private def redirection? (descriptor : Option Nat) (op : String) (target : Word) :
    Option Redirection :=
  match op with
  | ">" => some (.toFile (descriptor.getD 1) false target)
  | ">>" => some (.toFile (descriptor.getD 1) true target)
  | "<" => some (.fromFile target)
  | ">&" | "<&" =>
    match target with
    | [.text s _] => s.toNat?.map fun n => .copy (descriptor.getD 1) n
    | _ => none
  | _ => none

/-- A redirection at the start of a row of lexemes. -/
private def takeRedirection? (ls : List Lexeme) : Option (Redirection × List Lexeme) :=
  match ls with
  | ⟨.descriptor n, _⟩ :: ⟨.operator op, _⟩ :: ⟨.word w, _⟩ :: rest =>
    (redirection? (some n) op w).map (·, rest)
  | ⟨.operator op, _⟩ :: ⟨.word w, _⟩ :: rest => (redirection? none op w).map (·, rest)
  | _ => none

private structure Parts where
  assignments : List (String × Word) := []
  words : List Word := []
  redirections : List Redirection := []

private def simpleParts : Nat → List Lexeme → Parts × List Lexeme
  | 0, ls => ({}, ls)
  | fuel + 1, ls =>
    match takeRedirection? ls, ls with
    | some (r, rest), _ =>
      let (parts, rest) := simpleParts fuel rest
      ({ parts with redirections := r :: parts.redirections }, rest)
    | none, ⟨.word w, _⟩ :: rest =>
      let (parts, rest) := simpleParts fuel rest
      ({ parts with words := w :: parts.words }, rest)
    | none, _ => ({}, ls)

/-- Takes the assignments that a command begins with out of its words. -/
private def splitAssignments : List Word → List (String × Word) × List Word
  | [] => ([], [])
  | w :: ws =>
    match assignment? w with
    | some a => let (as, rest) := splitAssignments ws; (a :: as, rest)
    | none => ([], w :: ws)

private def simpleCommand (ls : List Lexeme) : Parse :=
  let (parts, rest) := simpleParts ls.length ls
  if parts.words.isEmpty && parts.redirections.isEmpty then .error (unexpected ls)
  else
    let (assignments, words) := splitAssignments parts.words
    let line := (ls.head?.map (·.line)).getD 1
    .ok (.simple line assignments words parts.redirections, rest)

private def redirections : Nat → List Lexeme → List Redirection × List Lexeme
  | 0, ls => ([], ls)
  | fuel + 1, ls =>
    match takeRedirection? ls with
    | some (r, rest) => let (rs, rest) := redirections fuel rest; (r :: rs, rest)
    | none => ([], ls)

/-- Adds the redirections that follow a compound command. -/
private def withRedirections (c : Script) (ls : List Lexeme) : Script × List Lexeme :=
  match redirections ls.length ls with
  | ([], rest) => (c, rest)
  | (rs, rest) => (.redirected c rs, rest)

private def loopWords : List Lexeme → List Word × List Lexeme
  | ⟨.word w, _⟩ :: rest => let (ws, rest) := loopWords rest; (w :: ws, rest)
  | ls => ([], ls)

/-- Takes what ends the head of a loop over words. -/
private def skipSeparator (ls : List Lexeme) : List Lexeme :=
  match ls with
  | l :: rest => skipLineEnds (if isOperator l ";" then rest else ls)
  | [] => []

mutual

private def list : Nat → List Lexeme → Parse
  | 0, ls => .error (unexpected ls)
  | fuel + 1, ls =>
    match skipLineEnds ls with
    | [] => .ok (.nothing, [])
    | l :: ls =>
      if isCloser l then .ok (.nothing, l :: ls)
      else do
        let (c, rest) ← andOr fuel (l :: ls)
        match rest with
        | [] => .ok (c, [])
        | s :: after =>
          if isOperator s ";" || isOperator s "&" || isLineEnd s then do
            let (d, rest) ← list fuel after
            .ok (.sequence c d, rest)
          else if isCloser s then .ok (c, rest)
          else .error (unexpected rest)

private def andOr : Nat → List Lexeme → Parse
  | 0, ls => .error (unexpected ls)
  | fuel + 1, ls => do
    let (c, rest) ← pipeline fuel ls
    andOrRest fuel c rest

private def andOrRest : Nat → Script → List Lexeme → Parse
  | 0, _, ls => .error (unexpected ls)
  | fuel + 1, c, ls =>
    match ls with
    | l :: rest =>
      if isOperator l "&&" then do
        let (d, rest) ← pipeline fuel (skipLineEnds rest)
        andOrRest fuel (.both c d) rest
      else if isOperator l "||" then do
        let (d, rest) ← pipeline fuel (skipLineEnds rest)
        andOrRest fuel (.either c d) rest
      else .ok (c, ls)
    | [] => .ok (c, [])

private def pipeline : Nat → List Lexeme → Parse
  | 0, ls => .error (unexpected ls)
  | fuel + 1, ls =>
    match ls with
    | l :: rest =>
      if isBare l "!" then do
        let (c, rest) ← pipeline fuel rest
        .ok (.negation c, rest)
      else do
        let (c, rest) ← compound fuel ls
        pipelineRest fuel c rest
    | [] => .error .unexpectedEnd

private def pipelineRest : Nat → Script → List Lexeme → Parse
  | 0, _, ls => .error (unexpected ls)
  | fuel + 1, c, ls =>
    match ls with
    | l :: rest =>
      if isOperator l "|" then do
        let (d, rest) ← compound fuel (skipLineEnds rest)
        pipelineRest fuel (.pipe c d) rest
      else .ok (c, ls)
    | [] => .ok (c, [])

private def compound : Nat → List Lexeme → Parse
  | 0, ls => .error (unexpected ls)
  | fuel + 1, ls =>
    match ls with
    | [] => .error .unexpectedEnd
    | l :: rest =>
      if isOperator l "(" then do
        let (c, rest) ← list fuel rest
        match rest with
        | close :: rest =>
          if isOperator close ")" then .ok (withRedirections (.subshell c) rest)
          else .error (unexpected (close :: rest))
        | [] => .error .unexpectedEnd
      else
        match bare? l with
        | some "\x7b" => do
          let (c, rest) ← list fuel rest
          let rest ← expect "\x7d" rest
          .ok (withRedirections c rest)
        | some "if" => choice fuel rest
        | some "while" => loop fuel true rest
        | some "until" => loop fuel false rest
        | some "for" => each fuel rest
        | _ => if isCloser l then .error (unexpected ls) else simpleCommand ls

/-- What follows the word that begins a choice. -/
private def choice : Nat → List Lexeme → Parse
  | 0, ls => .error (unexpected ls)
  | fuel + 1, ls => do
    let (condition, rest) ← list fuel ls
    let (yes, rest) ← list fuel (← expect "then" rest)
    match rest with
    | [] => .error .unexpectedEnd
    | l :: after =>
      if isBare l "elif" then do
        let (no, rest) ← choice fuel after
        .ok (.choice condition yes no, rest)
      else if isBare l "else" then do
        let (no, rest) ← list fuel after
        .ok (withRedirections (.choice condition yes no) (← expect "fi" rest))
      else .ok (withRedirections (.choice condition yes .nothing) (← expect "fi" rest))

/-- What follows the word that begins a loop with a condition. -/
private def loop : Nat → Bool → List Lexeme → Parse
  | 0, _, ls => .error (unexpected ls)
  | fuel + 1, whileTrue, ls => do
    let (condition, rest) ← list fuel ls
    let (body, rest) ← list fuel (← expect "do" rest)
    .ok (withRedirections (.loop whileTrue condition body) (← expect "done" rest))

/-- What follows the word that begins a loop over words. -/
private def each : Nat → List Lexeme → Parse
  | 0, ls => .error (unexpected ls)
  | fuel + 1, ls =>
    match ls with
    | [] => .error .unexpectedEnd
    | l :: rest =>
      match bare? l with
      | none => .error (unexpected ls)
      | some name => do
        let rest := skipLineEnds rest
        let (words, rest) :=
          match rest with
          | l :: after =>
            if isBare l "in" then
              let (ws, rest) := loopWords after
              (some ws, rest)
            else (none, rest)
          | [] => (none, [])
        let (body, rest) ← list fuel (← expect "do" (skipSeparator rest))
        .ok (withRedirections (.each name words body) (← expect "done" rest))

end

/-- The script that all of some lexemes make. -/
def script (ls : List Lexeme) : Except SyntaxFault Script := do
  let (c, rest) ← list (8 * ls.length + 8) ls
  if rest.isEmpty then .ok c else .error (unexpected rest)

end Reader

/-- The script that a text holds. -/
def Script.ofText (text : String) : Except SyntaxFault Script := do
  Reader.script (← Lexeme.ofText text)

end RepairSearch.Shell
