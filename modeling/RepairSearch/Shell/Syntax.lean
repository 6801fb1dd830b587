/-!
# Shell scripts

The scripts of a shell: words with expansions in them, redirections, lists, pipelines and the
usual control structures. Words are split into fields, but they are not matched with file names.
-/

namespace RepairSearch.Shell

/-- A part of a word. What quotes enclose is not split into fields. -/
inductive Piece where
  | text (content : String) (quoted : Bool)
  /-- The value of a variable or parameter. The words of `fallback` stand in for an empty one. -/
  | parameter (name : String) (fallback : Option (List Piece)) (quoted : Bool)
  /-- The output of a script. -/
  | substitution (script : String) (quoted : Bool)
  | arithmetic (expression : List Piece)
deriving Repr, Inhabited

abbrev Word := List Piece

inductive Redirection where
  /-- Output goes to a file, behind what the file holds already or in its place. -/
  | toFile (descriptor : Nat) (append : Bool) (target : Word)
  | fromFile (source : Word)
  /-- One descriptor becomes what another one is. -/
  | copy (descriptor source : Nat)
deriving Repr, Inhabited

inductive Script where
  | nothing
  | simple (line : Nat) (assignments : List (String × Word)) (words : List Word)
      (redirections : List Redirection)
  | sequence (first second : Script)
  | both (first second : Script)
  | either (first second : Script)
  | pipe (source target : Script)
  | negation (script : Script)
  /-- A loop that goes on as long as its condition succeeds, or as long as it fails. -/
  | loop (whileTrue : Bool) (condition body : Script)
  /-- A loop over words, or over the parameters if there are no words. -/
  | each (name : String) (words : Option (List Word)) (body : Script)
  | choice (condition yes no : Script)
  | subshell (body : Script)
  | redirected (script : Script) (redirections : List Redirection)
deriving Repr, Inhabited

/-- Why a text is no script. -/
inductive SyntaxFault where
  | unterminatedQuote
  | badSubstitution
  | unexpected (text : String)
  | unexpectedEnd
deriving DecidableEq, Repr

def SyntaxFault.message : SyntaxFault → String
  | unterminatedQuote => "Syntax error: Unterminated quoted string"
  | badSubstitution => "Syntax error: Bad substitution"
  | unexpected text => "Syntax error: \"" ++ text ++ "\" unexpected"
  | unexpectedEnd => "Syntax error: end of file unexpected"

end RepairSearch.Shell
