import RepairSearch.Files.System
import RepairSearch.Text.Line
import RepairSearch.Text.Pattern

/-!
# Tools

Programs that read arguments, input and files and write text. A tool ends with a status, which is
zero if it succeeds.
-/

namespace RepairSearch.Shell

open Files

/-- What a run of a tool leaves. -/
structure Report where
  output : Text
  errors : Text
  status : Nat
deriving Repr

namespace Report

def ofStatus (status : Nat) : Report := ⟨[], [], status⟩

def ofOutput (output : Text) : Report := ⟨output, [], 0⟩

def ofString (s : String) : Report := ofOutput (Text.ofString s)

def failure (status : Nat) (message : String) : Report :=
  ⟨[], Text.ofString (message ++ "\n"), status⟩

end Report

/-- A tool is given its arguments, its input and the file system. -/
abbrev Tool := List String → Text → System → Report

namespace Tool

private def isOctal (c : Char) : Bool := '0' ≤ c && c ≤ '7'

private def octalValue (cs : List Char) : Nat := cs.foldl (fun n c => n * 8 + (c.toNat - 48)) 0

/-- The character that a letter behind a backslash stands for. -/
private def escapes : List (Char × Char) :=
  [('n', '\n'), ('t', '\t'), ('r', '\r'), ('\\', '\\'), ('a', '\x07'), ('b', '\x08'),
    ('f', '\x0c'), ('v', '\x0b')]

/-- Bytes for a text with escapes. An octal number of three digits, or of four that begin with
zero, is a byte. -/
def unescaped : Nat → List Char → Text
  | 0, _ | _, [] => []
  | fuel + 1, '\\' :: c :: cs =>
    if isOctal c then
      let digits := (c :: cs).take (if c == '0' then 4 else 3) |>.takeWhile isOctal
      UInt8.ofNat (octalValue digits) :: unescaped fuel ((c :: cs).drop digits.length)
    else
      match escapes.lookup c with
      | some d => Text.ofString (String.singleton d) ++ unescaped fuel cs
      | none => Text.ofString (String.ofList ['\\', c]) ++ unescaped fuel cs
  | fuel + 1, c :: cs => Text.ofString (String.singleton c) ++ unescaped fuel cs

private def bytesOf (s : String) : Text := unescaped (s.length + 1) s.toList

def echo : Tool := fun arguments _ _ =>
  match arguments with
  | "-n" :: words => .ofOutput (bytesOf (" ".intercalate words))
  | words => .ofOutput (bytesOf (" ".intercalate words) ++ [Text.newline])

/-- One pass over a format: its bytes and the arguments that it has left. -/
private def formatted : Nat → List Char → List String → Text × List String
  | 0, _, arguments | _, [], arguments => ([], arguments)
  | fuel + 1, '%' :: c :: cs, arguments =>
    let argument := arguments.head?.getD ""
    let (piece, arguments) : Text × List String :=
      match c with
      | '%' => ([37], arguments)
      | 's' => (Text.ofString argument, arguments.drop 1)
      | 'b' => (bytesOf argument, arguments.drop 1)
      | 'd' | 'i' | 'u' =>
        (Text.ofString (toString (argument.toInt?.getD 0)), arguments.drop 1)
      | _ => (Text.ofString (String.ofList ['%', c]), arguments)
    let (rest, arguments) := formatted fuel cs arguments
    (piece ++ rest, arguments)
  | fuel + 1, '\\' :: c :: cs, arguments =>
    let escape := '\\' :: c :: (if isOctal c then (cs.take 2).takeWhile isOctal else [])
    let (rest, arguments) := formatted fuel (('\\' :: c :: cs).drop escape.length) arguments
    (unescaped (escape.length + 1) escape ++ rest, arguments)
  | fuel + 1, c :: cs, arguments =>
    let (rest, arguments) := formatted fuel cs arguments
    (Text.ofString (String.singleton c) ++ rest, arguments)

/-- Uses a format as often as it takes arguments. -/
private def formattedAll (format : List Char) : Nat → List String → Text
  | 0, _ => []
  | fuel + 1, arguments =>
    let (piece, rest) := formatted (format.length + 1) format arguments
    if rest.isEmpty || rest.length = arguments.length then piece
    else piece ++ formattedAll format fuel rest

def printf : Tool := fun arguments _ _ =>
  match arguments with
  | format :: rest => .ofOutput (formattedAll format.toList (rest.length + 1) rest)
  | [] => .failure 2 "printf: usage: printf format [arg ...]"

private def complaint (tool path : String) (fault : Fault) : Text :=
  Text.ofString (tool ++ ": " ++ path ++ ": " ++ fault.description ++ "\n")

/-- Reads a file for a tool; a dash is the input. -/
private def readFor (input : Text) (fs : System) (path : String) : Except Fault Text :=
  if path = "-" then .ok input else fs.read path

def cat : Tool := fun arguments input fs =>
  (if arguments.isEmpty then ["-"] else arguments).foldl (fun r path =>
    match readFor input fs path with
    | .ok t => { r with output := r.output ++ t }
    | .error fault => { r with errors := r.errors ++ complaint "cat" path fault, status := 1 })
    (.ofStatus 0)

def pwd : Tool := fun _ _ fs => .ofString (Place.path ⟨fs.workingDirectory, none⟩ ++ "\n")

/-- The lines of a text, and whether the last one ends with a line break. -/
private def endedLines (t : Text) : List String × Bool :=
  let ls := t.lines
  let ended := ls.getLast?.any (·.isEmpty)
  ((if ended then ls.dropLast else ls).map Text.toString, ended)

private structure GrepOptions where
  letters : List Char
  words : List String

/-- Takes options in front of other arguments. -/
private def grepOptions : List String → GrepOptions
  | [] => ⟨[], []⟩
  | a :: rest =>
    if a = "--" then ⟨[], rest⟩
    else if a.startsWith "-" && 1 < a.length then
      let o := grepOptions rest
      ⟨a.toList.drop 1 ++ o.letters, o.words⟩
    else ⟨[], a :: rest⟩

/-- The report on one file. -/
private def grepFile (o : GrepOptions) (p : Pattern) (label : String) (t : Text) :
    Bool × Text :=
  let hits := (endedLines t).1.filter fun l => p.occursIn l != o.letters.contains 'v'
  let shown :=
    if o.letters.contains 'q' then []
    else if o.letters.contains 'c' then [toString hits.length]
    else hits
  (!hits.isEmpty, Text.ofString (String.join (shown.map fun l => label ++ l ++ "\n")))

/-- Prints the lines that hold a pattern. The status is one if there are none and two if a file
cannot be read. -/
def grep : Tool := fun arguments input fs =>
  let o := grepOptions arguments
  match o.words with
  | [] => .failure 2 "Usage: grep [OPTION]... PATTERNS [FILE]..."
  | pattern :: paths =>
    let p := if o.letters.contains 'F' then Pattern.literal pattern else Pattern.ofString pattern
    let paths' := if paths.isEmpty then ["-"] else paths
    let (found, r) := paths'.foldl (fun (found, r) path =>
      match readFor input fs path with
      | .ok t =>
        let (hit, text) := grepFile o p (if 1 < paths.length then path ++ ":" else "") t
        (found || hit, { r with output := r.output ++ text })
      | .error fault =>
        (found, { r with errors := r.errors ++ complaint "grep" path fault, status := 2 }))
      (false, Report.ofStatus 0)
    if found && (o.letters.contains 'q' || r.status = 0) then { r with status := 0 }
    else if r.status = 0 then { r with status := 1 }
    else r

/-- A command that replaces: its pattern, its replacement and whether it replaces everywhere. -/
private structure Substitution where
  pattern : Pattern
  replacement : List Char
  everywhere : Bool

/-- The parts between delimiters; a backslash hides a delimiter. -/
private def delimited (d : Char) : List Char → List (List Char)
  | [] => [[]]
  | '\\' :: c :: cs =>
    match delimited d cs with
    | p :: ps => (if c == d then c :: p else '\\' :: c :: p) :: ps
    | [] => [['\\', c]]
  | c :: cs =>
    if c == d then [] :: delimited d cs
    else
      match delimited d cs with
      | p :: ps => (c :: p) :: ps
      | [] => [[c]]

private def substitution? (script : String) : Option Substitution :=
  match script.toList with
  | 's' :: d :: rest =>
    match delimited d rest with
    | [pattern, replacement, flags] =>
      some ⟨Pattern.ofString (String.ofList pattern), replacement, flags.contains 'g'⟩
    | _ => none
  | _ => none

/-- The text that replaces a match, which an ampersand stands for. -/
private def replacementOf (found : List Char) : List Char → List Char
  | [] => []
  | '\\' :: 'n' :: cs => '\n' :: replacementOf found cs
  | '\\' :: c :: cs => c :: replacementOf found cs
  | '&' :: cs => found ++ replacementOf found cs
  | c :: cs => c :: replacementOf found cs

def sed : Tool := fun arguments input fs =>
  match arguments.dropWhile (· = "-e") with
  | [] => .failure 1 "Usage: sed [OPTION]... \x7bscript-only-if-no-other-script\x7d [input-file]..."
  | script :: paths =>
    match substitution? script with
    | none => .failure 1 "sed: -e expression #1, char 1: unknown command"
    | some s =>
      (if paths.isEmpty then ["-"] else paths).foldl (fun r path =>
        match readFor input fs path with
        | .ok t =>
          let (ls, ended) := endedLines t
          let replaced := ls.map (s.pattern.replace s.everywhere (replacementOf · s.replacement))
          let text := "\n".intercalate replaced ++ if ended && !ls.isEmpty then "\n" else ""
          { r with output := r.output ++ Text.ofString text }
        | .error fault =>
          { r with
            errors := r.errors ++ Text.ofString
              ("sed: can't read " ++ path ++ ": " ++ fault.description ++ "\n")
            status := 2 }) (.ofStatus 0)

/-- Whether something stands at a path and passes a check. -/
private def exists? (fs : System) (path : String) (check : Node → Bool) : Bool :=
  match fs.find path with
  | .ok (_, n) => check n
  | .error _ => false

private def isFile : Node → Bool
  | .file _ _ => true
  | _ => false

private def unary? (fs : System) (op s : String) : Option Bool :=
  match op with
  | "-n" => some !s.isEmpty
  | "-z" => some s.isEmpty
  | "-e" | "-r" | "-w" => some (exists? fs s fun _ => true)
  | "-f" => some (exists? fs s isFile)
  | "-d" => some (fs.isDirectory s)
  | "-s" => some (exists? fs s fun n =>
      match n with | .file t _ => !t.isEmpty | .directory _ => true | .link _ => false)
  | "-x" => some (exists? fs s fun n =>
      match n with | .file _ x => x | .directory _ => true | .link _ => false)
  | "-L" | "-h" => some (
      match fs.locate false s with | .ok ⟨_, some (.link (.path _))⟩ => true | _ => false)
  | _ => none

private def compared? (op a b : String) : Option Bool :=
  match op, a.trimAscii.toInt?, b.trimAscii.toInt? with
  | "=", _, _ | "==", _, _ => some (a = b)
  | "!=", _, _ => some (a ≠ b)
  | "-eq", some x, some y => some (x = y)
  | "-ne", some x, some y => some (x ≠ y)
  | "-lt", some x, some y => some (x < y)
  | "-le", some x, some y => some (x ≤ y)
  | "-gt", some x, some y => some (y < x)
  | "-ge", some x, some y => some (y ≤ x)
  | _, _, _ => none

/-- What an expression says, if it is one. -/
private def expression? (fs : System) : List String → Option Bool
  | [] => some false
  | [s] => some !s.isEmpty
  | ["!", s] => some s.isEmpty
  | [op, s] => unary? fs op s
  | [a, op, b] =>
    match compared? op a b with
    | some r => some r
    | none => if a = "!" then (unary? fs op b).map (!·) else none
  | "!" :: rest => (expression? fs rest).map (!·)
  | _ => none

def test : Tool := fun arguments _ fs =>
  match expression? fs arguments with
  | some true => .ofStatus 0
  | some false => .ofStatus 1
  | none => .failure 2 ("sh: 1: test: " ++ (arguments.head?.getD "") ++ ": unexpected operator")

/-- A test that ends with a bracket. -/
def bracket : Tool := fun arguments input fs =>
  if arguments.getLast? = some "]" then test arguments.dropLast input fs
  else .failure 2 "sh: 1: [: missing ]"

end Tool

end RepairSearch.Shell
