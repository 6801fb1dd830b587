/-!
# Paths

A path is text with slashes. Its components leave out empty parts and single dots, except a dot
at the beginning of a relative path.
-/

namespace RepairSearch.Path

inductive Component where
  | root
  | current
  | parent
  | name (text : String)
deriving DecidableEq, Repr

def Component.text : Component → String
  | root => "/"
  | current => "."
  | parent => ".."
  | name s => s

def componentOf? (part : String) : Option Component :=
  if part == "" || part == "." then none
  else if part == ".." then some .parent
  else some (.name part)

/-- What stands between slashes. -/
def segments (path : String) : List String := (path.toList.splitOn '/').map String.ofList

def isAbsolute (path : String) : Bool := path.startsWith '/'

def endsInSlash (path : String) : Bool := path.toList.getLast? == some '/'

def components (path : String) : List Component :=
  let body := (segments path).filterMap componentOf?
  if isAbsolute path then .root :: body
  else if (segments path).head? == some "." then .current :: body
  else body

/-- The last component, where it is a name. -/
def fileName? (path : String) : Option String :=
  match (components path).getLast? with
  | some (.name s) => some s
  | _ => none

/-- A file name cut at its last dot; a dot at its beginning does not count. -/
def cutName (file : String) : String × Option String :=
  let chars := file.toList
  let after := chars.reverse.takeWhile (· != '.')
  let before := chars.take (chars.length - after.length - 1)
  if file == ".." || after.length == chars.length || before.isEmpty then (file, none)
  else (String.ofList before, some (String.ofList after.reverse))

def extension? (path : String) : Option String := (fileName? path).bind fun f => (cutName f).2

/-- The file name without its extension. -/
def stem? (path : String) : Option String := (fileName? path).map fun f => (cutName f).1

/-- A path below another; an absolute path stands for itself. -/
def join (base path : String) : String :=
  if isAbsolute path || base.isEmpty then path
  else if endsInSlash base then base ++ path
  else base ++ "/" ++ path

/-- The segments after the slash that begins an absolute path. -/
def parts (path : String) : List String :=
  if isAbsolute path then (segments path).tail else segments path

def isFiller (part : String) : Bool := part == "" || part == "."

/-- Parts without fillers at the end; a dot that begins a relative path is none. -/
def trimEnd (absolute : Bool) (ps : List String) : List String :=
  match ps with
  | [] => []
  | p :: rest =>
    let kept := (rest.reverse.dropWhile isFiller).reverse
    if kept.isEmpty && (p == "" || (absolute && p == ".")) then [] else p :: kept

def ofParts (absolute : Bool) (ps : List String) : String :=
  (if absolute then "/" else "") ++ "/".intercalate ps

/-- The path without its last component, if it has one that is not the root. -/
def parent? (path : String) : Option String :=
  let absolute := isAbsolute path
  match trimEnd absolute (parts path) with
  | [] => none
  | p :: ps => some (ofParts absolute (trimEnd absolute (p :: ps).dropLast))

/-- What is left of some parts after components, without fillers at its start. -/
def afterComponents : List Component → List String → Option (List String)
  | [], ps => some (ps.dropWhile isFiller)
  | c :: cs, ps =>
    match ps.dropWhile isFiller with
    | [] => none
    | p :: rest => if componentOf? p == some c then afterComponents cs rest else none

/-- The path of a file relative to a directory above it. -/
def relativeTo? (base path : String) : Option String :=
  match components base, components path with
  | [], _ => some path
  | .root :: cs, .root :: _ =>
    (afterComponents cs (parts path)).map fun ps => ofParts false (trimEnd true ps)
  | .current :: cs, .current :: _ =>
    (afterComponents cs ((parts path).drop 1)).map fun ps => ofParts false (trimEnd true ps)
  | .root :: _, _ | _, .root :: _ | .current :: _, _ | _, .current :: _ => none
  | cs, _ => (afterComponents cs (parts path)).map fun ps => ofParts false (trimEnd true ps)

/-- The path with another extension in the place of the one of its file name, or with none; a path
without a file name stays as it is. -/
def withExtension (path extension : String) : String :=
  match stem? path with
  | none => path
  | some stem =>
    let absolute := isAbsolute path
    let file := if extension.isEmpty then stem else stem ++ "." ++ extension
    ofParts absolute ((trimEnd absolute (parts path)).dropLast ++ [file])

end RepairSearch.Path
