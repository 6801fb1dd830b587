import RepairSearch.Files.Fault
import RepairSearch.Files.Path
import RepairSearch.Text.Basic

/-!
# Files

A file system is a tree of directories, files, symbolic links and special files, with a working
directory in it. A path is followed from directory to directory; a symbolic link on the way is
replaced by its target.
-/

namespace RepairSearch.Files

/-- What an entry stands for that is neither a file nor a directory: a symbolic link for a path, a
special file for a device, a pipe or a socket. -/
inductive Target where
  | path (path : String)
  | device
deriving DecidableEq, Repr, Inhabited

namespace Target

/-- The path, which is empty for a device. -/
def text : Target → String
  | path p => p
  | device => ""

instance : Coe String Target := ⟨path⟩

instance : Coe Target String := ⟨text⟩

end Target

inductive Node where
  | file (content : Text) (executable : Bool)
  | directory (entries : List (String × Node))
  | link (target : Target)
deriving Repr, Inhabited

structure System where
  root : Node
  /-- The names that lead from the root to the working directory. -/
  workingDirectory : List String
deriving Repr, Inhabited

namespace Node

/-- A special file. What stands behind it is no part of the tree, and no path leads on from it. -/
@[match_pattern] abbrev special : Node := link .device

def entries : Node → List (String × Node)
  | directory es => es
  | _ => []

/-- The node that names lead to, without following links. -/
def get? : Node → List String → Option Node
  | n, [] => some n
  | n, name :: names =>
    match n.entries.lookup name with
    | some m => m.get? names
    | none => none

/-- Puts an entry in the place of the one with its name, or behind all others. -/
def putEntry (es : List (String × Node)) (name : String) (n : Node) : List (String × Node) :=
  match es with
  | [] => [(name, n)]
  | (k, m) :: rest => if k = name then (name, n) :: rest else (k, m) :: putEntry rest name n

/-- Puts a node where names lead to. -/
def put (n : Node) : List String → Node → Node
  | [], m => m
  | name :: names, m =>
    let child := (n.entries.lookup name).getD (directory [])
    directory (putEntry n.entries name (child.put names m))

/-- Takes away the node that names lead to. -/
def erase (n : Node) : List String → Node
  | [] => directory []
  | [name] => directory (n.entries.filter (·.1 ≠ name))
  | name :: names =>
    match n.entries.lookup name with
    | some child => directory (putEntry n.entries name (child.erase names))
    | none => n

end Node

/-- A place in a file system and what stands there. -/
structure Place where
  names : List String
  node : Option Node
deriving Repr

namespace Place

/-- The absolute path of a place. -/
def path (p : Place) : String := "/" ++ "/".intercalate p.names

end Place

namespace System

def get? (fs : System) (names : List String) : Option Node := fs.root.get? names

def put (fs : System) (names : List String) (n : Node) : System :=
  { fs with root := fs.root.put names n }

def erase (fs : System) (names : List String) : System :=
  { fs with root := fs.root.erase names }

/-- The steps of a path. A slash at the end asks for a directory, as a dot does. -/
def steps (path : String) : List String :=
  let names := (Path.segments path).filter (· ≠ "")
  if Path.endsInSlash path then names ++ ["."] else names

/-- How many links a path may lead through. -/
def maxLinks : Nat := 40

/-- Follows steps from a place. The last step may lead to a name that does not exist yet. A link
there is followed only if asked for. -/
def walk (fs : System) (follow : Bool) (links : Nat) (here : List String) :
    List String → Except Fault Place
  | [] => .ok ⟨here, fs.get? here⟩
  | step :: rest =>
    match fs.get? here with
    | some (.directory es) =>
      if step = "." then walk fs follow links here rest
      else if step = ".." then walk fs follow links here.dropLast rest
      else
        match es.lookup step with
        | none => if rest.isEmpty then .ok ⟨here ++ [step], none⟩ else .error .missing
        | some (.link (.path target)) =>
          if rest.isEmpty && !follow then .ok ⟨here ++ [step], some (.link target)⟩
          else
            match links with
            | 0 => .error .tooManyLinks
            | links + 1 =>
              walk fs follow links (if Path.isAbsolute target then [] else here)
                (steps target ++ rest)
        | some _ => walk fs follow links (here ++ [step]) rest
    | _ => .error .notDirectory
termination_by rest => (links, rest.length)

def start (fs : System) (path : String) : List String :=
  if Path.isAbsolute path then [] else fs.workingDirectory

/-- The place that a path leads to, which need not exist. -/
def locate (fs : System) (follow : Bool) (path : String) : Except Fault Place :=
  if path.isEmpty then .error .missing
  else fs.walk follow maxLinks (fs.start path) (steps path)

/-- The existing place that a path leads to, links followed. -/
def find (fs : System) (path : String) : Except Fault (List String × Node) :=
  match fs.locate true path with
  | .ok ⟨names, some n⟩ => .ok (names, n)
  | .ok ⟨_, none⟩ => .error .missing
  | .error fault => .error fault

/-- The absolute path without links of an existing place. -/
def canonical (fs : System) (path : String) : Except Fault String :=
  (fs.find path).map fun (names, n) => Place.path ⟨names, some n⟩

/-- Whether a path leads to something. -/
def contains (fs : System) (path : String) : Bool := (fs.find path).toOption.isSome

def isDirectory (fs : System) (path : String) : Bool :=
  match fs.find path with
  | .ok (_, .directory _) => true
  | _ => false

def read (fs : System) (path : String) : Except Fault Text :=
  match fs.find path with
  | .ok (_, .file content _) => .ok content
  | .ok (_, .directory _) => .error .isDirectory
  | .ok (_, .link _) => .error .noDevice
  | .error fault => .error fault

/-- The content of a file as characters. -/
def readString (fs : System) (path : String) : Except Fault String :=
  match fs.read path with
  | .ok content =>
    match content.toString? with
    | some s => .ok s
    | none => .error .notText
  | .error fault => .error fault

/-- Makes a file of what `content` says about the content it has, or leaves the file system as it
is. A new file is executable if asked for, an old one stays what it is. -/
def update (fs : System) (path : String) (content : Text → Text) (executable : Bool) :
    Except Fault System :=
  match fs.locate true path with
  | .ok ⟨names, some (.file old x)⟩ => .ok (fs.put names (.file (content old) x))
  | .ok ⟨names, none⟩ => .ok (fs.put names (.file (content []) executable))
  | .ok ⟨_, some (.directory _)⟩ => .error .isDirectory
  | .ok ⟨_, some (.link _)⟩ => .error .noDevice
  | .error fault => .error fault

def write (fs : System) (path : String) (content : Text) : Except Fault System :=
  fs.update path (fun _ => content) false

def append (fs : System) (path : String) (content : Text) : Except Fault System :=
  fs.update path (· ++ content) false

/-- Makes one directory, whose parent has to exist. -/
def makeDirectory (fs : System) (path : String) : Except Fault System :=
  let named := (steps path).reverse.dropWhile (· = ".") |>.reverse
  if path.isEmpty then .error .missing
  else
    match fs.walk false maxLinks (fs.start path) named with
    | .ok ⟨names, none⟩ => .ok (fs.put names (.directory []))
    | .ok _ => .error .alreadyThere
    | .error fault => .error fault

/-- Makes a directory and the ones above it that are missing. What was made stays made if a later
step fails. -/
def makeDirectories (fs : System) (path : String) : Except Fault Unit × System :=
  go (path.length + 1) fs path
where
  go : Nat → System → String → Except Fault Unit × System
    | 0, fs, _ => (.error .missing, fs)
    | depth + 1, fs, path =>
      if path.isEmpty then (.ok (), fs)
      else
        match fs.makeDirectory path with
        | .ok fs => (.ok (), fs)
        | .error fault =>
          if fault ≠ .missing then
            if fs.isDirectory path then (.ok (), fs) else (.error fault, fs)
          else
            match Path.parent? path with
            | none => (.error .missing, fs)
            | some parent =>
              match go depth fs parent with
              | (.error fault, fs) => (.error fault, fs)
              | (.ok (), fs) =>
                match fs.makeDirectory path with
                | .ok fs => (.ok (), fs)
                | .error fault => if fs.isDirectory path then (.ok (), fs) else (.error fault, fs)

end System

end RepairSearch.Files
