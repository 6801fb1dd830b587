import RepairSearch.Document.Set
import RepairSearch.Project.Copy

/-!
# Source files

Source paths stand for files of supported languages. A file is taken as it is given. A directory
stands for the supported files below it in the order of their paths, without what a project leaves
out and without what lies behind links. A file that several paths lead to counts where it comes
first.
-/

namespace RepairSearch.Project

open Files

structure SourceFile where
  /-- Absolute and without links. -/
  path : String
  /-- The dotted name under which coverage knows the file. -/
  package : String
  language : Language
deriving DecidableEq, Repr

/-- The supported files among entries and below them, as the names that lead to them. -/
def filesAmong (names : List String) : List (String × Node) → List (List String)
  | [] => []
  | (name, n) :: rest =>
    let here :=
      if isSkipped name then []
      else
        match n with
        | .directory es => filesAmong (names ++ [name]) es
        | .file _ _ => if (Language.ofPath? name).isSome then [names ++ [name]] else []
        | .link (.path _) => []
        | .special => []
    here ++ filesAmong names rest

/-- The first entry of a walk whose name encodes no characters, by the names that lead to it. -/
def unnamedAmong? (names : List String) : List (String × Node) → Option (List String)
  | [] => none
  | (name, n) :: rest =>
    let here :=
      if !Name.isText name then some (names ++ [name])
      else if isSkipped name then none
      else
        match n with
        | .directory es => unnamedAmong? (names ++ [name]) es
        | _ => none
    match here with
    | some found => some found
    | none => unnamedAmong? names rest

/-- Paths are ordered name by name. -/
def namesLE : List String → List String → Bool
  | [], _ => true
  | _ :: _, [] => false
  | a :: as, b :: bs => a < b || (a == b && namesLE as bs)

/-- The dotted name of a file below a directory. -/
def packageOf (relative : List String) : String :=
  let bare := Path.withExtension ("/".intercalate relative) ""
  ".".intercalate ((Path.components bare).map (·.text))

/-- A file with the language that its name tells. -/
def sourceFile (path package : String) : Except RepairError SourceFile :=
  match Language.ofPath? path with
  | some language => .ok ⟨path, package, language⟩
  | none => .error (.unsupportedLanguage path)

/-- The files that one source path stands for. All names on the way to them have to encode
characters. -/
def expand (fs : System) (path : String) : Except RepairError (List SourceFile) :=
  match fs.find path with
  | .error fault => .error (.io path fault)
  | .ok (names, n) =>
    let place := Place.path ⟨names, some n⟩
    if !names.all Name.isText then
      .error (.setup ("source path is not valid UTF-8: " ++ Name.shownPath place))
    else
      match n with
      | .directory es =>
        match unnamedAmong? names es with
        | some entry =>
          .error (.io (Place.path ⟨entry.dropLast, none⟩) (.notTextPath (Place.path ⟨entry, none⟩)))
        | none =>
          ((filesAmong [] es).mergeSort namesLE).mapM fun relative =>
            sourceFile (Place.path ⟨names ++ relative, none⟩) (packageOf relative)
      | _ => (sourceFile place ((Path.stem? place).getD "")).map fun f => [f]

/-- Of files with the same path, only the first. -/
def distinct : List SourceFile → List SourceFile
  | [] => []
  | f :: fs => f :: (distinct fs).filter (·.path ≠ f.path)

/-- The files that several source paths stand for. -/
def discover (fs : System) (paths : List String) : Except RepairError (List SourceFile) :=
  (paths.mapM (expand fs)).map fun found => distinct found.flatten

def load (fs : System) (file : SourceFile) : Except RepairError Document :=
  match fs.readString file.path with
  | .ok text => .ok (Document.ofText file.path file.package file.language (Text.ofString text))
  | .error fault => .error (.io file.path fault)

def loadAll (fs : System) (files : List SourceFile) : Except RepairError DocumentSet :=
  (files.mapM (load fs)).map fun ds => ⟨ds⟩

/-- Files and directories that mark the root of a project. -/
def markers : List String :=
  ["pyproject.toml", "setup.py", "setup.cfg", "package.json", "Cargo.toml", "go.mod", ".git"]

/-- The nearest directory with a marker, from a directory upwards. -/
def markedAbove (fs : System) : Nat → String → Option String
  | 0, _ => none
  | depth + 1, dir =>
    if markers.any fun m => fs.contains (Path.join dir m) then some dir
    else
      match Path.parent? dir with
      | some parent => if parent = dir then none else markedAbove fs depth parent
      | none => none

/-- The root of the project that a source belongs to: the nearest directory above it with a
marker, or else the directory that it is in. -/
def rootOf (fs : System) (source : String) : String :=
  let start := if fs.isDirectory source then source else (Path.parent? source).getD source
  (markedAbove fs (start.length + 1) start).getD start

end RepairSearch.Project
