import RepairSearch.Document.Set
import RepairSearch.Files.System

/-!
# Snapshots

A snapshot holds the current texts of documents, each where its package says: the parts of a
dotted name are directories, and the file has the extension of the document.
-/

namespace RepairSearch.Project

open Files

/-- Where the text of a document goes below a directory. -/
def snapshotPath (directory : String) (d : Document) : String :=
  let dotted := String.ofList (d.package.toList.map fun c => if c = '.' then '/' else c)
  let target := Path.join directory dotted
  match Path.extension? d.path with
  | some extension => Path.withExtension target extension
  | none => target

/-- Makes the directory that a file goes to. -/
def makeParent (target : String) (fs : System) : Except RepairError Unit × System :=
  match Path.parent? target with
  | some parent =>
    match fs.makeDirectories parent with
    | (.ok (), fs) => (.ok (), fs)
    | (.error fault, fs) => (.error (.io parent fault), fs)
  | none => (.ok (), fs)

/-- Writes the current text of one document. -/
-- a proof about several documents would otherwise compute the path of each
@[irreducible] def storeDocument (directory : String) (d : Document) (fs : System) :
    Except RepairError Unit × System :=
  let target := snapshotPath directory d
  match makeParent target fs with
  | (.error e, fs) => (.error e, fs)
  | (.ok (), fs) =>
    match fs.write target d.current with
    | .ok fs => (.ok (), fs)
    | .error fault => (.error (.io target fault), fs)

/-- Writes the current texts of several documents, as far as they can be written. -/
def storeSnapshot (directory : String) : List Document → System → Except RepairError Unit × System
  | [], fs => (.ok (), fs)
  | d :: ds, fs =>
    match storeDocument directory d fs with
    | (.ok (), fs) => storeSnapshot directory ds fs
    | r => r

end RepairSearch.Project
