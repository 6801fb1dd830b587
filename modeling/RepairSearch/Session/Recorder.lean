import RepairSearch.Document.Set
import RepairSearch.Json.Printer
import RepairSearch.Session.BuildDirectory
import RepairSearch.Session.Patch

/-!
# Recording patches

A program that passed its tests leaves three things in the build directory: a list of its
mutations, a stored copy of it, and a file that says what is known of it. Only the list has to
succeed.
-/

namespace RepairSearch

open Files

/-- A program to be recorded: where the search found it, and the mutations that lead to it. -/
structure FoundPatch where
  candidate : Nat
  generation : Nat
  /-- The descriptions of the mutations, oldest first. -/
  mutations : List String
  documents : DocumentSet

namespace FoundPatch

/-- The list of the mutations, each with a line break behind it. -/
def listing (p : FoundPatch) : String := String.join (p.mutations.map (· ++ "\n"))

end FoundPatch

namespace BuildDirectory

/-- Keeps what was written, or what was there before if nothing could be written. -/
def written (fs : System) : Except Fault System → System
  | .ok fs => fs
  | .error _ => fs

/-- The file that says what is known of a patch. -/
def sidecarPath (patchFile : String) : String := Path.withExtension patchFile "json"

/-- Records a patch, unless the list of its mutations cannot be written. The program is stored by
`store`, if that can be done. -/
def record (b : BuildDirectory)
    (store : String → System → Except RepairError Unit × System)
    (p : FoundPatch) (timestamp : String) (fs : System) : Option RecordedPatch × System :=
  let file := b.patchPath p.candidate p.generation timestamp
  match fs.write file (Text.ofString p.listing) with
  | .error _ => (none, fs)
  | .ok fs =>
    let classes := b.classesPath p.candidate p.generation timestamp
    let (stored, fs) := store classes fs
    let recorded : RecordedPatch :=
      { candidate := p.candidate, generation := p.generation, timestamp
        mutations := p.mutations, file
        compiled := stored.toOption.map fun () => classes
        diff := p.documents.diff }
    let sidecar := Text.ofString recorded.toJson.pretty
    (some recorded, written fs (fs.write (sidecarPath file) sidecar))

end BuildDirectory

end RepairSearch
