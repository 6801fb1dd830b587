import RepairSearch.Project.Copy

/-!
# Workspaces

Builds and tests run in a copy of the project, so that the project itself stays as it is.
-/

namespace RepairSearch.Project

open Files

structure Workspace where
  /-- The directory of the copy. -/
  root : String
  /-- The directory that is copied. -/
  projectRoot : String
deriving DecidableEq, Repr

namespace Workspace

/-- Copies a project into a directory of its own. -/
def create (projectRoot root : String) (fs : System) : Except RepairError Workspace × System :=
  match copy projectRoot root fs with
  | (.ok (), fs) => (.ok ⟨root, projectRoot⟩, fs)
  | (.error e, fs) => (.error (.setup ("failed to copy project tree: " ++ e.message)), fs)

/-- Where a file of the project is in the copy. -/
def mapPath (w : Workspace) (path : String) : Except RepairError String :=
  match Path.relativeTo? w.projectRoot path with
  | some relative => .ok (Path.join w.root relative)
  | none => .error (.setup (path ++ " is outside the project root " ++ w.projectRoot))

end Workspace

end RepairSearch.Project
