import RepairSearch.Project.Compiler
import RepairSearch.Proofs.Files.Walk

/-!
# Places in a workspace

A file of the project is in the copy where the names behind the root of the project lead from the
root of the copy. Different files have different places there.
-/

namespace RepairSearch.Project

open Files

theorem mapM_eq_ok {ε α β : Type} {f : α → Except ε β} {as : List α} {bs : List β}
    (h : as.mapM f = .ok bs) :
    bs.length = as.length ∧
      ∀ (i : Nat) (b : β), bs[i]? = some b → ∃ a, as[i]? = some a ∧ f a = .ok b := by
  induction as generalizing bs with
  | nil =>
    cases h
    exact ⟨rfl, by simp⟩
  | cons a as ih =>
    rw [List.mapM_cons] at h
    cases ha : f a with
    | error e => simp [ha, bind, Except.bind] at h
    | ok b =>
      cases has : as.mapM f with
      | error e => simp [ha, has, bind, Except.bind] at h
      | ok bs' =>
        obtain rfl : b :: bs' = bs := by
          simpa [ha, has, bind, Except.bind, pure, Except.pure] using h
        obtain ⟨hlength, hall⟩ := ih has
        refine ⟨by simp [hlength], fun i b' hb' => ?_⟩
        cases i with
        | zero =>
          obtain rfl : b = b' := by simpa using hb'
          exact ⟨a, rfl, ha⟩
        | succ i => exact hall i b' hb'

namespace Workspace

/-- A workspace whose root leads to a place below which there is no link. -/
structure Isolated (w : Workspace) (fs : System) (place : List String) : Prop where
  named : w.projectRoot ≠ ""
  unlinked : ∃ n, fs.find w.root = .ok (place, n) ∧ n.Unlinked

variable {w : Workspace} {fs : System} {place names : List String} {path target : String} {n : Node}

/-- The path of a file in the copy leads to names below the root, which are those of the file below
the root of the project. -/
theorem Isolated.find_mapPath (h : w.Isolated fs place) (hpath : Path.isAbsolute path = true)
    (hup : Path.Component.parent ∉ Path.components path) (hmap : w.mapPath path = .ok target)
    (hfind : fs.find target = .ok (names, n)) :
    ∃ below, names = place ++ below ∧
      Path.components path = Path.components w.projectRoot ++ below.map .name := by
  rw [mapPath] at hmap
  split at hmap
  · rename_i rel hrel
    rw [Except.ok.injEq] at hmap
    subst hmap
    obtain ⟨hcomponents, hnoup, habs, _⟩ := Path.relativeTo?_eq_some h.named hpath hup hrel
    obtain ⟨m, hroot, hlinks⟩ := h.unlinked
    obtain ⟨links, dots, hlocate, hdots, _⟩ := System.locate_join true hroot habs (.inr rfl)
    refine ⟨(Path.names rel).filter (· ≠ "."), ?_, hcomponents⟩
    have hwalk := System.locate_of_find hfind
    rw [hlocate] at hwalk
    have hsteps : ".." ∉ Path.names rel ++ dots := by
      rw [List.mem_append, not_or]
      exact ⟨hnoup, fun hmem => absurd (hdots ".." hmem) (by decide)⟩
    have hplace := System.walk_below (System.get?_of_find hroot) hlinks hsteps hwalk
    have hnil : dots.filter (· ≠ ".") = [] := by simpa using hdots
    rwa [List.filter_append, hnil, List.append_nil] at hplace
  · cases hmap

end Workspace

/-- A compiler can be told about documents that all have a place in its workspace. -/
theorem Compiler.exists_setContext {c : Compiler} {ds : DocumentSet} {targets : List String}
    (h : ds.documents.mapM (fun d => c.workspace.mapPath d.path) = .ok targets)
    (sources classpath : List String) (fs : System) :
    ∃ environment, c.setContext ds sources classpath fs =
      .ok { c with
        targets, written := ds.documents.map fun d => some d.revision, environment } := by
  rw [setContext, h]
  exact ⟨_, rfl⟩

/-- A compiler that is told about documents has the place of each of them in its workspace, and
takes them as they are. -/
theorem Compiler.setContext_eq_ok {c₀ c : Compiler} {ds : DocumentSet}
    {sources classpath : List String} {fs : System}
    (h : c₀.setContext ds sources classpath fs = .ok c) :
    c.buildCommand = c₀.buildCommand ∧ c.targets.length = ds.documents.length ∧
      c.written = ds.documents.map (fun d => some d.revision) ∧
      ∀ (i : Nat) (target : String), c.targets[i]? = some target →
        ∃ d, ds.documents[i]? = some d ∧ c₀.workspace.mapPath d.path = .ok target := by
  rw [setContext] at h
  cases hmap : ds.documents.mapM fun d => c₀.workspace.mapPath d.path with
  | error e => simp [hmap, bind, Except.bind] at h
  | ok targets =>
    simp only [hmap, bind, Except.bind, pure, Except.pure, Except.ok.injEq] at h
    subst h
    obtain ⟨hlength, hall⟩ := mapM_eq_ok hmap
    exact ⟨rfl, hlength, rfl, hall⟩

end RepairSearch.Project
