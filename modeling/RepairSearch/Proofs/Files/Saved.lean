import RepairSearch.Proofs.Files.Directory
import RepairSearch.Proofs.Files.Write

/-!
# Reading what was written

A path that could be written to leads to a file with the text that was written, whether the file is
new or was there before.
-/

namespace RepairSearch.Files.System

variable {fs fs' : System}

theorem get?_root_ne_none (fs : System) : fs.get? [] ≠ none := by
  rw [get?, Node.get?_nil]
  exact Option.some_ne_none _

private theorem get?_dropLast_ne_none {here : List String} {es : List (String × Node)}
    (hdir : fs.get? here = some (.directory es)) : fs.get? here.dropLast ≠ none := by
  rcases List.eq_nil_or_concat here with rfl | ⟨above, name, rfl⟩
  · exact get?_root_ne_none fs
  · rw [List.concat_eq_append] at hdir ⊢
    obtain ⟨es', hes'⟩ := Node.exists_directory_of_get?_append hdir
    rw [List.dropLast_concat, get?, hes']
    exact Option.some_ne_none _

/-- A place where nothing stands is a new name in a directory. -/
theorem walk_new {follow : Bool} {links : Nat} {here xs p : List String}
    (hhere : fs.get? here ≠ none) (h : fs.walk follow links here xs = .ok ⟨p, none⟩) :
    ∃ above name es, p = above ++ [name] ∧ fs.get? above = some (.directory es) ∧
      es.lookup name = none := by
  fun_induction fs.walk follow links here xs with
  | case1 links here =>
    obtain ⟨_, hnone⟩ : _ ∧ _ := by simpa using h
    exact absurd hnone hhere
  | case2 _ _ _ _ _ ih => exact ih hhere h
  | case3 _ _ _ _ hdir _ ih => exact ih (get?_dropLast_ne_none hdir) h
  | case4 _ here step _ es hdir _ _ hstep _ =>
    obtain rfl : _ = p := by simpa using h
    exact ⟨here, step, es, rfl, hdir, hstep⟩
  | case5 | case7 | case10 => cases h
  | case6 => simp at h
  | case8 _ _ _ _ _ _ _ _ _ _ _ ih =>
    refine ih ?_ (by simpa using h)
    split
    · exact get?_root_ne_none fs
    · exact hhere
  | case9 _ _ _ _ _ hdir _ _ _ _ hstep ih =>
    refine ih ?_ h
    rw [get?_concat hdir, hstep]
    exact Option.some_ne_none _

variable {path : String} {content : Text}

theorem get?_start_ne_none {follow : Bool} {place : Place} (h : fs.locate follow path = .ok place) :
    fs.get? (fs.start path) ≠ none := by
  rw [locate] at h
  split at h
  · cases h
  rename_i hempty
  cases habs : Path.isAbsolute path with
  | true =>
    rw [start, if_pos habs]
    exact get?_root_ne_none fs
  | false =>
    have hnames := Path.names_ne_nil (by simpa using hempty) habs
    obtain ⟨step, rest, hsteps⟩ := List.exists_cons_of_ne_nil
      (show steps path ≠ [] by rw [steps_eq]; simp [hnames])
    intro hnone
    rw [hsteps, walk_notDirectory (by simp [hnone])] at h
    cases h

/-- What is made where a path leads to nothing is found by this path. -/
theorem find_new {names : List String} {m : Node} (hlink : ∀ target, m ≠ .link (.path target))
    (h : fs.locate true path = .ok ⟨names, none⟩) :
    (fs.put names m).find path = .ok (names, m) := by
  have hstart := get?_start_ne_none h
  rw [locate] at h
  split at h
  · cases h
  rename_i hempty
  obtain ⟨above, name, es, rfl, hdir, hnew⟩ := walk_new hstart h
  have hgrows : Grows fs (fs.put (above ++ [name]) m) := by
    rw [put_concat hdir hnew]
    exact Grows.put_append hdir [(name, m)]
  have hm : (fs.put (above ++ [name]) m).get? (above ++ [name]) = some m := by
    rw [get?, put, Node.get?_put_self]
  refine find_of_locate ?_
  rw [locate, if_neg hempty, ← hm]
  refine hgrows.walk (fun _ target => ?_) h
  rw [hm, Ne, Option.some.injEq]
  exact hlink target

theorem read_of_write (h : fs.write path content = .ok fs') : fs'.read path = .ok content := by
  obtain ⟨names, old, x, hlocate, _⟩ | ⟨names, hlocate, rfl⟩ := file_or_new_of_write h
  · exact (write_eq_ok (find_of_locate hlocate) h).1
  · rw [read, find_new (m := .file content false) (by simp) hlocate]

end RepairSearch.Files.System
