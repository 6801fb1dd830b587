import RepairSearch.Proofs.Files.Legal

/-!
# The order of entries

File systems that differ in nothing but the order in which their directories list their entries.
A path leads to the same place in both.
-/

namespace RepairSearch.Files.System

/-- At every place there is the same, whatever the order of the entries of directories. -/
structure Reordered (fs fs' : System) : Prop where
  workingDirectory : fs'.workingDirectory = fs.workingDirectory
  bare : ∀ names, (fs'.get? names).map Node.bare = (fs.get? names).map Node.bare

namespace Reordered

variable {fs fs' : System}

/-- The entries of a directory in another order. -/
theorem put_perm {place : List String} {es es' : List (String × Node)}
    (hplace : fs.get? place = some (.directory es)) (hnodup : (es.map (·.1)).Nodup)
    (hperm : es'.Perm es) : Reordered fs (fs.put place (.directory es')) := by
  have hlookup : ∀ name, es'.lookup name = es.lookup name := by
    have hnodup' : (es'.map (·.1)).Nodup := (hperm.map (·.1)).nodup_iff.mpr hnodup
    intro name
    refine Option.ext fun n => ⟨fun h => ?_, fun h => ?_⟩
    · exact lookup_of_mem hnodup (hperm.subset (Node.mem_of_lookup h))
    · exact lookup_of_mem hnodup' (hperm.symm.subset (Node.mem_of_lookup h))
  refine ⟨rfl, fun names => ?_⟩
  by_cases hprefix : place <+: names
  · obtain ⟨rest, rfl⟩ := hprefix
    rw [get?_append hplace, System.get?, System.put, Node.get?_put_append]
    cases rest with
    | nil => simp
    | cons name rest =>
      rw [Node.get?_cons, Node.get?_cons, Node.entries_directory, Node.entries_directory, hlookup]
  · exact Node.bare_get?_put_of_get? (.directory es') hplace hprefix

private theorem grows (h : Reordered fs fs') : Grows fs fs' := by
  refine ⟨h.workingDirectory, fun names n hn => ?_⟩
  have hout := congrArg (Option.map Node.outline) (h.bare names)
  rw [Option.map_map, Option.map_map, Node.outline_comp_bare, hn] at hout
  exact Option.map_eq_some_iff.mp hout

private theorem find (h : Reordered fs fs') {path : String} {names : List String} {n : Node}
    (hfind : fs.find path = .ok (names, n)) :
    ∃ n', fs'.find path = .ok (names, n') ∧ n'.bare = n.bare := by
  obtain ⟨n', hfind', _⟩ := h.grows.find hfind
  refine ⟨n', hfind', ?_⟩
  have hbare := h.bare names
  rwa [get?_of_find hfind, get?_of_find hfind', Option.map_some, Option.map_some,
    Option.some.injEq] at hbare

theorem find_directory (h : Reordered fs fs') {path : String} {names : List String}
    {es : List (String × Node)} (hfind : fs.find path = .ok (names, .directory es)) :
    ∃ es', fs'.find path = .ok (names, .directory es') := by
  obtain ⟨n', hfind', hbare⟩ := h.find hfind
  obtain ⟨es', rfl⟩ := Node.bare_eq_directory hbare
  exact ⟨es', hfind'⟩

theorem find_file (h : Reordered fs fs') {path : String} {names : List String}
    {content : Text} {x : Bool} (hfind : fs.find path = .ok (names, .file content x)) :
    fs'.find path = .ok (names, .file content x) := by
  obtain ⟨n', hfind', hbare⟩ := h.find hfind
  rwa [Node.bare_eq_file hbare] at hfind'

/-- What stands below a directory, apart from its own entries. -/
theorem bare_below (h : Reordered fs fs') {names : List String} {n n' : Node}
    (hn : fs.get? names = some n) (hn' : fs'.get? names = some n') (below : List String) :
    (n'.get? below).map Node.bare = (n.get? below).map Node.bare := by
  have hbare := h.bare (names ++ below)
  rwa [get?_append hn, get?_append hn'] at hbare

/-- A directory has an entry of a name in both or in none. -/
theorem lookup_eq_none (h : Reordered fs fs') {names : List String}
    {es es' : List (String × Node)} (hes : fs.get? names = some (.directory es))
    (hes' : fs'.get? names = some (.directory es')) {name : String}
    (hnone : es.lookup name = none) : es'.lookup name = none := by
  have hbare := h.bare_below hes hes' [name]
  rwa [Node.get?_singleton, Node.get?_singleton, Node.entries_directory, Node.entries_directory,
    hnone, Option.map_none, Option.map_eq_none_iff] at hbare

theorem find_empty (h : Reordered fs fs') {path : String} {names : List String}
    (hfind : fs.find path = .ok (names, .directory [])) :
    fs'.find path = .ok (names, .directory []) := by
  obtain ⟨es', hfind'⟩ := h.find_directory hfind
  cases es' with
  | nil => exact hfind'
  | cons e es =>
    have hnone : (e :: es).lookup e.1 = none :=
      h.lookup_eq_none (get?_of_find hfind) (get?_of_find hfind') List.lookup_nil
    rw [Node.lookup_entry, if_pos rfl] at hnone
    cases hnone

end Reordered

end RepairSearch.Files.System
