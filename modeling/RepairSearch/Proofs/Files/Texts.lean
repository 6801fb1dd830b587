import Mathlib.Logic.Function.Basic
import RepairSearch.Proofs.Files.Saved

/-!
# The texts of a file system

What a file system holds at each place is a table of texts. A write sets one entry of the table,
wherever its path leads, and directories that are made leave the table as it is. So after several
writes a place has the text that was written to it last.
-/

namespace RepairSearch.Files.System

/-- The text at a place, if a file stands there. -/
def textAt? (fs : System) (names : List String) : Option Text :=
  match fs.get? names with
  | some (.file content _) => some content
  | _ => none

/-- A table of texts after writes, the first one first. -/
def written (ws : List (List String × Text)) (table : List String → Option Text) :
    List String → Option Text :=
  ws.foldl (fun table w => Function.update table w.1 (some w.2)) table

section

variable {ws : List (List String × Text)} {table : List String → Option Text} {names : List String}

private theorem written_of_not_mem (h : names ∉ ws.map (·.1)) :
    written ws table names = table names := by
  induction ws generalizing table with
  | nil => rfl
  | cons w ws ih =>
    rw [List.map_cons, List.mem_cons, not_or] at h
    exact (ih h.2).trans (Function.update_of_ne h.1 _ _)

theorem written_of_nodup (h : (ws.map (·.1)).Nodup) {w : List String × Text} (hw : w ∈ ws) :
    written ws table w.1 = some w.2 := by
  induction ws generalizing table with
  | nil => cases hw
  | cons v ws ih =>
    obtain ⟨hv, hnodup⟩ := List.nodup_cons.mp h
    rcases List.mem_cons.mp hw with rfl | hw
    · exact (written_of_not_mem hv).trans (Function.update_self _ _ _)
    · exact ih hnodup hw

theorem isSome_written :
    (written ws table names).isSome ↔ names ∈ ws.map (·.1) ∨ (table names).isSome := by
  induction ws generalizing table with
  | nil => simp [written]
  | cons w ws ih =>
    rw [written, List.foldl_cons, ← written, ih, List.map_cons, List.mem_cons]
    by_cases hw : names = w.1
    · simp [hw]
    · simp [hw]

end

variable {fs fs' fs'' : System}

/-- File systems of which the second has grown from the first, with some writes. -/
structure Writes (ws : List (List String × Text)) (fs fs' : System) : Prop
    extends Grows fs fs' where
  texts : fs'.textAt? = written ws fs.textAt?

theorem Writes.refl (fs : System) : Writes [] fs fs :=
  ⟨⟨rfl, fun _ n hn => ⟨n, hn, rfl⟩⟩, rfl⟩

theorem Writes.trans {ws ws' : List (List String × Text)} (h : Writes ws fs fs')
    (h' : Writes ws' fs' fs'') : Writes (ws ++ ws') fs fs'' where
  workingDirectory := h'.workingDirectory.trans h.workingDirectory
  outline names n hn := by
    obtain ⟨n', hn', hout⟩ := h.outline names n hn
    obtain ⟨n'', hn'', hout'⟩ := h'.outline names n' hn'
    exact ⟨n'', hn'', hout'.trans hout⟩
  texts := by rw [h'.texts, h.texts, written, written, written, List.foldl_append]

private theorem textAt?_of_bare {names : List String}
    (h : (fs'.get? names).map Node.bare = (fs.get? names).map Node.bare) :
    fs'.textAt? names = fs.textAt? names := by
  rw [textAt?, textAt?]
  cases hn : fs.get? names with
  | none =>
    rw [hn] at h
    rw [Option.map_eq_none_iff.mp h]
  | some n =>
    rw [hn] at h
    obtain ⟨n', hn', hbare⟩ := Option.map_eq_some_iff.mp h
    rw [hn']
    cases n <;> cases n' <;> simp_all [Node.bare]

private theorem textAt?_put_new {above : List String} {name : String} {es : List (String × Node)}
    {m : Node} (hdir : fs.get? above = some (.directory es)) (hnew : es.lookup name = none)
    (hm : m.entries = []) {other : List String} (hother : other ≠ above ++ [name]) :
    (fs.put (above ++ [name]) m).textAt? other = fs.textAt? other := by
  by_cases hprefix : above ++ [name] <+: other
  · obtain ⟨rest, rfl⟩ := hprefix
    obtain ⟨k, rest, rfl⟩ := List.exists_cons_of_ne_nil
      (show rest ≠ [] from fun hrest => hother (by simp [hrest]))
    have hbefore : fs.get? (above ++ [name] ++ k :: rest) = none := by
      rw [List.append_assoc, get?_append hdir, List.singleton_append, Node.get?_cons,
        Node.entries_directory, hnew]
      rfl
    have hafter : (fs.put (above ++ [name]) m).get? (above ++ [name] ++ k :: rest) = none := by
      rw [get?, put, Node.get?_put_append, Node.get?_cons, hm]
      rfl
    rw [textAt?, textAt?, hbefore, hafter]
  · have hparent : fs.get? (above ++ [name]).dropLast = some (.directory es) := by
      rwa [List.dropLast_concat]
    exact textAt?_of_bare (Node.bare_get?_put m hparent hprefix)

private theorem grows_put_new {above : List String} {name : String} {es : List (String × Node)}
    (hdir : fs.get? above = some (.directory es)) (hnew : es.lookup name = none) (m : Node) :
    Grows fs (fs.put (above ++ [name]) m) := by
  rw [put_concat hdir hnew]
  exact Grows.put_append hdir [(name, m)]

/-- Where relative paths start exists. -/
def Grounded (fs : System) : Prop := fs.get? fs.workingDirectory ≠ none

theorem Grounded.grows (h : fs.Grounded) (hgrows : Grows fs fs') : fs'.Grounded := by
  obtain ⟨n, hn⟩ := Option.ne_none_iff_exists'.mp h
  obtain ⟨n', hn', _⟩ := hgrows.outline _ n hn
  rw [Grounded, hgrows.workingDirectory, hn']
  exact Option.some_ne_none n'

private theorem writes_of_makeDirectory (hground : fs.Grounded) {path : String}
    (h : fs.makeDirectory path = .ok fs') : Writes [] fs fs' := by
  have hpath : path ≠ "" := by
    rintro rfl
    cases h
  have hstart : fs.get? (fs.start path) ≠ none := by
    rw [start]
    split
    · exact get?_root_ne_none fs
    · exact hground
  rw [makeDirectory_eq hpath] at h
  split at h
  · rename_i r hwalk
    obtain rfl := Except.ok.inj h
    obtain ⟨above, name, es, rfl, hdir, hnew⟩ := walk_new hstart hwalk
    refine ⟨grows_put_new hdir hnew _, funext fun other => ?_⟩
    by_cases hother : other = above ++ [name]
    · have hbefore : fs.get? (above ++ [name]) = none := by rw [get?_concat hdir, hnew]
      have hafter : (fs.put (above ++ [name]) (.directory [])).get? (above ++ [name]) =
          some (.directory []) := by rw [get?, put, Node.get?_put_self]
      rw [hother, textAt?, hafter, written, List.foldl_nil, textAt?, hbefore]
    · exact textAt?_put_new hdir hnew rfl hother
  · cases h
  · cases h

private theorem makeDirectories_induct {R : System → System → Prop} (hrefl : ∀ fs, R fs fs)
    (htrans : ∀ {fs fs' fs''}, R fs fs' → R fs' fs'' → R fs fs'')
    (hstep : ∀ {fs fs' path}, fs.makeDirectory path = .ok fs' → R fs fs') (fs : System)
    (path : String) : R fs (fs.makeDirectories path).2 := by
  rw [makeDirectories]
  generalize path.length + 1 = depth
  induction depth generalizing fs path with
  | zero => exact hrefl fs
  | succ depth ih =>
    rw [makeDirectories.go]
    split
    · exact hrefl fs
    split
    · rename_i hmake
      exact hstep hmake
    split
    · split <;> exact hrefl fs
    split
    · exact hrefl fs
    rename_i parent _
    have hparent := ih fs parent
    cases hgo : makeDirectories.go depth fs parent with
    | mk r fs₁ =>
      rw [hgo] at hparent
      cases r with
      | error fault => exact hparent
      | ok _ =>
        dsimp only
        split
        · rename_i hagain
          exact htrans hparent (hstep hagain)
        · split <;> exact hparent

theorem writes_makeDirectories (hground : fs.Grounded) (path : String) :
    Writes [] fs (fs.makeDirectories path).2 := by
  refine makeDirectories_induct (R := fun fs fs' => fs.Grounded → Writes [] fs fs')
    (fun fs _ => .refl fs) (fun h h' hground => ?_) (fun h hground => ?_) fs path hground
  · have hfirst := h hground
    exact hfirst.trans (h' (hground.grows hfirst.toGrows))
  · exact writes_of_makeDirectory hground h

/-- A path that could be written to leads to the place that has the text now. -/
theorem writes_of_write {path : String} {text : Text} (h : fs.write path text = .ok fs') :
    ∃ names x, fs'.find path = .ok (names, .file text x) ∧ Writes [(names, text)] fs fs' := by
  have hput : ∀ {names : List String} {x : Bool}, (∀ other, other ≠ names →
      (fs.put names (.file text x)).textAt? other = fs.textAt? other) →
        (fs.put names (.file text x)).textAt? = written [(names, text)] fs.textAt? := by
    intro names x hsame
    funext other
    by_cases hother : other = names
    · have hself : (fs.put names (.file text x)).get? names = some (.file text x) := by
        rw [get?, put, Node.get?_put_self]
      rw [hother, textAt?, hself, written, List.foldl_cons, List.foldl_nil, Function.update_self]
    · exact (hsame other hother).trans (Function.update_of_ne hother _ _).symm
  obtain ⟨names, old, x, hlocate, rfl⟩ | ⟨names, hlocate, rfl⟩ := file_or_new_of_write h
  · have hfind := find_of_locate hlocate
    have halike : AlikeBut (· = names) fs (fs.put names (.file text x)) :=
      alikeBut_put_file (get?_of_find hfind)
    exact ⟨names, x, halike.grows.find_put hfind, halike.grows,
      hput fun other hother => textAt?_of_bare (halike.elsewhere other hother)⟩
  · have hfind := find_new (m := .file text false) (by simp) hlocate
    have hstart := get?_start_ne_none hlocate
    rw [locate] at hlocate
    split at hlocate
    · cases hlocate
    obtain ⟨above, name, es, rfl, hdir, hnew⟩ := walk_new hstart hlocate
    exact ⟨_, false, hfind, grows_put_new hdir hnew _,
      hput fun other hother => textAt?_put_new hdir hnew rfl hother⟩

end RepairSearch.Files.System
