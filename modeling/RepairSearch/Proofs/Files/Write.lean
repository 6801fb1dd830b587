import RepairSearch.Proofs.Files.Walk

/-!
# Writes

Writing to a file that is there changes the content of this file and nothing else.
-/

namespace RepairSearch.Files.System

/-- File systems that are the same, apart from the content of what is at some places. -/
structure AlikeBut (changed : List String → Prop) (fs fs' : System) : Prop where
  workingDirectory : fs'.workingDirectory = fs.workingDirectory
  outline : ∀ names, (fs'.get? names).map Node.outline = (fs.get? names).map Node.outline
  elsewhere : ∀ names, ¬ changed names →
    (fs'.get? names).map Node.bare = (fs.get? names).map Node.bare

namespace AlikeBut

variable {changed changed' : List String → Prop} {fs fs' fs'' : System}

theorem refl (changed : List String → Prop) (fs : System) : AlikeBut changed fs fs :=
  ⟨rfl, fun _ => rfl, fun _ _ => rfl⟩

theorem trans (h : AlikeBut changed fs fs') (h' : AlikeBut changed fs' fs'') :
    AlikeBut changed fs fs'' where
  workingDirectory := h'.workingDirectory.trans h.workingDirectory
  outline names := (h'.outline names).trans (h.outline names)
  elsewhere names hn := (h'.elsewhere names hn).trans (h.elsewhere names hn)

theorem mono (h : AlikeBut changed fs fs') (hc : ∀ names, changed names → changed' names) :
    AlikeBut changed' fs fs' :=
  ⟨h.workingDirectory, h.outline, fun names hn => h.elsewhere names fun hc' => hn (hc names hc')⟩

theorem grows (h : AlikeBut changed fs fs') : Grows fs fs' := by
  refine ⟨h.workingDirectory, fun names n hn => ?_⟩
  have hout := h.outline names
  rw [hn, Option.map_some] at hout
  obtain ⟨n', hn', hn'out⟩ := Option.map_eq_some_iff.mp hout
  exact ⟨n', hn', hn'out⟩

theorem read (h : AlikeBut changed fs fs') {path : String} {names : List String} {n : Node}
    (hfind : fs.find path = .ok (names, n)) (hn : ¬ changed names) :
    fs'.read path = fs.read path := by
  obtain ⟨n', hfind', _⟩ := h.grows.find hfind
  have hbare := h.elsewhere names hn
  rw [get?_of_find hfind, get?_of_find hfind', Option.map_some, Option.map_some,
    Option.some.injEq] at hbare
  rw [System.read, System.read, hfind, hfind']
  cases n <;> cases n' <;> simp_all [Node.bare]

end AlikeBut

variable {fs fs' : System} {path : String} {names : List String} {old text : Text} {x : Bool}

theorem write_of_find (h : fs.find path = .ok (names, .file old x)) :
    fs.write path text = .ok (fs.put names (.file text x)) := by
  rw [write, update, locate_of_find h]

/-- What could be written to is a file, or nothing stands there. -/
theorem file_or_new_of_write (h : fs.write path text = .ok fs') :
    (∃ names old x, fs.locate true path = .ok ⟨names, some (.file old x)⟩ ∧
      fs' = fs.put names (.file text x)) ∨
    ∃ names, fs.locate true path = .ok ⟨names, none⟩ ∧ fs' = fs.put names (.file text false) := by
  rw [write, update] at h
  split at h
  · rename_i names old x hlocate
    exact .inl ⟨names, old, x, hlocate, (Except.ok.inj h).symm⟩
  · rename_i names hlocate
    exact .inr ⟨names, hlocate, (Except.ok.inj h).symm⟩
  all_goals cases h

theorem alikeBut_put_file (h : fs.get? names = some (.file old x)) :
    AlikeBut (· = names) fs (fs.put names (.file text x)) := by
  have hbare : ∀ other, other ≠ names →
      ((fs.put names (.file text x)).get? other).map Node.bare =
        (fs.get? other).map Node.bare := by
    intro other hother
    by_cases hprefix : names <+: other
    · obtain ⟨rest, rfl⟩ := hprefix
      obtain ⟨name, rest, rfl⟩ := List.exists_cons_of_ne_nil
        (show rest ≠ [] from fun hrest => hother (by simp [hrest]))
      rw [get?_append h, get?, put, Node.get?_put_append, Node.get?_cons, Node.get?_cons]
      rfl
    · exact Node.bare_get?_put_of_get? (.file text x) h hprefix
  refine ⟨rfl, fun other => ?_, hbare⟩
  by_cases hother : other = names
  · subst hother
    rw [h, System.get?, System.put, Node.get?_put_self]
    rfl
  · have hout := congrArg (Option.map Node.outline) (hbare other hother)
    simpa only [Option.map_map, Node.outline_comp_bare] using hout

/-- A write to a file that is there: the file has the new content, and all else is as before. -/
theorem write_eq_ok (h : fs.find path = .ok (names, .file old x))
    (hwrite : fs.write path text = .ok fs') :
    fs'.read path = .ok text ∧ AlikeBut (· = names) fs fs' := by
  rw [write_of_find h, Except.ok.injEq] at hwrite
  subst hwrite
  have halike : AlikeBut (· = names) fs (fs.put names (.file text x)) :=
    alikeBut_put_file (get?_of_find h)
  refine ⟨?_, halike⟩
  rw [read, halike.grows.find_put h]

end RepairSearch.Files.System
