import RepairSearch.Proofs.Files.FileName
import RepairSearch.Proofs.Files.Saved

/-!
# Changes inside a directory

What is made or written by a path that leads below a directory is in that directory, as long as no
link stands there. Nothing changes but what is strictly below the directory.
-/

namespace RepairSearch

open Files RepairSearch.Path

/-- The step that a component is. The root and a dot at the beginning are none. -/
def Path.Component.step? : Component → Option String
  | root | current => none
  | parent => some ".."
  | name s => some s

private theorem Path.root_mem_components {p : String} :
    .root ∈ components p ↔ isAbsolute p = true := by
  have hbody : .root ∉ (segments p).filterMap componentOf? := by
    intro hroot
    obtain ⟨s, _, hs⟩ := List.mem_filterMap.mp hroot
    rw [componentOf?] at hs
    split at hs
    · cases hs
    · split at hs <;> cases hs
  rw [components]
  split
  · rename_i habsolute
    simp [habsolute]
  · rename_i habsolute
    split <;> simp [habsolute, hbody]

private theorem Files.System.steps_eq_components (p : String) :
    (steps p).filter (· ≠ ".") = (components p).filterMap Component.step? := by
  have hstep (s : String) : (componentOf? s).bind Component.step? =
      if s ≠ "." ∧ s ≠ "" then some s else none := by
    rw [componentOf?]
    by_cases hempty : s = ""
    · simp [hempty]
    · by_cases hdot : s = "."
      · simp [hdot]
      · by_cases hup : s = ".." <;> simp [hempty, hdot, hup, Component.step?]
  have hbody : ((segments p).filterMap componentOf?).filterMap Component.step? =
      (segments p).filter fun s => s ≠ "." ∧ s ≠ "" := by
    rw [List.filterMap_filterMap, ← List.filterMap_eq_filter]
    refine List.filterMap_congr fun s _ => ?_
    rw [hstep]
    simp [Option.guard]
  have hsteps : (steps p).filter (· ≠ ".") = (segments p).filter fun s => s ≠ "." ∧ s ≠ "" := by
    rw [steps_eq, names, List.filter_append, List.filter_filter]
    split <;> simp
  rw [hsteps, ← hbody, components]
  split
  · exact (List.filterMap_cons_none rfl).symm
  · split
    · exact (List.filterMap_cons_none rfl).symm
    · rfl

namespace Files.System

variable {fs fs' : System}

private theorem walk_leadingDots {follow : Bool} {links : Nat} {here dots rest : List String}
    {es : List (String × Node)} (hdir : fs.get? here = some (.directory es))
    (hdots : ∀ d ∈ dots, d = ".") :
    fs.walk follow links here (dots ++ rest) = fs.walk follow links here rest := by
  induction dots with
  | nil => rfl
  | cons d dots ih =>
    rw [hdots d List.mem_cons_self, List.cons_append, walk_dot hdir]
    exact ih fun d hd => hdots d (List.mem_cons_of_mem _ hd)

private theorem walk_of_filter_eq {links : Nat} {here xs ys p : List String}
    {es : List (String × Node)} (h : fs.walk true links here xs = .ok ⟨p, some (.directory es)⟩)
    (hys : ys.filter (· ≠ ".") = xs.filter (· ≠ ".")) :
    fs.walk true links here ys = .ok ⟨p, some (.directory es)⟩ := by
  -- a step that is no dot stands behind dots
  have hstep : ∀ {step : String} {xs ys : List String}, step ≠ "." →
      ys.filter (· ≠ ".") = (step :: xs).filter (· ≠ ".") → ∃ dots rest, ys = dots ++ step :: rest ∧
        (∀ d ∈ dots, d = ".") ∧ rest.filter (· ≠ ".") = xs.filter (· ≠ ".") := by
    intro step xs ys hne hys
    rw [List.filter_cons_of_pos (by simpa using hne), List.filter_eq_cons_iff] at hys
    obtain ⟨dots, rest, rfl, hdots, _, hrest⟩ := hys
    exact ⟨dots, rest, rfl, by simpa using hdots, hrest⟩
  fun_induction fs.walk true links here xs generalizing ys with
  | case1 links here =>
    obtain ⟨rfl, hdir⟩ : _ ∧ _ := by simpa using h
    have hdots : ∀ d ∈ ys, d = "." := by simpa using hys
    rw [← List.append_nil ys, walk_leadingDots hdir hdots, walk, hdir]
  | case2 _ _ _ _ _ ih => exact ih h (by simpa using hys)
  | case3 _ _ _ _ hdir hdot ih =>
    obtain ⟨dots, rest, rfl, hdots, hrest⟩ := hstep hdot hys
    rw [walk_leadingDots hdir hdots, walk_up hdir]
    exact ih h hrest
  | case4 | case5 | case7 | case10 => cases h
  | case6 _ _ _ _ _ _ _ _ _ _ hrest => simp at hrest
  | case8 _ _ _ _ hdir hdot hup _ hlookup _ _ ih =>
    obtain ⟨dots, rest, rfl, hdots, hrest⟩ := hstep hdot hys
    rw [walk_leadingDots hdir hdots, walk_link hdir hdot hup hlookup (by simp)]
    exact ih (by simpa using h) (by rw [List.filter_append, List.filter_append, hrest])
  | case9 _ _ _ _ _ hdir hdot hup _ hm hlookup ih =>
    obtain ⟨dots, rest, rfl, hdots, hrest⟩ := hstep hdot hys
    rw [walk_leadingDots hdir hdots, walk_into hdir hdot hup hlookup hm]
    exact ih h hrest

section

variable {base p : String} {ns : List String}

private theorem isAbsolute_of_components (h : components p = components base ++ ns.map .name) :
    isAbsolute p = isAbsolute base := by
  rw [Bool.eq_iff_iff, ← root_mem_components, ← root_mem_components, h]
  simp

private theorem start_of_components (h : components p = components base ++ ns.map .name) :
    fs.start p = fs.start base := by
  rw [start, start, isAbsolute_of_components h]

private theorem filter_steps_of_components (h : components p = components base ++ ns.map .name) :
    (steps p).filter (· ≠ ".") = (steps base).filter (· ≠ ".") ++ ns := by
  rw [steps_eq_components, steps_eq_components, h, List.filterMap_append, List.filterMap_map]
  congr 1
  exact List.filterMap_some

variable {place : List String} {es : List (String × Node)}

private theorem find_of_components (hfind : fs.find base = .ok (place, .directory es)) (hp : p ≠ "")
    (h : components p = components base) : fs.find p = .ok (place, .directory es) := by
  have hbase := locate_of_find hfind
  have hcomponents : components p = components base ++ [].map .name := by
    rw [h, List.map_nil, List.append_nil]
  refine find_of_locate ?_
  rw [locate, if_neg (by simpa using ne_empty_of_find hfind)] at hbase
  rw [locate, if_neg (by simpa using hp), start_of_components hcomponents]
  refine walk_of_filter_eq hbase ?_
  rw [filter_steps_of_components hcomponents, List.append_nil]

private theorem walk_names {follow : Bool} (hfind : fs.find base = .ok (place, .directory es))
    (hlinks : (Node.directory es).Unlinked) (hns : ∀ s ∈ ns, IsName s) (hne : ns ≠ [])
    {xs r : List String} {node : Option Node}
    (hxs : xs.filter (· ≠ ".") = (steps base).filter (· ≠ ".") ++ ns)
    (hwalk : fs.walk follow maxLinks (fs.start base) xs = .ok ⟨r, node⟩) : r = place ++ ns := by
  obtain ⟨front, back, rfl, hfront, hback⟩ := List.filter_eq_append_iff.mp hxs
  have hbase := locate_of_find hfind
  rw [locate, if_neg (by simpa using ne_empty_of_find hfind)] at hbase
  have hbackne : back ≠ [] := by
    rintro rfl
    exact hne hback.symm
  have hup : ".." ∉ back := by
    intro hmem
    have hmem : ".." ∈ ns := hback ▸ List.mem_filter.mpr ⟨hmem, by decide⟩
    exact (hns _ hmem).ne_up rfl
  have hend : (back.isEmpty && !follow) = false := by simp [hbackne]
  obtain ⟨links, hsplit⟩ := walk_append follow hend (walk_of_filter_eq hbase hfront)
  rw [hsplit] at hwalk
  rw [walk_below (get?_of_find hfind) hlinks hup hwalk, hback]

end

/-- File systems of which the second has grown from the first strictly below a place, where files
may have changed. There is no new link. -/
structure ChangedBelow (place : List String) (fs fs' : System) : Prop extends Grows fs fs' where
  elsewhere : ∀ names, (place <+: names → names = place) →
    (fs'.get? names).map Node.bare = (fs.get? names).map Node.bare
  link : ∀ names target, fs'.get? names = some (.link (.path target)) →
    fs.get? names = some (.link (.path target))

namespace ChangedBelow

variable {place : List String} {fs'' : System}

theorem refl (place : List String) (fs : System) : ChangedBelow place fs fs where
  workingDirectory := rfl
  outline _ n hn := ⟨n, hn, rfl⟩
  elsewhere _ _ := rfl
  link _ _ h := h

theorem trans (h : ChangedBelow place fs fs') (h' : ChangedBelow place fs' fs'') :
    ChangedBelow place fs fs'' where
  workingDirectory := h'.workingDirectory.trans h.workingDirectory
  outline names n hn := by
    obtain ⟨n', hn', hout⟩ := h.outline names n hn
    obtain ⟨n'', hn'', hout'⟩ := h'.outline names n' hn'
    exact ⟨n'', hn'', hout'.trans hout⟩
  elsewhere names hnames := (h'.elsewhere names hnames).trans (h.elsewhere names hnames)
  link names target hlink := h.link names target (h'.link names target hlink)

private theorem put {ns : List String} {m : Node} {es : List (String × Node)} (hne : ns ≠ [])
    (hparent : fs.get? (place ++ ns).dropLast = some (.directory es)) (hm : m.entries = [])
    (hlink : ∀ target, m ≠ .link (.path target))
    (hold : ∀ k, fs.get? (place ++ ns) = some k → k.entries = [] ∧ k.outline = m.outline) :
    ChangedBelow place fs (fs.put (place ++ ns) m) := by
  have hbare : ∀ other, ¬ place ++ ns <+: other →
      ((fs.put (place ++ ns) m).get? other).map Node.bare = (fs.get? other).map Node.bare :=
    fun other hother => Node.bare_get?_put m hparent hother
  have hbelow : ∀ rest, (fs.put (place ++ ns) m).get? (place ++ ns ++ rest) = m.get? rest :=
    fun rest => Node.get?_put_append _ _ _ _
  refine ⟨⟨rfl, ?_⟩, ?_, ?_⟩
  · intro names n hn
    by_cases hprefix : place ++ ns <+: names
    · obtain ⟨rest, rfl⟩ := hprefix
      rw [get?, Node.get?_append, Option.bind_eq_some_iff] at hn
      obtain ⟨k, hk, hn⟩ := hn
      obtain ⟨hentries, hout⟩ := hold k hk
      obtain ⟨rfl, rfl⟩ := Node.eq_of_get?_leaf hentries hn
      exact ⟨m, hbelow [], hout.symm⟩
    · have hout := congrArg (Option.map Node.outline) (hbare names hprefix)
      rw [Option.map_map, Option.map_map, Node.outline_comp_bare, hn] at hout
      exact Option.map_eq_some_iff.mp hout
  · intro names hnames
    refine hbare names ?_
    rintro ⟨rest, rfl⟩
    have hsame := hnames ((List.prefix_append place ns).trans (List.prefix_append _ rest))
    rw [List.append_assoc, List.append_right_eq_self] at hsame
    exact hne (List.append_eq_nil_iff.mp hsame).1
  · intro names target htarget
    by_cases hprefix : place ++ ns <+: names
    · obtain ⟨rest, rfl⟩ := hprefix
      rw [hbelow] at htarget
      exact absurd (Node.eq_of_get?_leaf hm htarget).2 (hlink target)
    · have hlinked := hbare names hprefix
      rw [htarget] at hlinked
      obtain ⟨n, hn, hsame⟩ := Option.map_eq_some_iff.mp hlinked.symm
      cases n with
      | link target' => exact hn.trans (congrArg some hsame)
      | file _ _ => cases hsame
      | directory _ => cases hsame

end ChangedBelow

/-- A path leads to a directory below which no link stands. -/
def LeadsTo (fs : System) (base : String) (place : List String) : Prop :=
  ∃ es, fs.find base = .ok (place, .directory es) ∧ (Node.directory es).Unlinked

theorem LeadsTo.changed {base : String} {place : List String} (h : fs.LeadsTo base place)
    (hchanged : ChangedBelow place fs fs') : fs'.LeadsTo base place := by
  obtain ⟨es, hfind, hlinks⟩ := h
  obtain ⟨n', hfind', hout⟩ := hchanged.toGrows.find hfind
  obtain ⟨es', rfl⟩ := Node.outline_eq_directory hout
  refine ⟨es', hfind', fun names target hlink => ?_⟩
  have hnew : fs'.get? (place ++ names) = some (.link (.path target)) := by
    rw [get?_append (get?_of_find hfind'), hlink]
  have hold := hchanged.link _ _ hnew
  rw [get?_append (get?_of_find hfind)] at hold
  exact hlinks names target hold

private theorem filter_trimDots (xs : List String) :
    (trimDots xs).filter (· ≠ ".") = xs.filter (· ≠ ".") := by
  induction xs using List.reverseRecOn with
  | nil => rfl
  | append_singleton xs x ih =>
    rw [trimDots_concat]
    split
    · rename_i hx
      rw [ih, hx, List.filter_append]
      simp
    · rfl

section

variable {base p : String} {place ns : List String}

private theorem LeadsTo.makeDirectory (hbase : fs.LeadsTo base place) (hp : p ≠ "")
    (hns : ∀ s ∈ ns, IsName s) (h : components p = components base ++ ns.map .name)
    (hmake : fs.makeDirectory p = .ok fs') : ChangedBelow place fs fs' := by
  obtain ⟨es, hfind, hlinks⟩ := hbase
  by_cases hne : ns = []
  · subst hne
    rw [List.map_nil, List.append_nil] at h
    rw [makeDirectory_of_find (find_of_components hfind hp h)] at hmake
    cases hmake
  · rw [makeDirectory_eq hp, start_of_components h] at hmake
    split at hmake
    · rename_i r hwalk
      obtain rfl := Except.ok.inj hmake
      obtain rfl : r = place ++ ns := by
        refine walk_names hfind hlinks hns hne ?_ hwalk
        rw [filter_trimDots, filter_steps_of_components h]
      have hstart : fs.get? (fs.start base) ≠ none := get?_start_ne_none (locate_of_find hfind)
      obtain ⟨above, name, es', habove, hdir, hnew⟩ := walk_new hstart hwalk
      have hparent : fs.get? (place ++ ns).dropLast = some (.directory es') := by
        rw [habove, List.dropLast_concat, hdir]
      refine ChangedBelow.put hne hparent rfl (by simp) fun k hk => ?_
      rw [habove, get?_concat hdir, hnew] at hk
      cases hk
    · cases hmake
    · cases hmake

/-- The directory that a path below another one is in. -/
theorem LeadsTo.parent? (hbase : fs.LeadsTo base place) {name parent : String}
    (h : components p = components base ++ (ns ++ [name]).map .name)
    (hparent : Path.parent? p = some parent) :
    parent ≠ "" ∧ components parent = components base ++ ns.map .name := by
  obtain ⟨es, hfind, _⟩ := hbase
  have hlast : components p = components base ++ ns.map .name ++ [.name name] := by
    rw [h, List.map_append, List.append_assoc]
    rfl
  have hfile : fileName? p = some name := by rw [fileName?, hlast, List.getLast?_concat]
  obtain ⟨parent', hparent', hcomponents⟩ := components_parent? hfile
  obtain rfl := Option.some.inj (hparent.symm.trans hparent')
  have habove := List.append_cancel_right (hcomponents.symm.trans hlast)
  refine ⟨?_, habove⟩
  rintro rfl
  have hnone : components base ++ ns.map .name = [] := habove.symm
  exact ne_empty_of_find hfind (components_eq_nil (List.append_eq_nil_iff.mp hnone).1)

/-- So are the directories that are made for it to be in. -/
theorem LeadsTo.makeDirectories (hbase : fs.LeadsTo base place) (hp : p ≠ "")
    (hns : ∀ s ∈ ns, IsName s) (h : components p = components base ++ ns.map .name) :
    ChangedBelow place fs (fs.makeDirectories p).2 := by
  rw [System.makeDirectories]
  generalize p.length + 1 = depth
  induction depth generalizing fs p ns with
  | zero => exact .refl place fs
  | succ depth ih =>
    rw [makeDirectories.go, if_neg (by simpa using hp)]
    split
    · rename_i fs₁ hmake
      exact hbase.makeDirectory hp hns h hmake
    rename_i fault hmake
    split
    · split <;> exact .refl place fs
    · rename_i hmissing
      split
      · exact .refl place fs
      · rename_i parent hparent
        have hne : ns ≠ [] := by
          rintro rfl
          obtain ⟨es, hfind, _⟩ := hbase
          rw [List.map_nil, List.append_nil] at h
          rw [makeDirectory_of_find (find_of_components hfind hp h)] at hmake
          obtain rfl := Except.error.inj hmake
          exact hmissing (by decide)
        obtain ⟨front, name, rfl⟩ : ∃ front name, ns = front ++ [name] :=
          ⟨_, _, (List.dropLast_concat_getLast hne).symm⟩
        obtain ⟨hparent', habove⟩ := hbase.parent? h hparent
        have hmade := ih hbase hparent' (fun s hs => hns s (List.mem_append_left _ hs)) habove
        cases hgo : makeDirectories.go depth fs parent with
        | mk r fs₁ =>
          rw [hgo] at hmade
          cases r with
          | error fault => exact hmade
          | ok _ =>
            dsimp only
            split
            · rename_i fs₂ hagain
              exact hmade.trans ((hbase.changed hmade).makeDirectory hp hns h hagain)
            · split <;> exact hmade

/-- A path that leads below leads where its names say. -/
theorem LeadsTo.locate {follow : Bool} (hbase : fs.LeadsTo base place) (hns : ∀ s ∈ ns, IsName s)
    (hne : ns ≠ []) (h : components p = components base ++ ns.map .name) {r : List String}
    {node : Option Node} (hlocate : fs.locate follow p = .ok ⟨r, node⟩) : r = place ++ ns := by
  obtain ⟨es, hfind, hlinks⟩ := hbase
  rw [System.locate] at hlocate
  split at hlocate
  · cases hlocate
  · rw [start_of_components h] at hlocate
    exact walk_names hfind hlinks hns hne (filter_steps_of_components h) hlocate

/-- A file that could be written is below. -/
theorem LeadsTo.write (hbase : fs.LeadsTo base place) (hns : ∀ s ∈ ns, IsName s) (hne : ns ≠ [])
    (h : components p = components base ++ ns.map .name) {text : Text}
    (hwrite : fs.write p text = .ok fs') : ChangedBelow place fs fs' := by
  obtain ⟨r, old, x, hold, rfl⟩ | ⟨r, hnew, rfl⟩ := file_or_new_of_write hwrite
  · obtain rfl := hbase.locate hns hne h hold
    have hfile : fs.get? (place ++ ns) = some (.file old x) := get?_of_find (find_of_locate hold)
    obtain ⟨above, name, habove⟩ : ∃ above name, place ++ ns = above ++ [name] :=
      ⟨_, _, (List.dropLast_concat_getLast (by simp [hne])).symm⟩
    obtain ⟨es', hdir⟩ := Node.exists_directory_of_get?_append (habove ▸ hfile)
    have hparent : fs.get? (place ++ ns).dropLast = some (.directory es') := by
      rw [habove, List.dropLast_concat, get?, hdir]
    refine ChangedBelow.put hne hparent rfl (by simp) fun k hk => ?_
    rw [hfile, Option.some.injEq] at hk
    subst hk
    exact ⟨rfl, rfl⟩
  · obtain rfl := hbase.locate hns hne h hnew
    have hstart : fs.get? (fs.start p) ≠ none := get?_start_ne_none hnew
    rw [System.locate] at hnew
    split at hnew
    · cases hnew
    obtain ⟨above, name, es', habove, hdir, hlookup⟩ := walk_new hstart hnew
    have hparent : fs.get? (place ++ ns).dropLast = some (.directory es') := by
      rw [habove, List.dropLast_concat, hdir]
    refine ChangedBelow.put hne hparent rfl (by simp) fun k hk => ?_
    rw [habove, get?_concat hdir, hlookup] at hk
    cases hk

end

end Files.System

end RepairSearch
