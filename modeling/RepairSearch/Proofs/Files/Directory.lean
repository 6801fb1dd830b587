import Mathlib.Data.List.Induction
import RepairSearch.Proofs.Files.Place

/-!
# Making directories

A directory is made with a new name in a directory that is there. Directories that are there are
left as they are.
-/

namespace RepairSearch.Files.System

variable {fs : System} {path name : String} {names : List String} {n : Node}
  {es : List (String × Node)}

private theorem ofParts_singleton (name : String) : Path.ofParts false [name] = name := by
  simp [Path.ofParts]

private theorem isAbsolute_name (h : IsName name) : Path.isAbsolute name = false := by
  rw [← ofParts_singleton name]
  exact isAbsolute_ofParts_names (by simpa using h)

private theorem getLast?_segments_name (h : IsName name) :
    (Path.segments name).getLast? ≠ some "" := by
  rw [← ofParts_singleton name]
  exact getLast?_segments_ofParts_names (by simpa using h) (by simp)

private theorem names_name (h : IsName name) : Path.names name = [name] := by
  rw [← ofParts_singleton name, names_ofParts_names (by simpa using h), ofParts_singleton]

private theorem locate_join_name (follow : Bool) (h : fs.find path = .ok (names, n))
    (hname : IsName name) :
    ∃ links, fs.locate follow (Path.join path name) = fs.walk follow links names [name] := by
  rw [← ofParts_singleton name]
  exact locate_join_names follow h (by simpa using hname) (by simp)

theorem locate_join_new (follow : Bool) (h : fs.find path = .ok (names, .directory es))
    (hname : IsName name) (hnew : es.lookup name = none) :
    fs.locate follow (Path.join path name) = .ok ⟨names ++ [name], none⟩ := by
  obtain ⟨links, hlocate⟩ := locate_join_name follow h hname
  rw [hlocate, walk_missing (get?_of_find h) hname.ne_dot hname.ne_up hnew]
  rfl

theorem find_join (h : fs.find path = .ok (names, .directory es)) (hname : IsName name)
    (hn : es.lookup name = some n) (hlink : ∀ target, n ≠ .link (.path target)) :
    fs.find (Path.join path name) = .ok (names ++ [name], n) := by
  obtain ⟨links, hlocate⟩ := locate_join_name true h hname
  refine find_of_locate (hlocate.trans ?_)
  refine walk_to (get?_of_find h) ?_ ?_ hlink
  · simpa using ⟨hname.ne_dot, hname.ne_up⟩
  · rw [Node.get?_singleton, Node.entries_directory, hn]

/-- What a directory has an entry for is there, links apart. -/
theorem contains_join (h : fs.find path = .ok (names, .directory es)) (hname : IsName name)
    (hlink : ∀ e ∈ es, ∀ target, e.2 ≠ .link (.path target)) :
    fs.contains (Path.join path name) = (es.lookup name).isSome := by
  cases hn : es.lookup name with
  | none =>
    rw [contains, find, locate_join_new true h hname hn]
    rfl
  | some n =>
    rw [contains, find_join h hname hn (hlink _ (Node.mem_of_lookup hn))]
    rfl

private theorem getLast?_steps_join_name (hpath : path ≠ "") (hname : IsName name) :
    (steps (Path.join path name)).getLast? = some name := by
  have habs := isAbsolute_name hname
  rw [steps_eq, Path.endsInSlash_join hpath habs (getLast?_segments_name hname),
    Path.names_join hpath habs, names_name hname]
  simp

theorem put_concat (hdir : fs.get? names = some (.directory es)) (hnew : es.lookup name = none)
    (m : Node) : fs.put (names ++ [name]) m = fs.put names (.directory (es ++ [(name, m)])) := by
  have hself : fs.put names (.directory es) = fs := by rw [put, Node.put_of_get? hdir]
  calc fs.put (names ++ [name]) m
      = (fs.put names (.directory es)).put (names ++ [name]) m := by rw [hself]
    _ = fs.put names ((Node.directory es).put [name] m) := by
      rw [put, put, put, Node.put_put_append]
    _ = fs.put names (.directory (es ++ [(name, m)])) := by
      rw [Node.put_cons, Node.put_nil, Node.entries_directory, Node.putEntry_of_lookup _ hnew]

/-- A file with a new name is written behind the entries of its directory. -/
theorem update_new (h : fs.find path = .ok (names, .directory es)) (hname : IsName name)
    (hnew : es.lookup name = none) (content : Text → Text) (executable : Bool) :
    fs.update (Path.join path name) content executable =
      .ok (fs.put names (.directory (es ++ [(name, .file (content []) executable)]))) := by
  rw [update, locate_join_new true h hname hnew]
  dsimp only
  rw [put_concat (get?_of_find h) hnew]

theorem put_put (n m : Node) : (fs.put names n).put names m = fs.put names m := by
  have h := Node.put_put_append fs.root n m names []
  rw [List.append_nil, Node.put_nil] at h
  rw [put, put, put, h]

theorem put_concat_concat (hnew : es.lookup name = none) (m m' : Node) :
    (fs.put names (.directory (es ++ [(name, m)]))).put (names ++ [name]) m' =
      fs.put names (.directory (es ++ [(name, m')])) := by
  have hentries : Node.putEntry (es ++ [(name, m)]) name m' = es ++ [(name, m')] := by
    rw [← Node.putEntry_of_lookup m hnew, Node.putEntry_putEntry, Node.putEntry_of_lookup m' hnew]
  rw [put, put, put, Node.put_put_append, Node.put_cons, Node.put_nil, Node.entries_directory,
    hentries]

theorem find_put_append (h : fs.find path = .ok (names, .directory es))
    (more : List (String × Node)) :
    (fs.put names (.directory (es ++ more))).find path =
      .ok (names, .directory (es ++ more)) :=
  (Grows.put_append (get?_of_find h) more).find_put h

/-- Steps without the dots at their end, which ask for a directory. -/
def trimDots (xs : List String) : List String := (xs.reverse.dropWhile (· = ".")).reverse

theorem trimDots_concat (xs : List String) (x : String) :
    trimDots (xs ++ [x]) = if x = "." then trimDots xs else xs ++ [x] := by
  rw [trimDots, List.reverse_concat, List.dropWhile_cons]
  by_cases hx : x = "."
  · simp [hx, trimDots]
  · simp [hx]

theorem makeDirectory_eq (hpath : path ≠ "") :
    fs.makeDirectory path =
      match fs.walk false maxLinks (fs.start path) (trimDots (steps path)) with
      | .ok ⟨names, none⟩ => .ok (fs.put names (.directory []))
      | .ok _ => .error .alreadyThere
      | .error fault => .error fault := by
  rw [makeDirectory, if_neg (by simpa using hpath)]
  rfl

private theorem makeDirectory_new (h : fs.find path = .ok (names, .directory es))
    (hname : IsName name) (hnew : es.lookup name = none) :
    fs.makeDirectory (Path.join path name) = .ok (fs.put (names ++ [name]) (.directory [])) := by
  have hpath := ne_empty_of_find h
  have hjoin := Path.join_ne_empty hpath (isAbsolute_name hname)
  obtain ⟨xs, hxs⟩ := List.getLast?_eq_some_iff.mp (getLast?_steps_join_name hpath hname)
  have htrim : trimDots (steps (Path.join path name)) = steps (Path.join path name) := by
    rw [hxs, trimDots_concat, if_neg hname.ne_dot]
  have hlocate := locate_join_new false h hname hnew
  rw [locate, if_neg (by simpa using hjoin)] at hlocate
  rw [makeDirectory_eq hjoin, htrim, hlocate]

private theorem walk_nofollow {links : Nat} {here xs p : List String}
    (h : fs.walk true links here xs = .ok ⟨p, some n⟩) :
    ∃ q m, fs.walk false links here xs = .ok ⟨q, some m⟩ := by
  fun_induction fs.walk true links here xs with
  | case1 links here =>
    rw [walk]
    exact ⟨p, n, h⟩
  | case2 _ _ _ _ hdir ih =>
    rw [walk_dot hdir]
    exact ih h
  | case3 _ _ _ _ hdir _ ih =>
    rw [walk_up hdir]
    exact ih h
  | case4 | case5 | case7 | case10 => cases h
  | case6 _ _ _ _ _ _ _ _ _ _ hrest => simp at hrest
  | case8 here step rest _ hdir hdot hup target hstep _ _ ih =>
    cases hrest : rest.isEmpty with
    | true =>
      refine ⟨here ++ [step], .link (.path target), ?_⟩
      rw [walk, hdir]
      simp [hdot, hup, hstep, hrest]
    | false =>
      rw [walk_link hdir hdot hup hstep (by rw [hrest, Bool.false_and])]
      simpa using ih (by simpa using h)
  | case9 _ _ _ _ _ hdir hdot hup _ hm hstep ih =>
    rw [walk_into hdir hdot hup hstep hm]
    exact ih h

private theorem walk_trimDots {links : Nat} {here xs p : List String}
    (h : fs.walk true links here xs = .ok ⟨p, some n⟩) :
    ∃ q m, fs.walk false links here (trimDots xs) = .ok ⟨q, some m⟩ := by
  induction xs using List.reverseRecOn with
  | nil => exact walk_nofollow h
  | append_singleton xs x ih =>
    rw [trimDots_concat]
    split
    · rename_i hx
      exact ih (walk_of_walk_concat_dot (hx ▸ h))
    · exact walk_nofollow h

theorem makeDirectory_of_find (h : fs.find path = .ok (names, n)) :
    fs.makeDirectory path = .error .alreadyThere := by
  have hpath := ne_empty_of_find h
  have hlocate := locate_of_find h
  rw [locate, if_neg (by simpa using hpath)] at hlocate
  obtain ⟨q, m, htrim⟩ := walk_trimDots hlocate
  rw [makeDirectory_eq hpath, htrim]

theorem makeDirectories_new (h : fs.find path = .ok (names, .directory es)) (hname : IsName name)
    (hnew : es.lookup name = none) :
    fs.makeDirectories (Path.join path name) =
      (.ok (), fs.put (names ++ [name]) (.directory [])) := by
  have hjoin := Path.join_ne_empty (ne_empty_of_find h) (isAbsolute_name hname)
  rw [makeDirectories, makeDirectories.go, if_neg (by simpa using hjoin),
    makeDirectory_new h hname hnew]

theorem makeDirectories_of_find (h : fs.find path = .ok (names, .directory es)) :
    fs.makeDirectories path = (.ok (), fs) := by
  have hdir : fs.isDirectory path = true := by rw [isDirectory, h]
  rw [makeDirectories, makeDirectories.go, if_neg (by simpa using ne_empty_of_find h),
    makeDirectory_of_find h]
  simp [hdir, Fault.alreadyThere, Fault.missing]

end RepairSearch.Files.System
