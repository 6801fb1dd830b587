import RepairSearch.Proofs.Files.Path
import RepairSearch.Proofs.Files.Tree

/-!
# Walks

Where the steps of a path lead. A walk through a directory goes on from that directory, and one
below which no link stands ends where its names say. Walks end in the same places when files change
and new entries are made.
-/

namespace RepairSearch.Files.System

section

variable {fs : System} {follow : Bool} {links : Nat} {here : List String} {step : String}
  {rest : List String} {es : List (String × Node)}

theorem steps_eq (path : String) :
    steps path = Path.names path ++ if Path.endsInSlash path then ["."] else [] := by
  rw [steps, Path.names]
  split <;> simp

theorem walk_dot (hdir : fs.get? here = some (.directory es)) :
    fs.walk follow links here ("." :: rest) = fs.walk follow links here rest := by
  rw [walk, hdir]
  rfl

theorem walk_up (hdir : fs.get? here = some (.directory es)) :
    fs.walk follow links here (".." :: rest) = fs.walk follow links here.dropLast rest := by
  rw [walk, hdir]
  rfl

theorem walk_missing (hdir : fs.get? here = some (.directory es)) (hdot : step ≠ ".")
    (hup : step ≠ "..") (hstep : es.lookup step = none) :
    fs.walk follow links here (step :: rest) =
      if rest.isEmpty then .ok ⟨here ++ [step], none⟩ else .error .missing := by
  rw [walk, hdir]
  simp only [if_neg hdot, if_neg hup, hstep]

theorem walk_link {target : String} (hdir : fs.get? here = some (.directory es))
    (hdot : step ≠ ".") (hup : step ≠ "..") (hstep : es.lookup step = some (.link (.path target)))
    (hfollow : (rest.isEmpty && !follow) = false) :
    fs.walk follow (links + 1) here (step :: rest) =
      fs.walk follow links (if Path.isAbsolute target then [] else here)
        (steps target ++ rest) := by
  rw [walk, hdir]
  simp only [if_neg hdot, if_neg hup, hstep, hfollow, Bool.false_eq_true, if_false]

theorem walk_into {m : Node} (hdir : fs.get? here = some (.directory es)) (hdot : step ≠ ".")
    (hup : step ≠ "..") (hstep : es.lookup step = some m)
    (hm : ∀ target, m ≠ .link (.path target)) :
    fs.walk follow links here (step :: rest) = fs.walk follow links (here ++ [step]) rest := by
  rw [walk, hdir]
  simp only [if_neg hdot, if_neg hup, hstep]

theorem walk_notDirectory (hdir : ∀ es, fs.get? here ≠ some (.directory es)) :
    fs.walk follow links here (step :: rest) = .error .notDirectory := by
  rw [walk]
  split
  · rename_i h
    exact absurd h (hdir _)
  · rfl

theorem get?_append {n : Node} (hn : fs.get? here = some n) (names : List String) :
    fs.get? (here ++ names) = n.get? names := by
  rw [get?, Node.get?_append, ← get?, hn, Option.bind_some]

theorem get?_concat (hdir : fs.get? here = some (.directory es)) :
    fs.get? (here ++ [step]) = es.lookup step := by
  rw [get?_append hdir, Node.get?_singleton, Node.entries_directory]

private theorem walk_node {xs p : List String} {node : Option Node}
    (h : fs.walk follow links here xs = .ok ⟨p, node⟩) : node = fs.get? p := by
  -- the end, a dot, two dots, a new name last and on the way, a link that is not followed, one too
  -- many, one that is followed, any other node, and no directory to go on from
  fun_induction fs.walk follow links here xs with
  | case1 =>
    obtain ⟨rfl, rfl⟩ : _ ∧ _ := by simpa using h
    rfl
  | case2 _ _ _ _ _ ih | case3 _ _ _ _ _ _ ih | case9 _ _ _ _ _ _ _ _ _ _ _ ih => exact ih h
  | case4 _ _ _ _ _ hdir _ _ hstep _ | case6 _ _ _ _ _ hdir _ _ _ hstep _ =>
    obtain ⟨rfl, rfl⟩ : _ ∧ _ := by simpa using h
    rw [get?_concat hdir, hstep]
  | case5 | case7 | case10 => cases h
  | case8 _ _ _ _ _ _ _ _ _ _ _ ih => exact ih (by simpa using h)

theorem walk_append {xs ys p : List String} {n : Node} (follow : Bool)
    (hys : (ys.isEmpty && !follow) = false) (h : fs.walk true links here xs = .ok ⟨p, some n⟩) :
    ∃ links', fs.walk follow links here (xs ++ ys) = fs.walk follow links' p ys := by
  fun_induction fs.walk true links here xs with
  | case1 links here =>
    obtain ⟨rfl, _⟩ : _ ∧ _ := by simpa using h
    exact ⟨links, rfl⟩
  | case2 _ _ _ _ hdir ih =>
    rw [List.cons_append, walk_dot hdir]
    exact ih h
  | case3 _ _ _ _ hdir _ ih =>
    rw [List.cons_append, walk_up hdir]
    exact ih h
  | case4 | case5 | case7 | case10 => cases h
  | case6 _ _ _ _ _ _ _ _ _ _ hrest => simp at hrest
  | case8 _ _ _ _ hdir hdot hup _ hstep _ _ ih =>
    -- `ys` stands behind the link, so it is followed whatever `follow` says
    have hrest : ∀ rest : List String, ((rest ++ ys).isEmpty && !follow) = false := by
      intro rest
      cases rest with
      | nil => exact hys
      | cons _ _ => rfl
    rw [List.cons_append, walk_link hdir hdot hup hstep (hrest _), ← List.append_assoc]
    simpa using ih (by simpa using h)
  | case9 _ _ _ _ _ hdir hdot hup _ hm hstep ih =>
    rw [List.cons_append, walk_into hdir hdot hup hstep hm]
    exact ih h

/-- A dot at the end of a path asks for a directory and leads nowhere else. -/
theorem walk_of_walk_concat_dot {xs p : List String} {n : Node}
    (h : fs.walk true links here (xs ++ ["."]) = .ok ⟨p, some n⟩) :
    fs.walk true links here xs = .ok ⟨p, some n⟩ := by
  fun_induction fs.walk true links here xs with
  | case1 links here =>
    by_cases hdir : ∃ es, fs.get? here = some (.directory es)
    · obtain ⟨es, hdir⟩ := hdir
      rwa [List.nil_append, walk_dot hdir, walk] at h
    · rw [List.nil_append, walk_notDirectory fun es hes => hdir ⟨es, hes⟩] at h
      cases h
  | case2 _ _ _ _ hdir ih =>
    rw [List.cons_append, walk_dot hdir] at h
    exact ih h
  | case3 _ _ _ _ hdir _ ih =>
    rw [List.cons_append, walk_up hdir] at h
    exact ih h
  | case4 _ _ _ _ _ hdir hdot hup hstep _ | case5 _ _ _ _ _ hdir hdot hup hstep _ =>
    rw [List.cons_append, walk_missing hdir hdot hup hstep] at h
    simp at h
  | case6 _ _ _ _ _ _ _ _ _ _ hrest => simp at hrest
  | case7 _ _ _ _ hdir hdot hup _ hstep _ =>
    rw [List.cons_append, walk, hdir] at h
    simp [hdot, hup, hstep] at h
  | case8 _ _ _ _ hdir hdot hup _ hstep _ _ ih =>
    rw [List.cons_append, walk_link hdir hdot hup hstep (by simp), ← List.append_assoc] at h
    exact ih (by simpa using h)
  | case9 _ _ _ _ _ hdir hdot hup _ hm hstep ih =>
    rw [List.cons_append, walk_into hdir hdot hup hstep hm] at h
    exact ih h
  | case10 _ _ _ _ hdir =>
    rw [List.cons_append, walk_notDirectory hdir] at h
    cases h

/-- Links are followed to the end. -/
theorem walk_ne_link {xs p : List String} {n : Node}
    (hroot : ∀ target, fs.get? [] ≠ some (.link (.path target)))
    (hhere : ∀ target, fs.get? here ≠ some (.link (.path target)))
    (h : fs.walk true links here xs = .ok ⟨p, some n⟩) : ∀ target, n ≠ .link (.path target) := by
  fun_induction fs.walk true links here xs with
  | case1 links here =>
    obtain ⟨rfl, hn⟩ : _ ∧ _ := by simpa using h
    rintro target rfl
    exact hhere target hn
  | case2 _ _ _ _ _ ih => exact ih hhere h
  | case3 _ here _ _ hdir _ ih =>
    refine ih (fun target hlink => ?_) h
    rcases List.eq_nil_or_concat here with rfl | ⟨above, name, rfl⟩
    · exact hroot target hlink
    · rw [List.concat_eq_append] at hdir hlink
      obtain ⟨es, hes⟩ := Node.exists_directory_of_get?_append hdir
      rw [List.dropLast_concat, get?, hes] at hlink
      cases hlink
  | case4 | case5 | case7 | case10 => cases h
  | case6 _ _ _ _ _ _ _ _ _ _ hrest => simp at hrest
  | case8 _ _ _ _ _ _ _ target _ _ _ ih =>
    refine ih ?_ (by simpa using h)
    split
    · exact hroot
    · exact hhere
  | case9 _ _ _ _ _ hdir _ _ _ hm hstep ih =>
    refine ih (fun target hlink => ?_) h
    rw [get?_concat hdir, hstep, Option.some.injEq] at hlink
    exact hm target hlink

/-- Where no link stands, a walk ends where its names say. -/
theorem walk_below {n : Node} {xs p : List String} {node : Option Node}
    (hn : fs.get? here = some n) (hlinks : n.Unlinked) (hup : ".." ∉ xs)
    (h : fs.walk follow links here xs = .ok ⟨p, node⟩) : p = here ++ xs.filter (· ≠ ".") := by
  induction xs generalizing here n with
  | nil =>
    rw [walk] at h
    obtain ⟨rfl, _⟩ : _ ∧ _ := by simpa using h
    simp
  | cons step xs ih =>
    have hup' : ".." ∉ xs := fun hmem => hup (List.mem_cons_of_mem step hmem)
    have hstepup : step ≠ ".." := fun heq => hup (heq ▸ List.mem_cons_self)
    by_cases hdir : ∃ es, n = .directory es
    · obtain ⟨es, rfl⟩ := hdir
      by_cases hdot : step = "."
      · rw [hdot, walk_dot hn] at h
        simpa [hdot] using ih hn hlinks hup' h
      · cases hstep : es.lookup step with
        | none =>
          rw [walk_missing hn hdot hstepup hstep] at h
          split at h
          · rename_i hnil
            obtain ⟨rfl, _⟩ : _ ∧ _ := by simpa using h
            simp [List.isEmpty_iff.mp hnil, hdot]
          · cases h
        | some m =>
          have hm : (Node.directory es).get? [step] = some m := by
            rw [Node.get?_singleton, Node.entries_directory, hstep]
          have hmlink : ∀ target, m ≠ .link (.path target) := by
            rintro target rfl
            exact hlinks _ _ hm
          rw [walk_into hn hdot hstepup hstep hmlink] at h
          have hbelow := ih (get?_concat hn ▸ hstep) (hlinks.get? hm) hup' h
          simpa [hdot] using hbelow
    · rw [walk_notDirectory fun es hes => hdir ⟨es, by simpa [hn] using hes⟩] at h
      cases h

theorem walk_to {n m : Node} {names : List String} (hn : fs.get? here = some n)
    (hdots : ∀ name ∈ names, name ≠ "." ∧ name ≠ "..") (hm : n.get? names = some m)
    (hlink : ∀ target, m ≠ .link (.path target)) :
    fs.walk follow links here names = .ok ⟨here ++ names, some m⟩ := by
  induction names generalizing here n with
  | nil =>
    rw [Node.get?_nil] at hm
    rw [walk, hn, hm, List.append_nil]
  | cons name names ih =>
    obtain ⟨es, rfl⟩ := Node.exists_directory_of_get? hm
    obtain ⟨child, hchild, hrest⟩ := Node.get?_directory_cons.mp hm
    obtain ⟨hdot, hup⟩ := hdots name List.mem_cons_self
    -- a link has nothing below it, so it could only stand at the end
    have hchildlink : ∀ target, child ≠ .link (.path target) := by
      rintro target rfl
      cases names with
      | nil => exact hlink target (by simpa using hrest.symm)
      | cons _ _ => exact absurd (Node.exists_directory_of_get? hrest) (by simp)
    rw [walk_into hn hdot hup hchild hchildlink, ih (get?_concat hn ▸ hchild)
      (fun k hk => hdots k (List.mem_cons_of_mem name hk)) hrest,
      List.append_assoc, List.singleton_append]

end

/-- Whatever stands somewhere stays there and stays what it is, apart from the content of files and
new entries of directories. -/
structure Grows (fs fs' : System) : Prop where
  workingDirectory : fs'.workingDirectory = fs.workingDirectory
  outline : ∀ names n, fs.get? names = some n →
    ∃ n', fs'.get? names = some n' ∧ n'.outline = n.outline

namespace Grows

variable {fs fs' : System}

private theorem directory (h : Grows fs fs') {names : List String} {es : List (String × Node)}
    (hes : fs.get? names = some (.directory es)) :
    ∃ es', fs'.get? names = some (.directory es') := by
  obtain ⟨n', hn', hout⟩ := h.outline names _ hes
  obtain ⟨es', rfl⟩ := Node.outline_eq_directory hout
  exact ⟨es', hn'⟩

/-- New entries behind those of a directory. -/
theorem put_append {place : List String} {es : List (String × Node)}
    (hplace : fs.get? place = some (.directory es)) (more : List (String × Node)) :
    Grows fs (fs.put place (.directory (es ++ more))) := by
  refine ⟨rfl, fun names n hn => ?_⟩
  by_cases hprefix : place <+: names
  · obtain ⟨rest, rfl⟩ := hprefix
    rw [get?_append hplace] at hn
    rw [System.get?, System.put, Node.get?_put_append]
    cases rest with
    | nil =>
      obtain rfl : Node.directory es = n := by simpa using hn
      exact ⟨_, Node.get?_nil _, rfl⟩
    | cons name rest =>
      obtain ⟨m, hm, hrest⟩ := Node.get?_directory_cons.mp hn
      refine ⟨n, Node.get?_directory_cons.mpr ⟨m, ?_, hrest⟩, rfl⟩
      rw [List.lookup_append, hm, Option.some_or]
  · have hbare := Node.bare_get?_put_of_get? (.directory (es ++ more)) hplace hprefix
    have hout := congrArg (Option.map Node.outline) hbare
    rw [Option.map_map, Option.map_map, Node.outline_comp_bare, ← System.get?, hn] at hout
    exact Option.map_eq_some_iff.mp hout

private theorem entry (h : Grows fs fs') {here : List String} {step : String} {m : Node}
    {es : List (String × Node)} (hdir : fs.get? here = some (.directory es))
    (hstep : es.lookup step = some m) :
    ∃ es' m', fs'.get? here = some (.directory es') ∧ es'.lookup step = some m' ∧
      m'.outline = m.outline := by
  obtain ⟨es', hdir'⟩ := h.directory hdir
  obtain ⟨m', hm', hout⟩ := h.outline _ m (get?_concat hdir ▸ hstep)
  exact ⟨es', m', hdir', get?_concat hdir' ▸ hm', hout⟩

/-- A walk ends where it did, also if something that is no link was made there since. -/
theorem walk {links : Nat} {here xs p : List String} {node : Option Node} (h : Grows fs fs')
    (hnew : node = none → ∀ target, fs'.get? p ≠ some (.link (.path target)))
    (hwalk : fs.walk true links here xs = .ok ⟨p, node⟩) :
    fs'.walk true links here xs = .ok ⟨p, fs'.get? p⟩ := by
  fun_induction fs.walk true links here xs with
  | case1 links here =>
    obtain ⟨rfl, _⟩ : _ ∧ _ := by simpa using hwalk
    rw [System.walk]
  | case2 _ _ _ _ hdir ih =>
    obtain ⟨es', hdir'⟩ := h.directory hdir
    rw [walk_dot hdir']
    exact ih hwalk
  | case3 _ _ _ _ hdir _ ih =>
    obtain ⟨es', hdir'⟩ := h.directory hdir
    rw [walk_up hdir']
    exact ih hwalk
  | case4 _ here step rest _ hdir hdot hup _ hrest =>
    obtain ⟨rfl, rfl⟩ : _ ∧ _ := by simpa using hwalk
    obtain rfl : rest = [] := by simpa using hrest
    obtain ⟨es', hdir'⟩ := h.directory hdir
    cases hstep' : es'.lookup step with
    | none => rw [walk_missing hdir' hdot hup hstep', get?_concat hdir', hstep', List.isEmpty_nil,
        if_pos rfl]
    | some m =>
      refine (walk_into hdir' hdot hup hstep' ?_).trans (by rw [System.walk])
      rintro target rfl
      exact hnew rfl target ((get?_concat hdir').trans hstep')
  | case5 | case7 | case10 => cases hwalk
  | case6 _ _ _ _ _ _ _ _ _ _ hrest => simp at hrest
  | case8 _ _ _ _ hdir hdot hup target hstep _ _ ih =>
    obtain ⟨es', m', hdir', hstep', hout⟩ := h.entry hdir hstep
    rw [Node.outline_eq_link.mp hout] at hstep'
    rw [walk_link hdir' hdot hup hstep' (by simp)]
    simpa using ih (by simpa using hwalk)
  | case9 _ _ _ _ _ hdir hdot hup _ hm hstep ih =>
    obtain ⟨es', m', hdir', hstep', hout⟩ := h.entry hdir hstep
    refine (walk_into hdir' hdot hup hstep' ?_).trans (ih hwalk)
    rintro target rfl
    exact hm target (Node.outline_eq_link.mp hout.symm)

private theorem locate (h : Grows fs fs') {path : String} {names : List String} {n : Node}
    (hpath : fs.locate true path = .ok ⟨names, some n⟩) :
    fs'.locate true path = .ok ⟨names, fs'.get? names⟩ := by
  rw [System.locate] at hpath ⊢
  split at hpath
  · cases hpath
  · rename_i hempty
    rw [if_neg hempty]
    have hstart : fs'.start path = fs.start path := by rw [start, start, h.workingDirectory]
    rw [hstart]
    exact h.walk (by simp) hpath

end Grows

section

variable {fs : System} {path : String} {names : List String} {n : Node}

theorem locate_of_find (h : fs.find path = .ok (names, n)) :
    fs.locate true path = .ok ⟨names, some n⟩ := by
  rw [find] at h
  split at h
  · rename_i hlocate
    obtain ⟨rfl, rfl⟩ : _ ∧ _ := by simpa using h
    exact hlocate
  · cases h
  · cases h

theorem find_of_locate (h : fs.locate true path = .ok ⟨names, some n⟩) :
    fs.find path = .ok (names, n) := by
  rw [find, h]

theorem get?_of_find (h : fs.find path = .ok (names, n)) : fs.get? names = some n := by
  have hlocate := locate_of_find h
  rw [locate] at hlocate
  split at hlocate
  · cases hlocate
  · exact (walk_node hlocate).symm

theorem find_of_read {content : Text} (h : fs.read path = .ok content) :
    ∃ names content x, fs.find path = .ok (names, .file content x) := by
  rw [read] at h
  split at h
  · rename_i names content x hfind
    exact ⟨names, content, x, hfind⟩
  · cases h
  · cases h
  · cases h

theorem ne_empty_of_find (h : fs.find path = .ok (names, n)) : path ≠ "" := by
  rintro rfl
  have hlocate := locate_of_find h
  rw [locate] at hlocate
  cases hlocate

theorem locate_join {rel : String} (follow : Bool) (h : fs.find path = .ok (names, n))
    (hrel : Path.isAbsolute rel = false) (hend : rel ≠ "" ∨ follow = true) :
    ∃ links dots, fs.locate follow (Path.join path rel) =
        fs.walk follow links names (Path.names rel ++ dots) ∧
      (∀ d ∈ dots, d = ".") ∧ ((Path.segments rel).getLast? ≠ some "" → dots = []) := by
  have hpath := ne_empty_of_find h
  have hwalk : fs.walk true maxLinks (fs.start path) (Path.names path) = .ok ⟨names, some n⟩ := by
    have hlocate := locate_of_find h
    rw [locate, if_neg (by simpa using hpath), steps_eq] at hlocate
    split at hlocate
    · exact walk_of_walk_concat_dot hlocate
    · rwa [List.append_nil] at hlocate
  have hstart : fs.start (Path.join path rel) = fs.start path := by
    rw [start, start, Path.isAbsolute_join hpath hrel]
  set dots := if Path.endsInSlash (Path.join path rel) then ["."] else [] with hdots
  have hys : ((Path.names rel ++ dots).isEmpty && !follow) = false := by
    rcases hend with hne | rfl
    · simp [Path.names_ne_nil hne hrel]
    · rw [Bool.not_true, Bool.and_false]
  obtain ⟨links, happend⟩ := walk_append follow hys hwalk
  refine ⟨links, dots, ?_, ?_, fun hlast => ?_⟩
  · rw [locate, if_neg (by simpa using Path.join_ne_empty hpath hrel), steps_eq, hstart,
      Path.names_join hpath hrel, List.append_assoc]
    exact happend
  · rw [hdots]
    split <;> simp
  · rw [hdots, Path.endsInSlash_join hpath hrel hlast]
    rfl

/-- A path leads to the same place when a file system grows. -/
theorem Grows.find {fs' : System} (h : Grows fs fs') (hfind : fs.find path = .ok (names, n)) :
    ∃ n', fs'.find path = .ok (names, n') ∧ n'.outline = n.outline := by
  obtain ⟨n', hn', hout⟩ := h.outline names n (get?_of_find hfind)
  refine ⟨n', find_of_locate ?_, hout⟩
  rw [h.locate (locate_of_find hfind), hn']

/-- What is put where a path leads is found by this path. -/
theorem Grows.find_put {m : Node} (h : Grows fs (fs.put names m))
    (hfind : fs.find path = .ok (names, n)) : (fs.put names m).find path = .ok (names, m) := by
  obtain ⟨n', hfind', _⟩ := h.find hfind
  have hn' := get?_of_find hfind'
  rw [get?, put, Node.get?_put_self, Option.some.injEq] at hn'
  rwa [← hn'] at hfind'

end

end RepairSearch.Files.System
