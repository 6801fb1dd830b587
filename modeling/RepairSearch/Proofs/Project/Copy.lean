import RepairSearch.Project.Copy
import RepairSearch.Proofs.Files.Directory
import RepairSearch.Proofs.Files.Legal
import RepairSearch.Proofs.Project.Workspace

/-!
# What a copy holds

A copy that is made in an empty directory always succeeds. It holds what the project holds, with the
same names and contents, except for what is left out somewhere on the way, for links and for special
files.
-/

namespace RepairSearch.Project

open Files

mutual

/-- What a copy holds of a node. -/
def kept? : Node → Option Node
  | .directory es => some (.directory (keptEntries es))
  | .file content executable => some (.file content executable)
  | .link (.path _) => none
  | .special => none

def keptEntries : List (String × Node) → List (String × Node)
  | [] => []
  | (name, n) :: rest =>
    if isSkipped name then keptEntries rest
    else ((kept? n).map (name, ·)).toList ++ keptEntries rest

end

@[simp] theorem kept?_link (target : Target) : kept? (.link target) = none := by
  cases target <;> rw [kept?]

private theorem lookup_append_entry (o : Option Node) (es : List (String × Node))
    (name k : String) :
    List.lookup k ((o.map (name, ·)).toList ++ es) =
      if k = name then o.or (es.lookup k) else es.lookup k := by
  cases o with
  | none => simp
  | some m =>
    rw [Option.map_some, Option.toList_some, List.singleton_append, Node.lookup_entry]
    rfl

private theorem lookup_keptEntries_of_not_mem {es : List (String × Node)} {name : String}
    (h : name ∉ es.map (·.1)) : (keptEntries es).lookup name = none := by
  induction es with
  | nil => rw [keptEntries, List.lookup_nil]
  | cons e es ih =>
    obtain ⟨l, n⟩ := e
    rw [List.map_cons, List.mem_cons, not_or] at h
    rw [keptEntries]
    split
    · exact ih h.2
    · rw [lookup_append_entry, if_neg h.1]
      exact ih h.2

private theorem lookup_keptEntries {es : List (String × Node)} (h : (es.map (·.1)).Nodup)
    (name : String) :
    (keptEntries es).lookup name =
      if isSkipped name then none else (es.lookup name).bind kept? := by
  induction es with
  | nil => simp [keptEntries]
  | cons e es ih =>
    obtain ⟨l, n⟩ := e
    obtain ⟨hl, hnodup⟩ := List.nodup_cons.mp h
    rw [keptEntries, Node.lookup_entry]
    by_cases hname : name = l
    · subst hname
      rw [if_pos rfl, Option.bind_some]
      split
      · exact lookup_keptEntries_of_not_mem hl
      · rw [lookup_append_entry, if_pos rfl, lookup_keptEntries_of_not_mem hl, Option.or_none]
    · rw [if_neg hname]
      split
      · exact ih hnodup
      · rw [lookup_append_entry, if_neg hname]
        exact ih hnodup

/-- A copy holds at each place what was there, unless something on the way is left out. -/
theorem get?_kept {n m : Node} {names : List String} (h : Legal n) (hm : kept? n = some m) :
    m.get? names = if names.any isSkipped then none else (n.get? names).bind kept? := by
  induction names generalizing n m with
  | nil => simp [hm]
  | cons name names ih =>
    cases n with
    | link _ => simp at hm
    | file content x =>
      obtain rfl : Node.file content x = m := by simpa [kept?] using hm
      simp [Node.get?_cons, Node.entries]
    | directory es =>
      obtain rfl : Node.directory (keptEntries es) = m := by simpa [kept?] using hm
      rw [Node.get?_cons, Node.entries_directory, lookup_keptEntries (h [] es (Node.get?_nil _)).1,
        Node.get?_cons, Node.entries_directory, List.any_cons]
      cases hskip : isSkipped name with
      | true => simp
      | false =>
        rw [if_neg Bool.false_ne_true, Bool.false_or]
        cases hchild : es.lookup name with
        | none => simp
        | some child =>
          rw [Option.bind_some, Option.bind_some]
          have hlegal := h.entry (Node.mem_of_lookup hchild)
          cases hkept : kept? child with
          | some m => exact ih hlegal hkept
          | none =>
            -- only links and special files are not kept, and nothing stands below them
            cases child with
            | link target => cases names <;> simp [Node.get?_cons, Node.entries]
            | file _ _ => simp [kept?] at hkept
            | directory _ => simp [kept?] at hkept

theorem unlinked_of_kept {n m : Node} (h : Legal n) (hm : kept? n = some m) : m.Unlinked := by
  intro names target hlink
  rw [get?_kept h hm] at hlink
  split at hlink
  · cases hlink
  · obtain ⟨child, _, hchild⟩ := Option.bind_eq_some_iff.mp hlink
    cases child with
    | link _ => simp at hchild
    | file _ _ | directory _ => simp [kept?] at hchild

private theorem names_keptEntries (es : List (String × Node)) :
    ((keptEntries es).map (·.1)).Sublist (es.map (·.1)) := by
  induction es with
  | nil => rw [keptEntries]
  | cons e es ih =>
    obtain ⟨name, n⟩ := e
    rw [keptEntries]
    split
    · exact ih.cons name
    · cases kept? n with
      | none => exact ih.cons name
      | some m => exact ih.cons_cons name

theorem legal_of_kept {n m : Node} (h : Legal n) (hm : kept? n = some m) : Legal m := by
  intro names es hes
  rw [get?_kept h hm] at hes
  split at hes
  · cases hes
  · obtain ⟨child, hchild, hkept⟩ := Option.bind_eq_some_iff.mp hes
    cases child with
    | link _ => simp at hkept
    | file _ _ => simp [kept?] at hkept
    | directory old =>
      obtain rfl : keptEntries old = es := by simpa [kept?] using hkept
      obtain ⟨hnodup, hnames⟩ := h names old hchild
      refine ⟨hnodup.sublist (names_keptEntries old), fun e he => ?_⟩
      obtain ⟨e', he', hsame⟩ := List.mem_map.mp ((names_keptEntries old).subset
        (List.mem_map.mpr ⟨e, he, rfl⟩))
      exact hsame ▸ hnames e' he'

/-- A copy holds nothing that another copy would leave out. -/
theorem keptEntries_keptEntries (es : List (String × Node)) :
    keptEntries (keptEntries es) = keptEntries es := by
  induction es using Node.induction_entries with
  | nil => rw [keptEntries, keptEntries]
  | cons name n rest hinner hrest =>
    have hkept : ∀ m, kept? n = some m → kept? m = some m := by
      intro m hm
      cases n with
      | link _ => simp at hm
      | file content x =>
        obtain rfl : Node.file content x = m := by simpa [kept?] using hm
        rw [kept?]
      | directory es =>
        obtain rfl : Node.directory (keptEntries es) = m := by simpa [kept?] using hm
        rw [kept?, hinner es rfl]
    rw [keptEntries]
    split
    · exact hrest
    · rename_i hskip
      cases hm : kept? n with
      | none => exact hrest
      | some m =>
        rw [Option.map_some, Option.toList_some, List.singleton_append, keptEntries, if_neg hskip,
          hkept m hm, hrest]
        rfl

section

variable {fs : System} {source target : String} {place : List String}

mutual

/-- A node is copied to a new name in a directory. -/
theorem copyNode_eq (source target name : String) (n : Node) (fs : System)
    (place : List String) (done : List (String × Node)) (hlegal : Legal n)
    (hname : IsName name) (htarget : fs.find target = .ok (place, .directory done))
    (hnew : done.lookup name = none) :
    copyNode source (Path.join target name) n fs =
      (.ok (), fs.put place (.directory (done ++ ((kept? n).map (name, ·)).toList))) := by
  have hplace := System.get?_of_find htarget
  cases n with
  | link leads =>
    have hpassed : copyNode source (Path.join target name) (.link leads) fs = (.ok (), fs) := by
      cases leads <;> rw [copyNode]
    rw [hpassed, kept?_link, Option.map_none, Option.toList_none, List.append_nil, System.put,
      Node.put_of_get? hplace]
  | file content x =>
    rw [copyNode, copyFile, System.locate_join_new true htarget hname hnew]
    dsimp only
    rw [System.put_concat hplace hnew, kept?, Option.map_some, Option.toList_some]
  | directory es =>
    rw [copyNode, System.makeDirectories_new htarget hname hnew, System.put_concat hplace hnew]
    dsimp only
    have hfind := System.find_put_append htarget [(name, .directory [])]
    have hlookup : (done ++ [(name, Node.directory [])]).lookup name = some (.directory []) := by
      rw [List.lookup_append, hnew, Option.none_or, Node.lookup_entry, if_pos rfl]
    have hjoin := System.find_join hfind hname hlookup (by simp)
    rw [copyEntries_eq source (Path.join target name) es _ (place ++ [name]) [] hlegal hjoin
      (by simp), System.put_concat_concat hnew, kept?, Option.map_some, Option.toList_some,
      List.nil_append]

theorem copyEntries_eq (source target : String) (es : List (String × Node)) (fs : System)
    (place : List String) (done : List (String × Node)) (hlegal : Legal (.directory es))
    (htarget : fs.find target = .ok (place, .directory done))
    (hnew : ∀ e ∈ es, done.lookup e.1 = none) :
    copyEntries source target es fs =
      (.ok (), fs.put place (.directory (done ++ keptEntries es))) := by
  cases es with
  | nil =>
    rw [copyEntries, keptEntries, List.append_nil, System.put,
      Node.put_of_get? (System.get?_of_find htarget)]
  | cons e rest =>
    obtain ⟨name, n⟩ := e
    obtain ⟨hnodup, hnames⟩ := hlegal [] _ (Node.get?_nil _)
    obtain ⟨hnotmem, _⟩ := List.nodup_cons.mp hnodup
    have hnewrest : ∀ e ∈ rest, done.lookup e.1 = none :=
      fun e he => hnew e (List.mem_cons_of_mem _ he)
    rw [copyEntries, keptEntries]
    split
    · exact copyEntries_eq source target rest fs place done hlegal.tail htarget hnewrest
    · rw [copyNode_eq (Path.join source name) target name n fs place done
        (hlegal.entry List.mem_cons_self) (hnames _ List.mem_cons_self) htarget
        (hnew _ List.mem_cons_self)]
      dsimp only
      rw [copyEntries_eq source target rest _ place _ hlegal.tail
        (System.find_put_append htarget _) ?_, System.put_put, List.append_assoc]
      -- the names of the rest are different from the one that was just copied
      intro e he
      have hne : e.1 ≠ name := by
        rintro rfl
        exact hnotmem (List.mem_map.mpr ⟨e, he, rfl⟩)
      have hlookup := lookup_append_entry (kept? n) [] name e.1
      rw [if_neg hne, List.append_nil, List.lookup_nil] at hlookup
      rw [List.lookup_append, hnewrest e he, Option.none_or, hlookup]

end

/-- The copy of a directory in an empty one. -/
theorem copy_eq {origin : List String} {es : List (String × Node)}
    (hsource : fs.find source = .ok (origin, .directory es)) (hlegal : Legal (.directory es))
    (htarget : fs.find target = .ok (place, .directory [])) :
    copy source target fs = (.ok (), fs.put place (.directory (keptEntries es))) := by
  rw [copy, System.makeDirectories_of_find htarget]
  dsimp only
  rw [hsource]
  exact copyEntries_eq source target es fs place [] hlegal htarget (by simp)

end

namespace Workspace

variable {fs fs' : System} {projectRoot root : String} {place origin : List String} {w : Workspace}
  {es : List (String × Node)}

theorem create_eq (hsource : fs.find projectRoot = .ok (origin, .directory es))
    (hlegal : Legal (.directory es)) (hroot : fs.find root = .ok (place, .directory [])) :
    create projectRoot root fs =
      (.ok ⟨root, projectRoot⟩, fs.put place (.directory (keptEntries es))) := by
  rw [create, copy_eq hsource hlegal hroot]

/-- No link leads out of a workspace when it is made. -/
theorem create_isolated (hsource : fs.find projectRoot = .ok (origin, .directory es))
    (hlegal : Legal (.directory es)) (hroot : fs.find root = .ok (place, .directory []))
    (hcreate : create projectRoot root fs = (.ok w, fs')) : w.Isolated fs' place := by
  rw [create_eq hsource hlegal hroot] at hcreate
  cases hcreate
  have hkept : kept? (.directory es) = some (.directory (keptEntries es)) := by rw [kept?]
  exact ⟨System.ne_empty_of_find hsource, _, System.find_put_append hroot (keptEntries es),
    unlinked_of_kept hlegal hkept⟩

end Workspace

end RepairSearch.Project
