import RepairSearch.Proofs.Files.Reordered
import RepairSearch.Proofs.Project.Copy

/-!
# Copies outside of the source

A copy in an empty directory or under a new name holds the files and directories of its source that
no name on the way leaves out. Nothing else changes, the order of entries makes no difference, and a
copy of the copy is the same.
-/

namespace RepairSearch.Project

open Files

/-- A path that leads to an empty directory, or to a new name in a directory. -/
inductive Vacant (fs : System) : String → List String → Prop
  | empty {target : String} {place : List String}
      (find : fs.find target = .ok (place, .directory [])) : Vacant fs target place
  | new {parent name : String} {above : List String} {es : List (String × Node)}
      (find : fs.find parent = .ok (above, .directory es)) (isName : IsName name)
      (new : es.lookup name = none) : Vacant fs (Path.join parent name) (above ++ [name])

namespace Vacant

variable {fs fs' : System} {target : String} {place : List String}

private theorem makeDirectories (h : Vacant fs target place) :
    fs.makeDirectories target = (.ok (), fs.put place (.directory [])) ∧
      (fs.put place (.directory [])).find target = .ok (place, .directory []) := by
  cases h with
  | empty find =>
    have hsame : fs.put place (.directory []) = fs := by
      rw [System.put, Node.put_of_get? (System.get?_of_find find)]
    rw [hsame]
    exact ⟨System.makeDirectories_of_find find, find⟩
  | new find isName new =>
    refine ⟨System.makeDirectories_new find isName new, ?_⟩
    rw [System.put_concat (System.get?_of_find find) new]
    refine System.find_join (System.find_put_append find _) isName ?_ (by simp)
    rw [List.lookup_append, new, Option.none_or, Node.lookup_entry, if_pos rfl]

private theorem grows (h : Vacant fs target place) (es : List (String × Node)) :
    System.Grows fs (fs.put place (.directory es)) := by
  cases h with
  | empty find => exact System.Grows.put_append (System.get?_of_find find) es
  | new find _ new =>
    rw [System.put_concat (System.get?_of_find find) new]
    exact System.Grows.put_append (System.get?_of_find find) _

private theorem bare (h : Vacant fs target place) (es : List (String × Node)) {names : List String}
    (hnames : ¬ place <+: names) :
    ((fs.put place (.directory es)).get? names).map Node.bare = (fs.get? names).map Node.bare := by
  cases h with
  | empty find => exact Node.bare_get?_put_of_get? _ (System.get?_of_find find) hnames
  | new find _ _ =>
    exact Node.bare_get?_put _ (by rw [List.dropLast_concat]; exact System.get?_of_find find) hnames

private theorem not_prefix (h : Vacant fs target place) {names : List String} {n : Node}
    (hn : fs.get? names = some n) (houtside : ¬ names <+: place) : ¬ place <+: names := by
  rintro ⟨rest, rfl⟩
  cases h with
  | empty find =>
    rw [System.get?_append (System.get?_of_find find)] at hn
    cases rest with
    | nil => exact houtside (by simp)
    | cons name rest => simp [Node.get?_cons] at hn
  | new find _ new =>
    rw [List.append_assoc, System.get?_append (System.get?_of_find find), List.singleton_append,
      Node.get?_cons, Node.entries_directory, new] at hn
    cases hn

private theorem find_put (h : Vacant fs target place) (es : List (String × Node)) {path : String}
    {names : List String} {n : Node} (hfind : fs.find path = .ok (names, n))
    (houtside : ¬ names <+: place) :
    (fs.put place (.directory es)).find path = .ok (names, n) := by
  have hget := System.get?_of_find hfind
  obtain ⟨n', hfind', _⟩ := (h.grows es).find hfind
  have hget' := System.get?_of_find hfind'
  rw [System.get?, System.put,
    Node.get?_put_of_apart _ (h.not_prefix hget houtside) houtside, ← System.get?, hget,
    Option.some.injEq] at hget'
  exact hget' ▸ hfind'

private theorem reordered (h : Vacant fs target place) (hreordered : System.Reordered fs fs') :
    Vacant fs' target place := by
  cases h with
  | empty find => exact .empty (hreordered.find_empty find)
  | new find isName new =>
    obtain ⟨es', find'⟩ := hreordered.find_directory find
    exact .new find' isName
      (hreordered.lookup_eq_none (System.get?_of_find find) (System.get?_of_find find') new)

end Vacant

/-- What a copy shows at a place: a file, or that there is a directory. -/
def shown? : Node → Option Node
  | .link (.path _) => none
  | .special => none
  | n => some n.bare

@[simp] theorem shown?_link (target : Target) : shown? (.link target) = none := by
  cases target <;> rw [shown?]

/-- A directory holds the files and directories of another one that no name on the way leaves out,
and nothing else. -/
structure IsCopy (es copied : List (String × Node)) : Prop where
  legal : Legal (.directory copied)
  bare : ∀ below, ((Node.directory copied).get? below).map Node.bare =
    if below.any isSkipped then none else ((Node.directory es).get? below).bind shown?

theorem isCopy_keptEntries {es : List (String × Node)} (h : Legal (.directory es)) :
    IsCopy es (keptEntries es) := by
  have hkept : kept? (.directory es) = some (.directory (keptEntries es)) := by rw [kept?]
  have hshown : ∀ n : Node, (kept? n).map Node.bare = shown? n := by
    intro n
    cases n with
    | link _ => simp
    | file _ _ | directory _ => simp [kept?, shown?]
  refine ⟨legal_of_kept h hkept, fun below => ?_⟩
  rw [get?_kept h hkept]
  split
  · rfl
  · rw [Option.map_bind]
    exact congrArg _ (funext hshown)

private theorem IsCopy.bare_eq {es es' copied copied' : List (String × Node)} (h : IsCopy es copied)
    (h' : IsCopy es' copied') {below : List String}
    (hbare : ((Node.directory es').get? below).map Node.bare =
      ((Node.directory es).get? below).map Node.bare) :
    ((Node.directory copied').get? below).map Node.bare =
      ((Node.directory copied).get? below).map Node.bare := by
  have hshown : ∀ n : Node, shown? n.bare = shown? n := by
    intro n
    cases n with
    | link _ | file _ _ | directory _ => rfl
  have hbind : ∀ x : Option Node, x.bind shown? = (x.map Node.bare).bind shown? := by
    intro x
    cases x with
    | none => rfl
    | some n => exact (hshown n).symm
  rw [h.bare, h'.bare, hbind, hbare, ← hbind]

section

variable {fs fs' : System} {source target : String} {origin place : List String}
  {es : List (String × Node)}

theorem copy_vacant (hsource : fs.find source = .ok (origin, .directory es))
    (hlegal : Legal (.directory es)) (htarget : Vacant fs target place)
    (houtside : ¬ origin <+: place) :
    copy source target fs = (.ok (), fs.put place (.directory (keptEntries es))) := by
  obtain ⟨hmake, hmade⟩ := htarget.makeDirectories
  rw [copy, hmake]
  dsimp only
  rw [htarget.find_put [] hsource houtside]
  dsimp only
  rw [copyEntries_eq source target es _ place [] hlegal hmade (by simp), System.put_put,
    List.nil_append]

theorem find_copied (htarget : Vacant fs target place) (copied : List (String × Node)) :
    (fs.put place (.directory copied)).find target = .ok (place, .directory copied) := by
  have hfind := System.find_put_append htarget.makeDirectories.2 copied
  rwa [System.put_put, List.nil_append] at hfind

/-- A copy outside of its source holds the files and directories that no name on the way leaves out,
and the source is as it was, as is everything else. In another order of entries the copy is the same
but for their order, and a copy of the copy is the same. -/
theorem copy_outside (hlegal : Legal fs.root)
    (hsource : fs.find source = .ok (origin, .directory es)) (htarget : Vacant fs target place)
    (houtside : ¬ origin <+: place) :
    ∃ fs' copied, copy source target fs = (.ok (), fs') ∧
      fs'.find target = .ok (place, .directory copied) ∧ IsCopy es copied ∧
      fs'.find source = .ok (origin, .directory es) ∧
      (∀ names, ¬ place <+: names →
        (fs'.get? names).map Node.bare = (fs.get? names).map Node.bare) ∧
      (∀ other, System.Reordered fs other → Legal other.root →
        ∃ other', copy source target other = (.ok (), other') ∧ System.Reordered fs' other') ∧
      ∀ third place', Vacant fs' third place' → ¬ place <+: place' →
        ∃ fs'', copy target third fs' = (.ok (), fs'') ∧
          fs''.find third = .ok (place', .directory copied) := by
  have hes : Legal (.directory es) := hlegal.get? (System.get?_of_find hsource)
  have hcopy := isCopy_keptEntries hes
  have hfind := find_copied htarget (keptEntries es)
  refine ⟨_, keptEntries es, copy_vacant hsource hes htarget houtside, hfind, hcopy,
    htarget.find_put _ hsource houtside, fun _ => htarget.bare _, ?_, ?_⟩
  · intro other hreordered hother
    obtain ⟨es', hsource'⟩ := hreordered.find_directory hsource
    have htarget' := htarget.reordered hreordered
    have hes' : Legal (.directory es') := hother.get? (System.get?_of_find hsource')
    refine ⟨_, copy_vacant hsource' hes' htarget' houtside, hreordered.workingDirectory, ?_⟩
    intro names
    by_cases hnames : place <+: names
    · obtain ⟨below, rfl⟩ := hnames
      rw [System.get?, System.get?, System.put, System.put, Node.get?_put_append,
        Node.get?_put_append]
      exact hcopy.bare_eq (isCopy_keptEntries hes') (hreordered.bare_below
        (System.get?_of_find hsource) (System.get?_of_find hsource') below)
    · rw [htarget'.bare _ hnames, htarget.bare _ hnames]
      exact hreordered.bare names
  · intro third place' hthird houtside'
    refine ⟨_, copy_vacant hfind hcopy.legal hthird houtside', ?_⟩
    rw [keptEntries_keptEntries]
    exact find_copied hthird (keptEntries es)

end

namespace Twice

/-- A file, a link to it, a pipe, an empty directory and what projects leave out. Two names are no
characters; one of them is shown as that of a compiled file. -/
def entries : List (String × Node) :=
  [("a", .directory [("c.py", .file [120] false), ("l.py", .link (.path "c.py")), ("p", .special)]),
    ("e", .directory []), (Name.ofBytes [255], .file [121] true),
    (Name.ofBytes [255, 46, 112, 121, 99], .file [] false),
    ("build", .directory [("x.py", .file [] false)]), ("m.pyc", .file [] false)]

def kept : List (String × Node) :=
  [("a", .directory [("c.py", .file [120] false)]), ("e", .directory []),
    (Name.ofBytes [255], .file [121] true)]

/-- The project and an empty directory. -/
def fs : System where
  root := .directory [("p", .directory entries), ("w", .directory [])]
  workingDirectory := []

/-- The project and the copy of it. -/
def copied : System where
  root := .directory [("p", .directory entries), ("w", .directory kept)]
  workingDirectory := []

theorem legal : Legal fs.root := by decide

theorem find_project : fs.find "/p" = .ok (["p"], .directory entries) :=
  System.find_of_path rfl (by decide) (by decide) rfl (by simp)

theorem find_target : fs.find "/w" = .ok (["w"], .directory []) :=
  System.find_of_path rfl (by decide) (by decide) rfl (by simp)

private theorem copy_eq_copied : copy "/p" "/w" fs = (.ok (), copied) := by
  have hkept : keptEntries entries = kept := by
    simp only [keptEntries, kept?, entries]
    rfl
  have hproject : Legal (.directory entries) := legal.get? (System.get?_of_find find_project)
  rw [copy_eq find_project hproject find_target, hkept]
  rfl

private theorem vacant : Vacant copied "/v" ["v"] := by
  have hroot : copied.find "/" = .ok ([], copied.root) :=
    System.find_of_path rfl (by decide) (by simp) (Node.get?_nil _) (by simp [copied])
  have hjoin : Path.join "/" "v" = "/v" := by decide
  exact hjoin ▸ .new hroot (by decide) (by decide)

end Twice

open Twice in
theorem copy_outside_twice :
    (Legal fs.root ∧ fs.find "/p" = .ok (["p"], .directory entries) ∧ Vacant fs "/w" ["w"] ∧
      ¬ ["p"] <+: ["w"]) ∧
      copy "/p" "/w" fs = (.ok (), copied) ∧
      copied.find "/w" = .ok (["w"], .directory kept) ∧
      ∃ again, copy "/w" "/v" copied = (.ok (), again) ∧
        again.find "/v" = .ok (["v"], .directory kept) := by
  have houtside : ¬ ["p"] <+: ["w"] := by decide
  obtain ⟨fs', es, hcopy, hfind, _, _, _, _, hthird⟩ :=
    copy_outside legal find_project (.empty find_target) houtside
  obtain rfl : copied = fs' := congrArg Prod.snd (copy_eq_copied.symm.trans hcopy)
  have hget : copied.get? ["w"] = some (.directory kept) := rfl
  obtain rfl : kept = es := by simpa [hget] using System.get?_of_find hfind
  exact ⟨⟨legal, find_project, .empty find_target, houtside⟩, hcopy, hfind,
    hthird "/v" ["v"] vacant (by decide)⟩

end RepairSearch.Project
