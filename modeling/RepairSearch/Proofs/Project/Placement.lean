import RepairSearch.Proofs.Project.Sources

/-!
# Sources in the workspace

A source is in the workspace with its text exactly if no name on the way from the root of the
project to it is one that a copy leaves out. Discovery looks at names below the given paths only,
so a source that is given by its path, or in a directory that is, may be left out.
-/

namespace RepairSearch.Project

open Files

section

variable {fs : System} {target : String} {place base names : List String}
  {es : List (String × Node)} {content : Text} {x : Bool}

private theorem locate_mapPath (hlegal : Legal fs.root)
    (hbase : fs.get? base = some (.directory es)) (hfile : fs.get? names = some (.file content x))
    {w : Workspace} (hroot : w.projectRoot = Place.path ⟨base, none⟩)
    (hmap : w.mapPath (Place.path ⟨names, none⟩) = .ok target) {fs' : System} {n : Node}
    (hfind : fs'.find w.root = .ok (place, n)) :
    ∃ below links, names = base ++ below ∧
      fs'.locate true target = fs'.walk true links place below := by
  have hnames : ∀ s ∈ names, IsName s := hlegal.isName hfile
  rw [Workspace.mapPath, hroot] at hmap
  split at hmap
  · rename_i rel hrel
    rw [Except.ok.injEq] at hmap
    subst hmap
    obtain ⟨below, rfl⟩ := Place.exists_append_of_relativeTo? (hlegal.isName hbase) hnames hrel
    have hne : below ≠ [] := by
      rintro rfl
      rw [List.append_nil, hbase] at hfile
      cases hfile
    rw [Place.relativeTo?_path hne hnames, Option.some.injEq] at hrel
    subst hrel
    obtain ⟨links, hlocate⟩ := System.locate_join_names true hfind
      (fun s hs => hnames s (List.mem_append_right base hs)) hne
    exact ⟨below, links, rfl, hlocate⟩
  · cases hmap

private theorem find_copy {links : Nat} (hlegal : Legal (.directory es))
    (hfile : (Node.directory es).get? names = some (.file content x))
    (hplace : fs.get? place = some (.directory (keptEntries es)))
    (hlocate : fs.locate true target = fs.walk true links place names) :
    if names.any isSkipped then fs.contains target = false
    else fs.find target = .ok (place ++ names, .file content x) := by
  have hkept : kept? (.directory es) = some (.directory (keptEntries es)) := by rw [kept?]
  have hget : (Node.directory (keptEntries es)).get? names =
      if names.any isSkipped then none else ((Node.directory es).get? names).bind kept? :=
    get?_kept hlegal hkept
  have hnames := hlegal.isName hfile
  split
  · rename_i hskip
    rw [if_pos hskip] at hget
    rw [System.contains]
    cases hfind : fs.find target with
    | error fault => rfl
    | ok found =>
      obtain ⟨q, m⟩ := found
      have hwalk := hlocate.symm.trans (System.locate_of_find hfind)
      have hup : ".." ∉ names := fun hmem => (hnames _ hmem).ne_up rfl
      have hq := System.walk_below hplace (unlinked_of_kept hlegal hkept) hup hwalk
      rw [List.filter_eq_self.mpr (fun s hs => by simpa using (hnames s hs).ne_dot)] at hq
      have hm := System.get?_of_find hfind
      rw [hq, System.get?_append hplace, hget] at hm
      cases hm
  · rename_i hskip
    rw [if_neg hskip, hfile, Option.bind_some, kept?] at hget
    refine System.find_of_locate (hlocate.trans ?_)
    exact System.walk_to hplace (fun s hs => ⟨(hnames s hs).ne_dot, (hnames s hs).ne_up⟩) hget
      (by simp)

end

/-- A project is discovered, loaded and copied to an empty directory, and a compiler is told about
its documents, each of which then has a target and counts as written. Such a document is below the
root of the project, and its target holds its text exactly if no name on the way from that root is
left out of copies; otherwise there is nothing where the target should be. -/
theorem sources_inPlace {fs fs' : System} (hfs : Regular fs) {paths : List String}
    {first : SourceFile} {rest : List SourceFile} {ds : DocumentSet} {scratch : String}
    {place : List String} {w : Workspace} {c₀ c : Compiler} {sources classpath : List String}
    (hfiles : discover fs paths = .ok (first :: rest))
    (hdocuments : loadAll fs (first :: rest) = .ok ds)
    (hscratch : fs.find scratch = .ok (place, .directory []))
    (hcreate : Workspace.create (rootOf fs first.path) scratch fs = (.ok w, fs'))
    (hworkspace : c₀.workspace = w)
    (hcontext : c₀.setContext ds sources classpath fs' = .ok c) :
    c.targets.length = ds.documents.length ∧
    c.written = ds.documents.map (fun d => some d.revision) ∧
    ∃ base, rootOf fs first.path = Place.path ⟨base, none⟩ ∧
      ∀ (i : Nat) (d : Document) (target : String), ds.documents[i]? = some d →
        c.targets[i]? = some target → ∃ below x, d.path = Place.path ⟨base ++ below, none⟩ ∧
          fs.get? (base ++ below) = some (.file d.current x) ∧
          (fs'.read target = .ok d.current ↔ below.any isSkipped = false) ∧
          (below.any isSkipped = true → fs'.contains target = false) := by
  obtain ⟨_, hlength, hwritten, htargets⟩ := Compiler.setContext_eq_ok hcontext
  obtain ⟨loaded, hloaded, rfl⟩ := map_eq_ok hdocuments
  obtain ⟨d₁, hload₁⟩ := load_of_loadAll hdocuments (f := first) List.mem_cons_self
  obtain ⟨names₁, x₁, hfirst, hfile₁⟩ := discover_sound hfs hfiles List.mem_cons_self hload₁
  obtain ⟨base, es, _, _, hroot, hbase⟩ := rootOf_prefix hfs hfile₁
  rw [← hfirst] at hroot
  have hlegal : Legal (.directory es) := hfs.legal.get? hbase
  have hsource : fs.find (rootOf fs first.path) = .ok (base, .directory es) :=
    hroot ▸ hfs.find_path hbase (by simp)
  rw [Workspace.create_eq hsource hlegal hscratch] at hcreate
  cases hcreate
  have hcopied := System.find_put_append hscratch (keptEntries es)
  rw [List.nil_append] at hcopied
  refine ⟨hlength, hwritten, base, hroot, fun i d target hd htarget => ?_⟩
  obtain ⟨d', hd', hmap⟩ := htargets i target htarget
  obtain rfl := Option.some.inj (hd.symm.trans hd')
  obtain ⟨file, hfile, hload⟩ := (mapM_eq_ok hloaded).2 i d hd
  obtain ⟨hpath, _⟩ := load_eq_ok hload
  obtain ⟨names, x, hplaced, hget⟩ :=
    discover_sound hfs hfiles (List.mem_of_getElem? hfile) hload
  rw [hpath, hplaced, hworkspace] at hmap
  obtain ⟨below, links, rfl, hlocate⟩ := locate_mapPath hfs.legal hbase hget hroot hmap hcopied
  have hbelow : (Node.directory es).get? below = some (.file d.current x) := by
    rw [← System.get?_append hbase, hget]
  have hfound := find_copy hlegal hbelow (System.get?_of_find hcopied) hlocate
  refine ⟨below, x, hpath.trans hplaced, hget, ?_⟩
  cases hskip : below.any isSkipped with
  | true =>
    rw [if_pos hskip] at hfound
    refine ⟨⟨fun hok => ?_, fun h => by cases h⟩, fun _ => hfound⟩
    obtain ⟨q, content', x', hfind⟩ := System.find_of_read hok
    rw [System.contains, hfind] at hfound
    cases hfound
  | false =>
    rw [if_neg (by simp [hskip])] at hfound
    refine ⟨⟨fun _ => rfl, fun _ => ?_⟩, fun h => by cases h⟩
    rw [System.read, hfound]

namespace TwoFiles

/-- Two files of a project, one of them in a directory that copies leave out. -/
def entries : List (String × Node) :=
  [("setup.py", .file [] false), ("build", .directory [("app.py", .file [120] false)]),
    ("app.py", .file [120] false)]

/-- The project and an empty directory for the copy. -/
def fs : System where
  root := .directory [("p", .directory entries), ("w", .directory [])]
  workingDirectory := []

def files : List SourceFile :=
  [⟨"/p/build/app.py", "app", .python⟩, ⟨"/p/app.py", "app", .python⟩]

def documents : DocumentSet :=
  ⟨[.ofText "/p/build/app.py" "app" .python [120], .ofText "/p/app.py" "app" .python [120]]⟩

theorem regular : Regular fs := ⟨⟨_, rfl⟩, by decide, ⟨_, rfl⟩⟩

private theorem find_built :
    fs.find "/p/build/app.py" = .ok (["p", "build", "app.py"], .file [120] false) :=
  System.find_of_path rfl (by decide) (by decide) rfl (by simp)

private theorem find_plain : fs.find "/p/app.py" = .ok (["p", "app.py"], .file [120] false) :=
  System.find_of_path rfl (by decide) (by decide) rfl (by simp)

private theorem find_project : fs.find "/p" = .ok (["p"], .directory entries) :=
  System.find_of_path rfl (by decide) (by decide) rfl (by simp)

theorem discover_eq : discover fs ["/p/build/app.py", "/p/app.py"] = .ok files := by
  have hbuilt : expand fs "/p/build/app.py" = .ok [⟨"/p/build/app.py", "app", .python⟩] := by
    rw [expand, find_built]
    rfl
  have hplain : expand fs "/p/app.py" = .ok [⟨"/p/app.py", "app", .python⟩] := by
    rw [expand, find_plain]
    rfl
  simp only [discover, List.mapM_cons, List.mapM_nil, hbuilt, hplain]
  rfl

theorem loadAll_eq : loadAll fs files = .ok documents := by
  have hbuilt : load fs ⟨"/p/build/app.py", "app", .python⟩ =
      .ok (.ofText "/p/build/app.py" "app" .python [120]) :=
    load_of_read (by rw [System.read, find_built]) (.ascii (by decide))
  have hplain : load fs ⟨"/p/app.py", "app", .python⟩ =
      .ok (.ofText "/p/app.py" "app" .python [120]) :=
    load_of_read (by rw [System.read, find_plain]) (.ascii (by decide))
  simp only [loadAll, files, List.mapM_cons, List.mapM_nil, hbuilt, hplain]
  rfl

private theorem rootOf_eq : rootOf fs "/p/build/app.py" = "/p" := by
  have hnotdir : fs.isDirectory "/p/build/app.py" = false := by
    rw [System.isDirectory, find_built]
  have hbuild : fs.find "/p/build" =
      .ok (["p", "build"], .directory [("app.py", .file [120] false)]) :=
    System.find_of_path rfl (by decide) (by decide) rfl (by simp)
  have hparent : Path.parent? "/p/build/app.py" = some "/p/build" := by decide
  have habove : Path.parent? "/p/build" = some "/p" := by decide
  have hdepth : "/p/build".length + 1 = 7 + 1 + 1 := rfl
  have hunmarked : (markers.any fun m =>
      (List.lookup m [("app.py", Node.file [120] false)]).isSome) = false := by decide
  have hmarked : (markers.any fun m => (entries.lookup m).isSome) = true := by decide
  rw [rootOf, hnotdir, hparent]
  simp only [Bool.false_eq_true, if_false, Option.getD_some]
  rw [hdepth, markedAbove, isMarked_eq hbuild (by simp), hunmarked, if_neg Bool.false_ne_true,
    habove]
  dsimp only
  rw [if_neg (by decide), markedAbove, isMarked_eq find_project (by simp [entries]), hmarked]
  rfl

end TwoFiles

open TwoFiles in
/-- The file in `build` is a document, but there is nothing where its target should be. -/
theorem sources_inPlace_build :
    discover fs ["/p/build/app.py", "/p/app.py"] = .ok files ∧ loadAll fs files = .ok documents ∧
    ∃ w fs' c, Workspace.create (rootOf fs "/p/build/app.py") "/w" fs = (.ok w, fs') ∧
      (Compiler.create w none none none fs').setContext documents [] [] fs' = .ok c ∧
      c.targets = ["/w/build/app.py", "/w/app.py"] ∧
      fs'.contains "/w/build/app.py" = false ∧ fs'.read "/w/app.py" = .ok [120] := by
  have hscratch : fs.find "/w" = .ok (["w"], .directory []) :=
    System.find_of_path rfl (by decide) (by decide) rfl (by simp)
  obtain ⟨fs', hcreate⟩ :
      ∃ fs', Workspace.create (rootOf fs "/p/build/app.py") "/w" fs = (.ok ⟨"/w", "/p"⟩, fs') := by
    rw [rootOf_eq]
    exact ⟨_, Workspace.create_eq find_project
      (regular.legal.get? (System.get?_of_find find_project)) hscratch⟩
  have hmap : documents.documents.mapM (fun d => Workspace.mapPath ⟨"/w", "/p"⟩ d.path) =
      .ok ["/w/build/app.py", "/w/app.py"] := rfl
  obtain ⟨environment, hcontext⟩ := Compiler.exists_setContext
    (c := Compiler.create ⟨"/w", "/p"⟩ none none none fs') hmap [] [] fs'
  obtain ⟨_, _, base, hbase, hplaced⟩ :=
    sources_inPlace regular discover_eq loadAll_eq hscratch hcreate rfl hcontext
  -- the names behind the root of the project are told by the paths
  have hbelow : ∀ {below names : List String} {text : Text} {x : Bool},
      fs.get? (base ++ below) = some (.file text x) →
        Place.path ⟨["p"] ++ names, none⟩ = Place.path ⟨base ++ below, none⟩ →
          (∀ s ∈ ["p"] ++ names, IsName s) → below = names := by
    intro below names text x hfile hpath hnames
    have hlegal := regular.legal.isName hfile
    have hroots : Place.path ⟨["p"], none⟩ = Place.path ⟨base, none⟩ :=
      rootOf_eq.symm.trans hbase
    obtain rfl : ["p"] = base :=
      Place.names_eq_of_path_eq (by decide)
        (fun s hs => hlegal s (List.mem_append_left _ hs)) hroots
    exact (List.append_cancel_left (Place.names_eq_of_path_eq hnames hlegal hpath)).symm
  refine ⟨discover_eq, loadAll_eq, _, fs', _, hcreate, hcontext, rfl, ?_, ?_⟩
  · obtain ⟨below, x, hpath, hfile, _, hmissing⟩ :=
      hplaced 0 _ "/w/build/app.py" rfl rfl
    obtain rfl : below = ["build", "app.py"] := hbelow hfile hpath (by decide)
    exact hmissing (by decide)
  · obtain ⟨below, x, hpath, hfile, hread, _⟩ :=
      hplaced 1 _ "/w/app.py" rfl rfl
    obtain rfl : below = ["app.py"] := hbelow hfile hpath (by decide)
    exact hread.mpr (by decide)

end RepairSearch.Project
