import RepairSearch.Proofs.Project.Copy
import RepairSearch.Proofs.Project.SourceTree
import RepairSearch.Proofs.Text.Boundary

/-!
# Discovered files

What source paths stand for are files, named by the names that lead to them from the root. The root
of a project is a directory above its first source.
-/

namespace RepairSearch.Project

open Files

/-- A file system with a legal tree whose working directory is one of its directories. -/
structure Regular (fs : System) : Prop where
  root : ∃ es, fs.root = .directory es
  legal : Legal fs.root
  workingDirectory : ∃ es, fs.get? fs.workingDirectory = some (.directory es)

theorem map_eq_ok {ε α β : Type} {f : α → β} {x : Except ε α} {b : β}
    (h : x.map f = .ok b) : ∃ a, x = .ok a ∧ f a = b := by
  cases x with
  | error e => cases h
  | ok a => exact ⟨a, rfl, Except.ok.inj h⟩

private theorem sourceFile_eq_ok {path package : String} {f : SourceFile}
    (h : sourceFile path package = .ok f) :
    f.path = path ∧ f.package = package ∧ Language.ofPath? path = some f.language := by
  rw [sourceFile] at h
  split at h
  · rename_i language hlanguage
    cases h
    exact ⟨rfl, rfl, hlanguage⟩
  · cases h

variable {fs : System}

/-- The path of a place leads to it, unless a link stands there. -/
theorem Regular.find_path (hfs : Regular fs) {names : List String} {n : Node}
    (hn : fs.get? names = some n) (hlink : ∀ target, n ≠ .link (.path target)) :
    fs.find (Place.path ⟨names, none⟩) = .ok (names, n) := by
  obtain ⟨es, hroot⟩ := hfs.root
  exact System.find_path hroot (hfs.legal.isName hn) hn hlink

private theorem find_ne_link (hfs : Regular fs) {path : String} {names : List String} {n : Node}
    (h : fs.find path = .ok (names, n)) : ∀ target, n ≠ .link (.path target) := by
  have hlocate := System.locate_of_find h
  obtain ⟨es, hroot⟩ := hfs.root
  obtain ⟨es', hworking⟩ := hfs.workingDirectory
  have hget : fs.get? [] = some (.directory es) := by rw [System.get?, Node.get?_nil, hroot]
  rw [System.locate] at hlocate
  split at hlocate
  · cases hlocate
  · refine System.walk_ne_link (by simp [hget]) ?_ hlocate
    rw [System.start]
    split <;> simp [hget, hworking]

/-- Where a source path finds a file: below a directory, or where the path itself leads. The package
is made of the names below the directory, or of the name of the file alone. -/
structure FoundAt (fs : System) (path : String) (f : SourceFile) (base below : List String) :
    Prop where
  nonempty : below ≠ []
  source : (∃ es, fs.find path = .ok (base, .directory es)) ∧ f.package = packageOf below ∨
    (∃ name n, below = [name] ∧ fs.find path = .ok (base ++ below, n)) ∧
      f.package = (Path.stem? f.path).getD ""
  path : f.path = Place.path ⟨base ++ below, none⟩
  stands : ∃ n, fs.get? (base ++ below) = some n ∧ ∀ target, n ≠ .link (.path target)
  language : Language.ofPath? f.path = some f.language

private theorem expand_eq_ok {path : String} {files : List SourceFile}
    (h : expand fs path = .ok files) :
    ∃ base n, fs.find path = .ok (base, n) ∧
      ((∃ es, n = .directory es ∧ ((filesAmong [] es).mergeSort namesLE).mapM (fun relative =>
        sourceFile (Place.path ⟨base ++ relative, none⟩) (packageOf relative)) = .ok files) ∨
      (∀ es, n ≠ .directory es) ∧ ∃ f, files = [f] ∧ sourceFile (Place.path ⟨base, none⟩)
        ((Path.stem? (Place.path ⟨base, none⟩)).getD "") = .ok f) := by
  rw [expand] at h
  split at h
  · cases h
  rename_i base n hfind
  refine ⟨base, n, hfind, ?_⟩
  dsimp only at h
  split at h
  · cases h
  split at h
  · rename_i es
    split at h
    · cases h
    · exact .inl ⟨es, rfl, h⟩
  · rename_i hdir
    obtain ⟨f, hsource, hf⟩ := map_eq_ok h
    exact .inr ⟨hdir, f, hf.symm, hsource⟩

private theorem expand_found (hfs : Regular fs) {path : String} {files : List SourceFile}
    (h : expand fs path = .ok files) {f : SourceFile} (hf : f ∈ files) :
    ∃ base below, FoundAt fs path f base below := by
  obtain ⟨names, n, hfind, ⟨es, rfl, hfiles⟩ | ⟨hdir, g, rfl, hsource⟩⟩ := expand_eq_ok h
  · have hget := System.get?_of_find hfind
    obtain ⟨i, hi⟩ := List.mem_iff_getElem?.mp hf
    obtain ⟨relative, hrelative, hsource⟩ := (mapM_eq_ok hfiles).2 i f hi
    obtain ⟨hpath, hpackage, hlanguage⟩ := sourceFile_eq_ok hsource
    have hmem := List.mem_mergeSort.mp (List.mem_of_getElem? hrelative)
    obtain ⟨below, hbelow, hfound⟩ := (mem_filesAmong (hfs.legal.get? hget)).mp hmem
    obtain ⟨content, x, hfile⟩ := hfound.file
    rw [List.nil_append] at hbelow
    subst hbelow
    refine ⟨names, relative, hfound.ne_nil, .inl ⟨⟨es, hfind⟩, hpackage⟩, hpath,
      ⟨.file content x, ?_, by simp⟩, hpath ▸ hlanguage⟩
    rw [System.get?_append hget, hfile]
  · have hget := System.get?_of_find hfind
    obtain rfl := List.mem_singleton.mp hf
    obtain ⟨hpath, hpackage, hlanguage⟩ := sourceFile_eq_ok hsource
    rcases List.eq_nil_or_concat names with rfl | ⟨base, name, hnames⟩
    · obtain ⟨es, hroot⟩ := hfs.root
      rw [System.get?, Node.get?_nil, hroot, Option.some.injEq] at hget
      exact absurd hget.symm (hdir es)
    · rw [List.concat_eq_append] at hnames
      subst hnames
      refine ⟨base, [name], by simp, .inr ⟨⟨name, n, rfl, hfind⟩, ?_⟩, hpath,
        ⟨n, hget, find_ne_link hfs hfind⟩, hpath ▸ hlanguage⟩
      rw [hpackage, hpath]

/-- What can be read where a file was found is a file. -/
theorem FoundAt.file_of_read (hfs : Regular fs) {path : String} {f : SourceFile}
    {base below : List String} (h : FoundAt fs path f base below) {content : Text}
    (hread : fs.read f.path = .ok content) :
    ∃ x, fs.get? (base ++ below) = some (.file content x) := by
  obtain ⟨n, hget, hlink⟩ := h.stands
  have hfind := hfs.find_path hget hlink
  rw [h.path, System.read, hfind] at hread
  cases n with
  | file old x =>
    obtain rfl : old = content := Except.ok.inj hread
    exact ⟨x, hget⟩
  | directory _ | link _ => cases hread

private theorem mem_of_mem_distinct {files : List SourceFile} {f : SourceFile}
    (h : f ∈ distinct files) :
    f ∈ files := by
  induction files with
  | nil => cases h
  | cons g files ih =>
    rw [distinct] at h
    rcases List.mem_cons.mp h with rfl | hmem
    · exact List.mem_cons_self
    · exact List.mem_cons_of_mem g (ih (List.mem_filter.mp hmem).1)

theorem nodup_distinct (files : List SourceFile) : ((distinct files).map (·.path)).Nodup := by
  induction files with
  | nil => exact List.nodup_nil
  | cons f files ih =>
    rw [distinct, List.map_cons, List.nodup_cons]
    refine ⟨?_, ih.sublist (List.filter_sublist.map _)⟩
    intro hmem
    obtain ⟨g, hg, hpath⟩ := List.mem_map.mp hmem
    simp [hpath] at hg

theorem discover_nodup {paths : List String} {files : List SourceFile}
    (h : discover fs paths = .ok files) : (files.map (·.path)).Nodup := by
  obtain ⟨found, _, rfl⟩ := map_eq_ok h
  exact nodup_distinct found.flatten

theorem discover_found (hfs : Regular fs) {paths : List String} {files : List SourceFile}
    (h : discover fs paths = .ok files) {f : SourceFile} (hf : f ∈ files) :
    ∃ path ∈ paths, ∃ base below, FoundAt fs path f base below := by
  obtain ⟨found, hfound, rfl⟩ := map_eq_ok h
  obtain ⟨some, hsome, hmem⟩ := List.mem_flatten.mp (mem_of_mem_distinct hf)
  obtain ⟨i, hi⟩ := List.mem_iff_getElem?.mp hsome
  obtain ⟨path, hpath, hexpand⟩ := (mapM_eq_ok hfound).2 i some hi
  exact ⟨path, List.mem_of_getElem? hpath, expand_found hfs hexpand hmem⟩

theorem load_eq_ok {file : SourceFile} {d : Document} (h : load fs file = .ok d) :
    d.path = file.path ∧ fs.read file.path = .ok d.current := by
  rw [load] at h
  split at h
  · rename_i text hread
    cases h
    refine ⟨rfl, ?_⟩
    rw [System.readString] at hread
    split at hread
    · rename_i content hcontent
      split at hread
      · rename_i s hs
        cases hread
        rw [hcontent, Text.eq_ofChars_of_toString? hs, ← Text.ofString_eq_ofChars]
        rfl
      · cases hread
    · cases hread
  · cases h

/-- A file that was discovered and could be loaded is named by the names that lead to it. -/
theorem discover_sound (hfs : Regular fs) {paths : List String} {files : List SourceFile}
    (h : discover fs paths = .ok files) {f : SourceFile} (hf : f ∈ files) {d : Document}
    (hload : load fs f = .ok d) :
    ∃ names x, f.path = Place.path ⟨names, none⟩ ∧
      fs.get? names = some (.file d.current x) := by
  obtain ⟨_, _, base, below, hfound⟩ := discover_found hfs h hf
  obtain ⟨x, hfile⟩ := hfound.file_of_read hfs (load_eq_ok hload).2
  exact ⟨base ++ below, x, hfound.path, hfile⟩

theorem load_eq_ofText {file : SourceFile} {d : Document} (h : load fs file = .ok d) :
    ∃ text, d = Document.ofText file.path file.package file.language text := by
  rw [load] at h
  split at h
  · exact ⟨_, (Except.ok.inj h).symm⟩
  · cases h

theorem load_of_read {file : SourceFile} {t : Text} (hread : fs.read file.path = .ok t)
    (ht : t.Encoded) :
    load fs file = .ok (.ofText file.path file.package file.language t) := by
  obtain ⟨cs, rfl⟩ := ht
  have hstring : (Text.ofChars cs).toString? = some (String.ofList cs) := by
    simpa using Text.toString?_ofChars (String.ofList cs)
  have htext : Text.ofString (String.ofList cs) = Text.ofChars cs := by
    rw [Text.ofString_eq_ofChars, String.toList_ofList]
  simp only [load, System.readString, hread, hstring, htext]

theorem load_of_loadAll {files : List SourceFile} {ds : DocumentSet}
    (h : loadAll fs files = .ok ds) {f : SourceFile} (hf : f ∈ files) :
    ∃ d, load fs f = .ok d := by
  obtain ⟨loaded, hloaded, _⟩ := map_eq_ok h
  obtain ⟨hlength, hall⟩ := mapM_eq_ok hloaded
  obtain ⟨i, hi, rfl⟩ := List.mem_iff_getElem.mp hf
  have hd : i < loaded.length := hlength ▸ hi
  obtain ⟨f, hf, hload⟩ := hall i loaded[i] (List.getElem?_eq_getElem hd)
  rw [List.getElem?_eq_getElem hi, Option.some.injEq] at hf
  exact ⟨_, hf ▸ hload⟩

theorem loadAll_paths {files : List SourceFile} {ds : DocumentSet}
    (h : loadAll fs files = .ok ds) : ds.documents.map (·.path) = files.map (·.path) := by
  obtain ⟨loaded, hloaded, rfl⟩ := map_eq_ok h
  obtain ⟨hlength, hall⟩ := mapM_eq_ok hloaded
  refine List.ext_getElem (by simp [hlength]) fun i hd _ => ?_
  rw [List.length_map] at hd
  obtain ⟨f, hf, hread⟩ := hall i loaded[i] (List.getElem?_eq_getElem hd)
  obtain ⟨hi, rfl⟩ := List.getElem?_eq_some_iff.mp hf
  simpa using (load_eq_ok hread).1

/-- A directory without links is marked by its entries. -/
theorem isMarked_eq {dir : String} {names : List String} {es : List (String × Node)}
    (h : fs.find dir = .ok (names, .directory es))
    (hlink : ∀ e ∈ es, ∀ target, e.2 ≠ .link (.path target)) :
    (markers.any fun m => fs.contains (Path.join dir m)) =
      markers.any fun m => (es.lookup m).isSome := by
  have hmarkers : ∀ m ∈ markers, IsName m := by decide
  rw [Bool.eq_iff_iff, List.any_eq_true, List.any_eq_true]
  exact exists_congr fun m => and_congr_right fun hm => by
    rw [System.contains_join h (hmarkers m hm) hlink]

private theorem markedAbove_prefix {depth : Nat} {names : List String} {dir : String}
    (hnames : ∀ s ∈ names, IsName s)
    (h : markedAbove fs depth (Place.path ⟨names, none⟩) = some dir) :
    ∃ base, base <+: names ∧ dir = Place.path ⟨base, none⟩ := by
  induction depth generalizing names with
  | zero => cases h
  | succ depth ih =>
    rw [markedAbove] at h
    split at h
    · cases h
      exact ⟨names, List.prefix_rfl, rfl⟩
    · rcases List.eq_nil_or_concat names with rfl | ⟨above, name, rfl⟩
      · rw [Place.parent?_root] at h
        cases h
      · rw [List.concat_eq_append] at h hnames ⊢
        rw [Place.parent?_path hnames] at h
        dsimp only at h
        split at h
        · cases h
        · obtain ⟨base, hbase, hdir⟩ :=
            ih (fun s hs => hnames s (List.mem_append_left _ hs)) h
          exact ⟨base, hbase.trans (List.prefix_append above [name]), hdir⟩

/-- The root of the project of a file is a directory above the file. -/
theorem rootOf_prefix (hfs : Regular fs) {names : List String} {content : Text} {x : Bool}
    (hfile : fs.get? names = some (.file content x)) :
    ∃ base es, base <+: names ∧ base ≠ names ∧ rootOf fs (Place.path ⟨names, none⟩) =
      Place.path ⟨base, none⟩ ∧ fs.get? base = some (.directory es) := by
  have hnames : ∀ s ∈ names, IsName s := hfs.legal.isName hfile
  have hnotdir : fs.isDirectory (Place.path ⟨names, none⟩) = false := by
    rw [System.isDirectory, hfs.find_path hfile (by simp)]
  rcases List.eq_nil_or_concat names with rfl | ⟨above, name, rfl⟩
  · obtain ⟨es, hroot⟩ := hfs.root
    rw [System.get?, Node.get?_nil, hroot] at hfile
    cases hfile
  rw [List.concat_eq_append] at hnames hfile hnotdir ⊢
  have habove : ∃ base, base <+: above ∧ rootOf fs (Place.path ⟨above ++ [name], none⟩) =
      Place.path ⟨base, none⟩ := by
    rw [rootOf, hnotdir, Place.parent?_path hnames]
    simp only [Bool.false_eq_true, if_false, Option.getD_some]
    cases hmarked : markedAbove fs ((Place.path ⟨above, none⟩).length + 1)
        (Place.path ⟨above, none⟩) with
    | none => exact ⟨above, List.prefix_rfl, rfl⟩
    | some dir =>
      obtain ⟨base, hbase, rfl⟩ :=
        markedAbove_prefix (fun s hs => hnames s (List.mem_append_left _ hs)) hmarked
      exact ⟨base, hbase, rfl⟩
  obtain ⟨base, ⟨middle, rfl⟩, hrootOf⟩ := habove
  obtain ⟨next, more, hmore⟩ := List.exists_cons_of_ne_nil (show middle ++ [name] ≠ [] by simp)
  rw [List.append_assoc, hmore] at hfile hrootOf ⊢
  obtain ⟨es, hes⟩ := Node.exists_directory_of_get?_append hfile
  exact ⟨base, es, List.prefix_append base _, by simp, hrootOf, hes⟩

end RepairSearch.Project
