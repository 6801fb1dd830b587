import RepairSearch.Proofs.Project.Snapshot

/-!
# Snapshots that mirror a directory

If the names below a source directory have no dots but those before the extensions of files, a
snapshot puts each file where it is below that directory, so none takes the place of another.
-/

namespace RepairSearch.Project

open Files

/-- Names without dots, but for the one before the extension of the file. -/
structure Plain (below : List String) : Prop where
  directories : ∀ s ∈ below.dropLast, '.' ∉ s.toList
  file : ∀ s ∈ below.getLast?, s.toList.count '.' ≤ 1

private theorem Plain.stem {front : List String} {stem extension : String}
    (h : Plain (front ++ [stem ++ "." ++ extension])) : ∀ s ∈ front ++ [stem], '.' ∉ s.toList := by
  intro s hs
  rcases List.mem_append.mp hs with hs | hs
  · exact h.directories s (by simpa using hs)
  · have hcount := h.file (stem ++ "." ++ extension) (by simp)
    have hdot : ".".toList.count '.' = 1 := by decide
    rw [String.toList_append, String.toList_append, List.count_append, List.count_append,
      hdot] at hcount
    rw [List.mem_singleton.mp hs]
    exact List.count_eq_zero.mp (by omega)

private theorem flatMap_packageParts_dotless {ss : List String}
    (h : ∀ s ∈ ss, packageParts s = [s]) :
    ss.flatMap packageParts = ss := by
  induction ss with
  | nil => rfl
  | cons s ss ih =>
    rw [List.flatMap_cons, h s List.mem_cons_self, ih fun t ht => h t (List.mem_cons_of_mem s ht)]
    rfl

section

variable {fs : System} {paths : List String} {d : Document} {base below : List String}

private theorem Sourced.exists_stem (hfs : Regular fs) (h : Sourced fs paths d base below) :
    ∃ front stem extension, below = front ++ [stem ++ "." ++ extension] ∧
      Path.extension? d.path = some extension ∧
      packageParts d.package = (front ++ [stem]).flatMap packageParts ∧
      ∀ s ∈ front ++ [stem], s ≠ "" ∧ '/' ∉ s.toList := by
  obtain ⟨front, stem, extension, rfl, hstem, hextension, hparts⟩ := h.parts
  obtain ⟨content, x, hfile⟩ := h.file
  have hnames : ∀ s ∈ base ++ (front ++ [stem ++ "." ++ extension]), IsName s :=
    hfs.legal.isName hfile
  refine ⟨front, stem, extension, rfl, hextension, hparts, fun s hs => ?_⟩
  rcases List.mem_append.mp hs with hs | hs
  · have hname := hnames s (by simp [hs])
    exact ⟨hname.ne_empty, hname.slash_not_mem⟩
  · have hname := (hnames (stem ++ "." ++ extension) (by simp)).slash_not_mem
    rw [List.mem_singleton.mp hs]
    exact ⟨hstem, fun hmem => hname (by simp [hmem])⟩

private theorem Sourced.snapshotNames_eq (hfs : Regular fs) (h : Sourced fs paths d base below)
    (hplain : Plain below) : snapshotNames d = below := by
  obtain ⟨front, stem, extension, rfl, hextension, hparts, hnames⟩ := h.exists_stem hfs
  have hdotless : ∀ s ∈ front ++ [stem], packageParts s = [s] := fun s hs =>
    packageParts_dotless (hnames s hs).1 (hnames s hs).2 (hplain.stem s hs)
  rw [flatMap_packageParts_dotless hdotless] at hparts
  exact snapshotNames_concat hparts hextension

private theorem Sourced.startsWith_eq_false (hfs : Regular fs) (h : Sourced fs paths d base below)
    (hplain : Plain below) : d.package.startsWith '.' = false := by
  obtain ⟨front, stem, extension, rfl, _, _, hnames⟩ := h.exists_stem hfs
  obtain ⟨s, rest, hs, hfirst⟩ : ∃ s rest, s ∈ front ++ [stem] ∧
      (front ++ [stem ++ "." ++ extension]).head? = some (s ++ rest) := by
    cases front with
    | nil => exact ⟨stem, "." ++ extension, by simp, by simp [String.append_assoc]⟩
    | cons s front => exact ⟨s, "", by simp, by simp⟩
  obtain ⟨c, cs, hchars⟩ :=
    List.exists_cons_of_ne_nil (mt String.toList_eq_nil_iff.mp (hnames s hs).1)
  have hdot := hplain.stem s hs
  rw [hchars, List.mem_cons, not_or] at hdot
  rw [h.dot _ hfirst, String.startsWith_char_eq_head?, String.toList_append, hchars]
  simpa using Ne.symm hdot.1

private theorem Sourced.base_eq {path : String} {place : List String} {es : List (String × Node)}
    (h : Sourced fs [path] d base below) (hfind : fs.find path = .ok (place, .directory es)) :
    base = place := by
  obtain ⟨_, hpath, hsource⟩ := h.source
  rw [List.mem_singleton.mp hpath, hfind] at hsource
  rcases hsource with ⟨es', hes⟩ | ⟨name, n, hname, hn⟩
  · exact (congrArg Prod.fst (Except.ok.inj hes)).symm
  · obtain ⟨content, x, hfile⟩ := h.file
    obtain ⟨hplace, hdirectory⟩ := Prod.mk.inj (Except.ok.inj hn)
    rw [← hplace, System.get?_of_find hfind] at hfile
    cases hfile

end

private theorem nodup_paths {fs : System} {paths : List String} {files : List SourceFile}
    {ds : DocumentSet} (hfs : Regular fs) (hdiscover : discover fs paths = .ok files)
    (hload : loadAll fs files = .ok ds) {docs : List Document}
    (hedited : List.Forall₂ Document.Edited ds.documents docs) : (docs.map (·.path)).Nodup := by
  have hloaded : ∀ d ∈ ds.documents, d.Fresh :=
    fun d hd => (loadAll_sourced hfs hdiscover hload hd).1
  have hsame : docs.map (·.path) = ds.documents.map (·.path) := by
    clear hload
    generalize ds.documents = loaded at hedited hloaded
    induction hedited with
    | nil => rfl
    | cons hd _ ih =>
      rw [List.map_cons, List.map_cons, (hd.sameSource (hloaded _ List.mem_cons_self)).path,
        ih fun d hd => hloaded d (List.mem_cons_of_mem _ hd)]
  rw [hsame, loadAll_paths hload]
  exact discover_nodup hdiscover

/-- What was found below one directory is stored in an empty one, in any state. If all names are
plain, the snapshot has exactly the files that were found, each with the text of its document and
where it is below the directory. -/
theorem storeSnapshot_mirror {fs fs' : System} {path directory : String}
    {base place : List String} {es : List (String × Node)} {files : List SourceFile}
    {ds : DocumentSet} {docs : List Document} (hfs : Regular fs)
    (hsource : fs.find path = .ok (base, .directory es))
    (hdiscover : discover fs [path] = .ok files) (hload : loadAll fs files = .ok ds)
    (hedited : List.Forall₂ Document.Edited ds.documents docs)
    (hplain : ∀ d ∈ docs, ∀ below, d.path = Place.path ⟨base ++ below, none⟩ → Plain below)
    (hempty : fs.find directory = .ok (place, .directory []))
    (hstore : storeSnapshot directory docs fs = (.ok (), fs')) :
    (∀ d ∈ docs, ∃ below, d.path = Place.path ⟨base ++ below, none⟩ ∧
      fs'.textAt? (place ++ below) = some d.current) ∧
    ∀ rest, (fs'.textAt? (place ++ rest)).isSome →
      ∃ d ∈ docs, d.path = Place.path ⟨base ++ rest, none⟩ := by
  have hmirror : ∀ d ∈ docs, d.path = Place.path ⟨base ++ snapshotNames d, none⟩ ∧
      Packaged d ∧ d.package.startsWith '.' = false := by
    intro d hd
    obtain ⟨base', below, h⟩ := edited_sourced hfs hdiscover hload hedited hd
    obtain rfl := h.base_eq hsource
    have hbelow := hplain d hd below h.path
    refine ⟨?_, h.toPackaged, h.startsWith_eq_false hfs hbelow⟩
    rw [h.snapshotNames_eq hfs hbelow]
    exact h.path
  obtain ⟨hfiles, htexts⟩ :=
    storeSnapshot_texts hfs.grounded hempty (fun d hd => (hmirror d hd).2) hstore
  have hnodup : (docs.map snapshotNames).Nodup := by
    -- the names tell the path, and the paths are different
    have hpaths : docs.map (·.path) =
        (docs.map snapshotNames).map fun names => Place.path ⟨base ++ names, none⟩ := by
      rw [List.map_map]
      exact List.map_congr_left fun d hd => (hmirror d hd).1
    exact (hpaths ▸ nodup_paths hfs hdiscover hload hedited).of_map
  constructor
  · exact fun d hd => ⟨snapshotNames d, (hmirror d hd).1, htexts hnodup d hd⟩
  · intro rest hrest
    obtain ⟨d, hd, rfl⟩ := List.mem_map.mp ((hfiles rest).mp hrest)
    exact ⟨d, hd, (hmirror d hd).1⟩

end RepairSearch.Project
