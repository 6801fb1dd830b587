import Mathlib.Data.List.Forall2
import Mathlib.Data.List.Nodup
import Mathlib.Data.List.Perm.Subperm
import RepairSearch.Proofs.Files.Inside
import RepairSearch.Proofs.Files.Texts
import RepairSearch.Proofs.Project.Package
import RepairSearch.Proofs.Project.Placement

/-!
# What a snapshot leaves

A snapshot stays below its directory as long as no package begins with a dot, and it has a file for
each document as long as no two packages with the same parts have the same extension. A package that
begins with a dot leads to a place below the root instead, whatever the directory is.
-/

namespace RepairSearch

/-- A document after any calls. -/
def Document.Edited (d d' : Document) : Prop := ∃ calls, ((History.start d).run calls).document = d'

theorem Document.Edited.sameSource {d d' : Document} (h : d.Edited d') (hd : d.Fresh) :
    d'.SameSource d := by
  obtain ⟨calls, rfl⟩ := h
  exact (hd.replays calls).sameSource

namespace Project

open Files RepairSearch.Path

section

variable {fs fs' : System} {directory : String} {place : List String} {d : Document}

private theorem Sourced.of_sameSource {paths : List String} {base below : List String}
    {d' : Document} (h : Sourced fs paths d base below) (hsrc : d'.SameSource d) :
    Sourced fs paths d' base below where
  nonempty := hsrc.package ▸ h.nonempty
  slash := hsrc.package ▸ h.slash
  extension := hsrc.path ▸ h.extension
  source := h.source
  path := hsrc.path.trans h.path
  file := h.file
  parts := by
    rw [hsrc.path, hsrc.package]
    exact h.parts
  dot := by
    rw [hsrc.package]
    exact h.dot

private theorem exists_of_forall₂ {α β : Type} {R : α → β → Prop} {as : List α} {bs : List β}
    (h : List.Forall₂ R as bs) {b : β} (hb : b ∈ bs) : ∃ a ∈ as, R a b := by
  induction h with
  | nil => cases hb
  | cons hab hrest ih =>
    rcases List.mem_cons.mp hb with rfl | hb
    · exact ⟨_, List.mem_cons_self, hab⟩
    · obtain ⟨a, ha, hr⟩ := ih hb
      exact ⟨a, List.mem_cons_of_mem _ ha, hr⟩

theorem edited_sourced (hfs : Regular fs) {paths : List String} {files : List SourceFile}
    {ds : DocumentSet} (hdiscover : discover fs paths = .ok files)
    (hload : loadAll fs files = .ok ds) {docs : List Document}
    (hedited : List.Forall₂ Document.Edited ds.documents docs) (hd : d ∈ docs) :
    ∃ base below, Sourced fs paths d base below := by
  obtain ⟨d₀, hd₀, hcalls⟩ := exists_of_forall₂ hedited hd
  obtain ⟨hfresh, base, below, hsourced⟩ := loadAll_sourced hfs hdiscover hload hd₀
  exact ⟨base, below, hsourced.of_sameSource (hcalls.sameSource hfresh)⟩

private theorem storeSnapshot_cons (directory : String) (d : Document) (docs : List Document)
    (fs : System) :
    storeSnapshot directory (d :: docs) fs =
      match storeDocument directory d fs with
      | (.ok (), fs) => storeSnapshot directory docs fs
      | r => r := rfl

private theorem makeParent_changedBelow (hbase : fs.LeadsTo directory place) {target name : String}
    {front : List String} (hnames : ∀ s ∈ front ++ [name], IsName s)
    (h : components target = components directory ++ (front ++ [name]).map .name) :
    System.ChangedBelow place fs (makeParent target fs).2 := by
  rw [makeParent]
  cases hparent : parent? target with
  | none => exact .refl place fs
  | some parent =>
    obtain ⟨hne, habove⟩ := hbase.parent? h hparent
    have hmade :=
      hbase.makeDirectories hne (fun s hs => hnames s (List.mem_append_left _ hs)) habove
    dsimp only
    cases hmake : fs.makeDirectories parent with
    | mk r fs₁ =>
      rw [hmake] at hmade
      cases r <;> exact hmade

section

variable (hbase : fs.LeadsTo directory place) (h : Packaged d)
  (hdot : d.package.startsWith '.' = false)
include hbase h hdot

private theorem storeDocument_changedBelow :
    System.ChangedBelow place fs (storeDocument directory d fs).2 := by
  obtain ⟨front, last, extension, _, _, hnames, _⟩ := h.exists_names hdot
  have hcomponents := h.components_snapshotPath directory
  rw [hdot, if_neg Bool.false_ne_true, hnames] at hcomponents
  have hisName : ∀ s ∈ front ++ [last ++ "." ++ extension], IsName s :=
    fun s hs => h.isName (hnames ▸ hs)
  unfold storeDocument
  dsimp only
  generalize snapshotPath directory d = target at hcomponents ⊢
  have hparents := makeParent_changedBelow hbase hisName hcomponents
  cases hmake : makeParent target fs with
  | mk r fs₁ =>
    rw [hmake] at hparents
    cases r with
    | error e => exact hparents
    | ok _ =>
      dsimp only
      split
      · rename_i fs₂ hwrite
        exact hparents.trans ((hbase.changed hparents).write hisName (by simp) hcomponents hwrite)
      · exact hparents

private theorem find_snapshotPath {names : List String} {n : Node}
    (hfind : fs.find (snapshotPath directory d) = .ok (names, n)) :
    names = place ++ snapshotNames d := by
  obtain ⟨front, last, extension, _, _, hnames, _⟩ := h.exists_names hdot
  have hcomponents := h.components_snapshotPath directory
  rw [hdot, if_neg Bool.false_ne_true] at hcomponents
  exact hbase.locate (fun s hs => h.isName hs) (by simp [hnames]) hcomponents
    (System.locate_of_find hfind)

end

private theorem storeSnapshot_changedBelow (hbase : fs.LeadsTo directory place)
    {docs : List Document} (hdocs : ∀ d ∈ docs, Packaged d ∧ d.package.startsWith '.' = false) :
    System.ChangedBelow place fs (storeSnapshot directory docs fs).2 := by
  induction docs generalizing fs with
  | nil => exact .refl place fs
  | cons d docs ih =>
    obtain ⟨h, hdot⟩ := hdocs d List.mem_cons_self
    have hfirst := storeDocument_changedBelow hbase h hdot
    rw [storeSnapshot_cons]
    cases hstore : storeDocument directory d fs with
    | mk r fs₁ =>
      rw [hstore] at hfirst
      cases r with
      | error e => exact hfirst
      | ok _ =>
        have hrest := ih (hbase.changed hfirst) fun d hd => hdocs d (List.mem_cons_of_mem _ hd)
        exact hfirst.trans hrest

theorem Regular.grounded (hfs : Regular fs) : fs.Grounded := by
  obtain ⟨es, hes⟩ := hfs.workingDirectory
  rw [System.Grounded, hes]
  exact Option.some_ne_none _

private theorem writes_makeParent (hground : fs.Grounded) (target : String) :
    System.Writes [] fs (makeParent target fs).2 := by
  rw [makeParent]
  cases parent? target with
  | none => exact .refl fs
  | some parent =>
    have hmade := System.writes_makeDirectories hground parent
    dsimp only
    cases hmake : fs.makeDirectories parent with
    | mk r fs₁ =>
      rw [hmake] at hmade
      cases r <;> exact hmade

private theorem storeDocument_eq_ok (hground : fs.Grounded)
    (h : storeDocument directory d fs = (.ok (), fs')) :
    ∃ names x, fs'.find (snapshotPath directory d) = .ok (names, .file d.current x) ∧
      System.Writes [(names, d.current)] fs fs' := by
  unfold storeDocument at h
  dsimp only at h
  generalize snapshotPath directory d = target at h ⊢
  have hparents := writes_makeParent hground target
  cases hmake : makeParent target fs with
  | mk r fs₁ =>
    rw [hmake] at hparents h
    cases r with
    | error e => cases h
    | ok _ =>
      dsimp only at h
      split at h
      · rename_i fs₂ hwrite
        obtain rfl : fs₂ = fs' := congrArg Prod.snd h
        obtain ⟨names, x, hfind, hwrites⟩ := System.writes_of_write hwrite
        exact ⟨names, x, hfind, hparents.trans hwrites⟩
      · cases h

/-- The target of a document leads to a file at a place. -/
def Leads (fs : System) (directory : String) (d : Document) (names : List String) : Prop :=
  ∃ content x, fs.find (snapshotPath directory d) = .ok (names, .file content x)

private theorem Leads.grows {names : List String} (h : Leads fs directory d names)
    (hgrows : System.Grows fs fs') : Leads fs' directory d names := by
  obtain ⟨content, x, hfind⟩ := h
  obtain ⟨n, hfind', hout⟩ := hgrows.find hfind
  obtain ⟨content', x', rfl⟩ := Node.outline_eq_file hout
  exact ⟨content', x', hfind'⟩

private theorem Leads.read {names : List String} {text : Text} (h : Leads fs directory d names)
    (htext : fs.textAt? names = some text) : fs.read (snapshotPath directory d) = .ok text := by
  obtain ⟨content, x, hfind⟩ := h
  rw [System.textAt?, System.get?_of_find hfind] at htext
  rw [System.read, hfind, Option.some.inj htext]

/-- A snapshot that could be stored is a write for each document, in the order of the documents. -/
theorem storeSnapshot_eq_ok (hground : fs.Grounded) {docs : List Document}
    (h : storeSnapshot directory docs fs = (.ok (), fs')) :
    ∃ places, List.Forall₂ (Leads fs' directory) docs places ∧
      System.Writes (places.zip (docs.map (·.current))) fs fs' := by
  induction docs generalizing fs with
  | nil =>
    obtain rfl : fs = fs' := congrArg Prod.snd h
    exact ⟨[], .nil, .refl fs⟩
  | cons d docs ih =>
    rw [storeSnapshot_cons] at h
    cases hstore : storeDocument directory d fs with
    | mk r fs₁ =>
      rw [hstore] at h
      cases r with
      | error e => cases h
      | ok _ =>
        obtain ⟨names, x, hfind, hfirst⟩ := storeDocument_eq_ok hground hstore
        obtain ⟨places, hplaces, hrest⟩ := ih (hground.grows hfirst.toGrows) h
        have hleads : Leads fs₁ directory d names := ⟨_, x, hfind⟩
        exact ⟨names :: places, .cons (hleads.grows hrest.toGrows) hplaces, hfirst.trans hrest⟩

theorem read_of_nodup {docs : List Document} {places : List (List String)}
    (hplaces : List.Forall₂ (Leads fs' directory) docs places)
    (hwrites : System.Writes (places.zip (docs.map (·.current))) fs fs') (hnodup : places.Nodup)
    (hd : d ∈ docs) : fs'.read (snapshotPath directory d) = .ok d.current := by
  have hlength : places.length = (docs.map (·.current)).length := by
    rw [List.length_map, hplaces.length_eq]
  obtain ⟨i, hi, rfl⟩ := List.mem_iff_getElem.mp hd
  have hi' : i < places.length := hplaces.length_eq ▸ hi
  have hleads : Leads fs' directory docs[i] places[i] := hplaces.get hi hi'
  have hmem : (places[i], docs[i].current) ∈ places.zip (docs.map (·.current)) := by
    refine List.mem_iff_getElem.mpr ⟨i, ?_, ?_⟩
    · rw [List.length_zip, ← hlength]
      omega
    · rw [List.getElem_zip, List.getElem_map]
  refine hleads.read ?_
  rw [hwrites.texts]
  exact System.written_of_nodup (by rwa [List.map_fst_zip (Nat.le_of_eq hlength)]) hmem

private theorem places_eq (hbase : fs.LeadsTo directory place) {docs : List Document}
    {places : List (List String)} (hplaces : List.Forall₂ (Leads fs directory) docs places)
    (hdocs : ∀ d ∈ docs, Packaged d ∧ d.package.startsWith '.' = false) :
    places = docs.map fun d => place ++ snapshotNames d := by
  induction hplaces with
  | nil => rfl
  | cons hleads _ ih =>
    obtain ⟨h, hdot⟩ := hdocs _ List.mem_cons_self
    obtain ⟨content, x, hfind⟩ := hleads
    rw [find_snapshotPath hbase h hdot hfind, ih fun d hd => hdocs d (List.mem_cons_of_mem _ hd)]
    rfl

/-- A snapshot that could be stored in an empty directory has a file for each document at its names,
and no other. It has the texts of all documents if these names are different. -/
theorem storeSnapshot_texts (hground : fs.Grounded)
    (hempty : fs.find directory = .ok (place, .directory [])) {docs : List Document}
    (hdocs : ∀ d ∈ docs, Packaged d ∧ d.package.startsWith '.' = false)
    (h : storeSnapshot directory docs fs = (.ok (), fs')) :
    (∀ rest, (fs'.textAt? (place ++ rest)).isSome ↔ rest ∈ docs.map snapshotNames) ∧
    ((docs.map snapshotNames).Nodup →
      ∀ d ∈ docs, fs'.textAt? (place ++ snapshotNames d) = some d.current) := by
  obtain ⟨places, hplaces, hwrites⟩ := storeSnapshot_eq_ok hground h
  have hbase : fs.LeadsTo directory place := ⟨[], hempty, Node.unlinked_directory (by simp)⟩
  have hchanged := storeSnapshot_changedBelow hbase hdocs
  rw [h] at hchanged
  have htexts : fs'.textAt? = System.written
      (docs.map fun d => (place ++ snapshotNames d, d.current)) fs.textAt? := by
    rw [hwrites.texts, places_eq (hbase.changed hchanged) hplaces hdocs, List.zip_map']
  have hbefore : ∀ rest, fs.textAt? (place ++ rest) = none := by
    intro rest
    rw [System.textAt?, System.get?_append (System.get?_of_find hempty)]
    cases rest <;> simp [Node.get?_cons]
  constructor
  · intro rest
    rw [htexts, System.isSome_written, hbefore]
    simp
  · intro hnodup d hd
    have hkeys : ((docs.map fun d => (place ++ snapshotNames d, d.current)).map (·.1)).Nodup := by
      have hplaces := hnodup.map (List.append_right_injective place)
      rw [List.map_map] at hplaces ⊢
      exact hplaces
    rw [htexts]
    exact System.written_of_nodup hkeys (List.mem_map.mpr ⟨d, hd, rfl⟩)

variable {paths : List String} {files : List SourceFile} {ds : DocumentSet} {docs : List Document}

/-- Documents that were loaded from discovered files, in any state, are stored in a directory
without links. The target of each is below the directory and has the names of its package and
extension, unless the first name below its source path begins with a dot: then these names are
below the root. If there is no such name, nothing changes but what is strictly below the
directory, whether all documents can be stored or not. -/
theorem storeSnapshot_inside (hfs : Regular fs) (hdiscover : discover fs paths = .ok files)
    (hload : loadAll fs files = .ok ds)
    (hedited : List.Forall₂ Document.Edited ds.documents docs)
    (hdirectory : fs.LeadsTo directory place) :
    (∀ d ∈ docs, ∃ base below, Sourced fs paths d base below ∧ ∀ first ∈ below.head?,
      components (snapshotPath directory d) =
        (if first.startsWith '.' then [.root] else components directory) ++
          (snapshotNames d).map .name) ∧
    ((∀ d ∈ docs, d.package.startsWith '.' = false) →
      System.ChangedBelow place fs (storeSnapshot directory docs fs).2) := by
  have hsourced := fun d hd => edited_sourced (d := d) hfs hdiscover hload hedited hd
  refine ⟨fun d hd => ?_, fun hdots => ?_⟩
  · obtain ⟨base, below, h⟩ := hsourced d hd
    refine ⟨base, below, h, fun first hfirst => ?_⟩
    rw [h.components_snapshotPath directory, h.dot first hfirst]
  · refine storeSnapshot_changedBelow hdirectory fun d hd => ⟨?_, hdots d hd⟩
    obtain ⟨base, below, h⟩ := hsourced d hd
    exact h.toPackaged

end

namespace Hidden

/-- A file whose name begins with a dot, and an empty directory for the snapshot. -/
def fs : System where
  root := .directory [("s", .directory [(".tmp.py", .file [120] false)]), ("w", .directory [])]
  workingDirectory := []

def document : Document := .ofText "/s/.tmp.py" ".tmp" .python [120]

private theorem regular : Regular fs := ⟨⟨_, rfl⟩, by decide, ⟨_, rfl⟩⟩

private theorem find_source : fs.find "/s/.tmp.py" = .ok (["s", ".tmp.py"], .file [120] false) :=
  have hget : fs.get? ["s", ".tmp.py"] = some (.file [120] false) := rfl
  regular.find_path hget (by simp)

private theorem find_target : fs.find "/w" = .ok (["w"], .directory []) :=
  have hget : fs.get? ["w"] = some (.directory []) := rfl
  regular.find_path hget (by simp)

private theorem discover_eq :
    discover fs ["/s/.tmp.py"] = .ok [⟨"/s/.tmp.py", ".tmp", .python⟩] := by
  have hexpand : expand fs "/s/.tmp.py" = .ok [⟨"/s/.tmp.py", ".tmp", .python⟩] := by
    rw [expand, find_source]
    rfl
  simp only [discover, List.mapM_cons, List.mapM_nil, hexpand]
  rfl

private theorem loadAll_eq : loadAll fs [⟨"/s/.tmp.py", ".tmp", .python⟩] = .ok ⟨[document]⟩ := by
  have hload : load fs ⟨"/s/.tmp.py", ".tmp", .python⟩ = .ok document :=
    load_of_read (by rw [System.read, find_source]) (.ascii (by decide))
  simp only [loadAll, List.mapM_cons, List.mapM_nil, hload]
  rfl

end Hidden

private theorem edited_refl (docs : List Document) : List.Forall₂ Document.Edited docs docs :=
  List.forall₂_same.mpr fun _ _ => ⟨[], rfl⟩

/-- The snapshot of `.tmp.py` goes to the root, and that of two files named `app.py` goes where it
should. -/
theorem storeSnapshot_inside_hidden :
    components (snapshotPath "/w" Hidden.document) = [.root, .name "tmp.py"] ∧
      System.ChangedBelow ["w"] TwoFiles.fs
        (storeSnapshot "/w" TwoFiles.documents.documents TwoFiles.fs).2 := by
  constructor
  · have hdirectory : Hidden.fs.LeadsTo "/w" ["w"] :=
      ⟨[], Hidden.find_target, Node.unlinked_directory (by simp)⟩
    obtain ⟨base, below, hsourced, hcomponents⟩ :=
      (storeSnapshot_inside Hidden.regular Hidden.discover_eq Hidden.loadAll_eq
        (edited_refl [Hidden.document]) hdirectory).1 Hidden.document List.mem_cons_self
    obtain ⟨path, hpath, hsource⟩ := hsourced.source
    rw [List.mem_singleton.mp hpath, Hidden.find_source] at hsource
    obtain ⟨es, hes⟩ | ⟨name, n, rfl, hfind⟩ := hsource
    · cases hes
    · have hnames : ["s"] ++ [".tmp.py"] = base ++ [name] := congrArg Prod.fst (Except.ok.inj hfind)
      obtain ⟨_, hname⟩ := List.append_inj' hnames rfl
      rw [hcomponents name rfl, ← List.singleton_inj.mp hname]
      decide
  · have hdirectory : TwoFiles.fs.LeadsTo "/w" ["w"] :=
      ⟨[], System.find_of_path rfl (by decide) (by decide) rfl (by simp),
        Node.unlinked_directory (by simp)⟩
    exact (storeSnapshot_inside TwoFiles.regular TwoFiles.discover_eq TwoFiles.loadAll_eq
      (edited_refl _) hdirectory).2 (by decide)

section

variable {fs fs' : System} {directory : String} {place : List String} {paths : List String}
  {files : List SourceFile} {ds : DocumentSet} {docs : List Document}

/-- A snapshot of such documents that could be stored in an empty directory. Every target leads to a
file, and if no two lead to the same one, each has the text of its document. If no package begins
with a dot, the files in the directory are those with the names of the documents. Then there are
different files with the texts of all documents exactly if these names are different, and they are
the same exactly for packages with the same parts and the same extension. -/
theorem storeSnapshot_complete (hfs : Regular fs) (hdiscover : discover fs paths = .ok files)
    (hload : loadAll fs files = .ok ds)
    (hedited : List.Forall₂ Document.Edited ds.documents docs)
    (hempty : fs.find directory = .ok (place, .directory []))
    (hstore : storeSnapshot directory docs fs = (.ok (), fs')) :
    (∃ places, List.Forall₂ (Leads fs' directory) docs places ∧
      (places.Nodup → ∀ d ∈ docs, fs'.read (snapshotPath directory d) = .ok d.current)) ∧
    ((∀ d ∈ docs, d.package.startsWith '.' = false) →
      (∀ rest, (fs'.textAt? (place ++ rest)).isSome ↔ rest ∈ docs.map snapshotNames) ∧
      ((∃ kept : List (List String), kept.Nodup ∧
          List.Forall₂ (fun d rest => fs'.textAt? (place ++ rest) = some d.current) docs kept) ↔
        (docs.map snapshotNames).Nodup) ∧
      ∀ d ∈ docs, ∀ d' ∈ docs, (snapshotNames d = snapshotNames d' ↔
        packageParts d.package = packageParts d'.package ∧
          extension? d.path = extension? d'.path)) := by
  have hsourced := fun d hd => edited_sourced (d := d) hfs hdiscover hload hedited hd
  obtain ⟨places, hplaces, hwrites⟩ := storeSnapshot_eq_ok hfs.grounded hstore
  refine ⟨⟨places, hplaces, fun hnodup d hd => read_of_nodup hplaces hwrites hnodup hd⟩,
    fun hdots => ?_⟩
  have hpackaged : ∀ d ∈ docs, Packaged d ∧ d.package.startsWith '.' = false := by
    intro d hd
    obtain ⟨base, below, h⟩ := hsourced d hd
    exact ⟨h.toPackaged, hdots d hd⟩
  obtain ⟨hfiles, htexts⟩ := storeSnapshot_texts hfs.grounded hempty hpackaged hstore
  refine ⟨hfiles, ⟨?_, fun hnodup => ?_⟩, fun d hd d' hd' => ?_⟩
  · rintro ⟨kept, hnodup, hkept⟩
    have hsubset : kept ⊆ docs.map snapshotNames := by
      intro rest hrest
      obtain ⟨d, _, htext⟩ := exists_of_forall₂ hkept hrest
      exact (hfiles rest).mp (by rw [htext]; rfl)
    have hlength : (docs.map snapshotNames).length ≤ kept.length := by
      rw [List.length_map, hkept.length_eq]
    exact ((List.subperm_of_subset hnodup hsubset).perm_of_length_le hlength).nodup_iff.mp hnodup
  · refine ⟨docs.map snapshotNames, hnodup, ?_⟩
    rw [List.forall₂_map_right_iff, List.forall₂_same]
    exact htexts hnodup
  · exact snapshotNames_eq_iff (hpackaged d hd).1 (hpackaged d' hd').1 (hdots d hd) (hdots d' hd')

end

private theorem storeDocument_of_write {fs fs' : System} {directory : String} {names : List String}
    {es : List (String × Node)} {d : Document}
    (hdir : fs.find directory = .ok (names, .directory es))
    (hparent : parent? (snapshotPath directory d) = some directory)
    (hwrite : fs.write (snapshotPath directory d) d.current = .ok fs') :
    storeDocument directory d fs = (.ok (), fs') := by
  have hmake : makeParent (snapshotPath directory d) fs = (.ok (), fs) := by
    rw [makeParent, hparent]
    dsimp only
    rw [System.makeDirectories_of_find hdir]
  unfold storeDocument
  dsimp only
  rw [hmake]
  dsimp only
  rw [hwrite]

/-- Two files named `app.py` that are given by their paths have the same package, so the second one
takes the place of the first. -/
theorem storeSnapshot_complete_sameName :
    ∃ fs', storeSnapshot "/w" TwoFiles.documents.documents TwoFiles.fs = (.ok (), fs') ∧
      (fs'.textAt? ["w", "app.py"]).isSome ∧
      ¬ ∃ kept : List (List String), kept.Nodup ∧
        List.Forall₂ (fun d rest => fs'.textAt? (["w"] ++ rest) = some d.current)
          TwoFiles.documents.documents kept := by
  have hempty : TwoFiles.fs.find "/w" = .ok (["w"], .directory []) :=
    System.find_of_path rfl (by decide) (by decide) rfl (by simp)
  have hnew : TwoFiles.fs.locate true "/w/app.py" = .ok ⟨["w", "app.py"], none⟩ :=
    System.locate_join_new true hempty (show IsName "app.py" by decide) rfl
  obtain ⟨fs₁, hfirst, hfile⟩ : ∃ fs₁, TwoFiles.fs.write "/w/app.py" [120] = .ok fs₁ ∧
      fs₁.find "/w/app.py" = .ok (["w", "app.py"], .file [120] false) := by
    refine ⟨_, ?_, System.find_new (m := .file [120] false) (by simp) hnew⟩
    rw [System.write, System.update, hnew]
  obtain ⟨_, _, _, hwrites⟩ := System.writes_of_write hfirst
  obtain ⟨n, hdir, hout⟩ := hwrites.toGrows.find hempty
  obtain ⟨es, rfl⟩ := Node.outline_eq_directory hout
  obtain ⟨fs', hsecond⟩ : ∃ fs', fs₁.write "/w/app.py" [120] = .ok fs' :=
    ⟨_, System.write_of_find hfile⟩
  have hstore : storeSnapshot "/w" TwoFiles.documents.documents TwoFiles.fs = (.ok (), fs') := by
    have hone := storeDocument_of_write (d := .ofText "/p/build/app.py" "app" .python [120]) hempty
      (by decide) hfirst
    have htwo := storeDocument_of_write (d := .ofText "/p/app.py" "app" .python [120]) hdir
      (by decide) hsecond
    rw [TwoFiles.documents, storeSnapshot_cons, hone]
    dsimp only
    rw [storeSnapshot_cons, htwo]
    rfl
  obtain ⟨_, hvisible⟩ := storeSnapshot_complete TwoFiles.regular TwoFiles.discover_eq
    TwoFiles.loadAll_eq (edited_refl _) hempty hstore
  obtain ⟨hfiles, hkept, _⟩ := hvisible (by decide)
  refine ⟨fs', hstore, (hfiles ["app.py"]).mpr (by decide), fun hall => ?_⟩
  exact absurd (hkept.mp hall) (by decide)

end Project

end RepairSearch
