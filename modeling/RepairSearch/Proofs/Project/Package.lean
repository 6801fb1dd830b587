import RepairSearch.Project.Snapshot
import RepairSearch.Proofs.Document.History
import RepairSearch.Proofs.Files.FileName
import RepairSearch.Proofs.Project.Sources

/-!
# Packages

A package is made of the names that lead to a file below its source path, without the extension of
the file. Its parts are what stands between dots, whether a dot joined two names or was in one of
them. A snapshot goes where the parts say; a package that begins with a dot becomes a path from the
root.
-/

namespace RepairSearch.Project

open Files RepairSearch.Path

/-- A dotted name with slashes for its dots. -/
def slashed (package : String) : String :=
  String.ofList (package.toList.map fun c => if c = '.' then '/' else c)

/-- The parts of a dotted name that are not empty. -/
def packageParts (package : String) : List String := names (slashed package)

private theorem slashed_append (a b : String) : slashed (a ++ b) = slashed a ++ slashed b := by
  rw [slashed, String.toList_append, List.map_append, String.ofList_append]
  rfl

private theorem packageParts_append (a b : String) :
    packageParts (a ++ "." ++ b) = packageParts a ++ packageParts b := by
  have hdot : slashed "." = "/" := by decide
  rw [packageParts, slashed_append, slashed_append, hdot, names_append]
  rfl

private theorem packageParts_intercalate (ss : List String) :
    packageParts (".".intercalate ss) = ss.flatMap packageParts := by
  induction ss with
  | nil => decide
  | cons s ss ih =>
    cases ss with
    | nil => simp
    | cons t ss =>
      rw [String.intercalate_cons_cons, packageParts_append, ih]
      rfl

private theorem dot_not_mem_slashed (package : String) : '.' ∉ (slashed package).toList := by
  rw [slashed, String.toList_ofList, List.mem_map]
  rintro ⟨c, _, hc⟩
  split at hc
  · cases hc
  · rename_i hne
    exact hne hc

private theorem slashed_of_not_mem {s : String} (h : '.' ∉ s.toList) : slashed s = s := by
  rw [slashed, ← String.toList_inj, String.toList_ofList]
  refine (List.map_congr_left fun c hc => ?_).trans (List.map_id _)
  rw [if_neg]
  · rfl
  · rintro rfl
    exact h hc

private theorem isName_of_dotless {s : String} (hne : s ≠ "") (hslash : '/' ∉ s.toList)
    (hdot : '.' ∉ s.toList) : IsName s := by
  refine ⟨hne, ?_, ?_, hslash⟩
  · rintro rfl
    exact hdot (by decide)
  · rintro rfl
    exact hdot (by decide)

theorem packageParts_dotless {s : String} (hne : s ≠ "") (hslash : '/' ∉ s.toList)
    (hdot : '.' ∉ s.toList) : packageParts s = [s] := by
  rw [packageParts, slashed_of_not_mem hdot, names,
    segments_name (isName_of_dotless hne hslash hdot)]
  simpa using hne

private theorem dot_not_mem_packageParts {package s : String} (h : s ∈ packageParts package) :
    '.' ∉ s.toList :=
  fun hmem => dot_not_mem_slashed package (mem_of_mem_segment (List.mem_filter.mp h).1 hmem)

private theorem isName_packageParts {package s : String} (h : s ∈ packageParts package) :
    IsName s := by
  obtain ⟨hsegment, hne⟩ := List.mem_filter.mp h
  exact isName_of_dotless (by simpa using hne) (slash_not_mem_of_segment hsegment)
    (dot_not_mem_packageParts h)

private theorem isAbsolute_slashed {package : String} (hslash : '/' ∉ package.toList) :
    isAbsolute (slashed package) = package.startsWith '.' := by
  rw [isAbsolute, String.startsWith_char_eq_head?, String.startsWith_char_eq_head?, slashed,
    String.toList_ofList]
  cases hchars : package.toList with
  | nil => rfl
  | cons c cs =>
    rw [hchars, List.mem_cons, not_or] at hslash
    by_cases hc : c = '.'
    · simp [hc]
    · simp [hc, Ne.symm hslash.1]

private theorem filterMap_segments_slashed (package : String) :
    (segments (slashed package)).filterMap componentOf? = (packageParts package).map .name := by
  have hup : Component.parent ∉ (segments (slashed package)).filterMap componentOf? := by
    intro hmem
    obtain ⟨s, hs, hparent⟩ := List.mem_filterMap.mp hmem
    have hup : s = ".." := by
      rw [componentOf?] at hparent
      split at hparent
      · cases hparent
      · split at hparent
        · rename_i h
          exact beq_iff_eq.mp h
        · cases hparent
    subst hup
    exact dot_not_mem_slashed package (mem_of_mem_segment hs (by decide))
  rw [(filterMap_componentOf? hup).1, packageParts, names]
  congr 1
  refine List.filter_congr fun s hs => ?_
  have hdot : s ≠ "." := by
    rintro rfl
    exact dot_not_mem_slashed package (mem_of_mem_segment hs (by decide))
  rw [isFiller, beq_eq_false_iff_ne.mpr hdot, Bool.or_false]
  by_cases hs : s = "" <;> simp [hs]

private theorem components_join_slashed (directory : String) {package : String}
    (hslash : '/' ∉ package.toList) :
    components (join directory (slashed package)) =
      (if package.startsWith '.' then [.root] else components directory) ++
        (packageParts package).map .name := by
  have hhead : (segments (slashed package)).head? ≠ some "." := fun hhead =>
    dot_not_mem_slashed package (mem_of_mem_segment (List.mem_of_head? hhead) (by decide))
  rw [← isAbsolute_slashed hslash, ← filterMap_segments_slashed]
  split
  · rename_i habs
    rw [join, habs, Bool.true_or, if_pos rfl, components, habs, if_pos rfl]
    rfl
  · rename_i habs
    have habs := Bool.not_eq_true _ ▸ habs
    rw [components_join directory habs hhead, components_of_relative habs hhead]

/-- The names of the file that a snapshot has for a document: the parts of its package, the last one
with the extension of the document. -/
def snapshotNames (d : Document) : List String :=
  match (packageParts d.package).getLast?, extension? d.path with
  | some last, some extension => (packageParts d.package).dropLast ++ [last ++ "." ++ extension]
  | _, _ => packageParts d.package

/-- A document whose path and package can be told apart into names. -/
structure Packaged (d : Document) : Prop where
  nonempty : d.package ≠ ""
  slash : '/' ∉ d.package.toList
  extension : ∃ extension, extension? d.path = some extension ∧ extension ≠ ""

theorem snapshotNames_concat {d : Document} {front : List String} {last extension : String}
    (hparts : packageParts d.package = front ++ [last])
    (hextension : extension? d.path = some extension) :
    snapshotNames d = front ++ [last ++ "." ++ extension] := by
  simp [snapshotNames, hparts, hextension]

private theorem Packaged.startsWith_of_packageParts {d : Document} (h : Packaged d)
    (hparts : packageParts d.package = []) : d.package.startsWith '.' = true := by
  rw [← isAbsolute_slashed h.slash]
  by_contra habs
  have hne : slashed d.package ≠ "" := by
    intro hempty
    have hlength := congrArg (fun s : String => s.toList.length) hempty
    simp only [slashed, String.toList_ofList, List.length_map] at hlength
    exact h.nonempty (String.toList_eq_nil_iff.mp (List.length_eq_zero_iff.mp hlength))
  exact names_ne_nil hne (Bool.not_eq_true _ ▸ habs) hparts

/-- The parts of a package that does not begin with a dot, and the extension, with the names that
they make. -/
theorem Packaged.exists_names {d : Document} (h : Packaged d)
    (hdot : d.package.startsWith '.' = false) :
    ∃ front last extension, packageParts d.package = front ++ [last] ∧
      extension? d.path = some extension ∧ snapshotNames d = front ++ [last ++ "." ++ extension] ∧
      '.' ∉ last.toList := by
  obtain ⟨extension, hextension, _⟩ := h.extension
  rcases List.eq_nil_or_concat (packageParts d.package) with hparts | ⟨front, last, hparts⟩
  · rw [h.startsWith_of_packageParts hparts] at hdot
    cases hdot
  · rw [List.concat_eq_append] at hparts
    have hlast : last ∈ packageParts d.package := by simp [hparts]
    exact ⟨front, last, extension, hparts, hextension, snapshotNames_concat hparts hextension,
      dot_not_mem_packageParts hlast⟩

theorem Packaged.isName {d : Document} (h : Packaged d) {s : String} (hs : s ∈ snapshotNames d) :
    IsName s := by
  obtain ⟨extension, hextension, hne⟩ := h.extension
  rcases List.eq_nil_or_concat (packageParts d.package) with hparts | ⟨front, last, hparts⟩
  · simp [snapshotNames, hparts] at hs
  · rw [List.concat_eq_append] at hparts
    rw [snapshotNames_concat hparts hextension] at hs
    have hname : ∀ s ∈ front ++ [last], IsName s :=
      fun s hs => isName_packageParts (hparts ▸ hs)
    rcases List.mem_append.mp hs with hs | hs
    · exact hname s (List.mem_append_left _ hs)
    · have hlast := hname last (by simp)
      obtain ⟨_, _, _, _, _, hslash⟩ := extension?_eq_some hextension
      rw [List.mem_singleton.mp hs]
      exact isName_extended hlast.ne_empty hne hlast.slash_not_mem hslash

/-- The text of a document goes to a file below the directory of the snapshot, or below the root if
its package begins with a dot. -/
theorem Packaged.components_snapshotPath {d : Document} (h : Packaged d) (directory : String) :
    components (snapshotPath directory d) =
      (if d.package.startsWith '.' then [.root] else components directory) ++
        (snapshotNames d).map .name := by
  obtain ⟨extension, hextension, hne⟩ := h.extension
  have hjoin := components_join_slashed directory h.slash
  have hpath : snapshotPath directory d =
      withExtension (join directory (slashed d.package)) extension := by
    rw [snapshotPath, hextension]
    rfl
  rw [hpath]
  rcases List.eq_nil_or_concat (packageParts d.package) with hparts | ⟨front, last, hparts⟩
  · -- the path is the root, which has no file name
    have hnames : snapshotNames d = [] := by simp [snapshotNames, hparts]
    rw [hparts, h.startsWith_of_packageParts hparts, if_pos rfl, List.map_nil,
      List.append_nil] at hjoin
    have hstem : stem? (join directory (slashed d.package)) = none := by
      rw [stem?, fileName?, hjoin]
      rfl
    rw [hnames, h.startsWith_of_packageParts hparts, withExtension, hstem]
    exact hjoin
  · rw [List.concat_eq_append] at hparts
    have hlast : last ∈ packageParts d.package := by simp [hparts]
    have hcut := cutName_of_not_mem (dot_not_mem_packageParts hlast)
    have hnames := snapshotNames_concat hparts hextension
    have hextended : IsName (last ++ "." ++ extension) := h.isName (by simp [hnames])
    rw [hparts, List.map_append, ← List.append_assoc] at hjoin
    have hfile : fileName? (join directory (slashed d.package)) = some last := by
      rw [fileName?, hjoin]
      simp
    have hreplaced : last ++ "." ++ extension =
        if extension.isEmpty then (cutName last).1 else (cutName last).1 ++ "." ++ extension := by
      rw [hcut, if_neg (by simpa using hne)]
    obtain ⟨cs, hcs, hcomponents⟩ := components_withExtension hfile hreplaced hextended
    have hfront := List.append_cancel_right (hcs.symm.trans hjoin)
    rw [hcomponents, hfront, hnames, List.map_append, List.append_assoc]
    rfl

private theorem eq_of_dotted {a a' b b' : String} (ha : '.' ∉ a.toList) (ha' : '.' ∉ a'.toList)
    (h : a ++ "." ++ b = a' ++ "." ++ b') : a = a' ∧ b = b' := by
  have hfront : ∀ {s : String} (t : String), '.' ∉ s.toList →
      (s ++ "." ++ t).toList.takeWhile (· != '.') = s.toList := by
    intro s t hs
    have hall : ∀ c ∈ s.toList, (c != '.') = true := by
      intro c hc
      rw [bne_iff_ne]
      rintro rfl
      exact hs hc
    rw [String.toList_append, String.toList_append, List.append_assoc,
      List.takeWhile_append_of_pos hall]
    simp
  obtain rfl : a = a' := by rw [← String.toList_inj, ← hfront b ha, h, hfront b' ha']
  have hchars := congrArg String.toList h
  rw [String.toList_append, String.toList_append (s := a ++ ".")] at hchars
  exact ⟨rfl, String.toList_inj.mp (List.append_cancel_left hchars)⟩

/-- Without a dot at the beginning, two documents go to the same names exactly if their packages
have the same parts and their extensions are the same. -/
theorem snapshotNames_eq_iff {d d' : Document} (h : Packaged d) (h' : Packaged d')
    (hdot : d.package.startsWith '.' = false) (hdot' : d'.package.startsWith '.' = false) :
    snapshotNames d = snapshotNames d' ↔
      packageParts d.package = packageParts d'.package ∧
        extension? d.path = extension? d'.path := by
  obtain ⟨front, last, extension, hparts, hextension, hnames, hlast⟩ := h.exists_names hdot
  obtain ⟨front', last', extension', hparts', hextension', hnames', hlast'⟩ :=
    h'.exists_names hdot'
  rw [hnames, hnames', hparts, hparts', hextension, hextension']
  constructor
  · intro heq
    obtain ⟨rfl, hname⟩ := List.append_inj' heq rfl
    obtain ⟨rfl, rfl⟩ := eq_of_dotted hlast hlast' (List.singleton_inj.mp hname)
    exact ⟨rfl, rfl⟩
  · rintro ⟨heq, hext⟩
    obtain ⟨rfl, hl⟩ := List.append_inj' heq rfl
    rw [List.singleton_inj.mp hl, Option.some.inj hext]

private theorem text_filterMap_componentOf? (ps : List String) :
    (ps.filterMap componentOf?).map Component.text = ps.filter (!isFiller ·) := by
  induction ps with
  | nil => rfl
  | cons p ps ih =>
    cases hp : isFiller p with
    | true => simp [componentOf?_eq_none.mpr hp, hp, ih]
    | false =>
      have htext : ∃ c, componentOf? p = some c ∧ c.text = p := by
        by_cases hup : p = ".."
        · exact ⟨.parent, by rw [hup]; decide, hup.symm⟩
        · exact ⟨.name p, componentOf?_of_name hp hup, rfl⟩
      obtain ⟨c, hc, htext⟩ := htext
      simp [hc, hp, ih, htext]

private theorem text_components_ofParts {s : String} {ss : List String} (hs : s ≠ "")
    (hslash : ∀ t ∈ s :: ss, '/' ∉ t.toList) :
    (components (ofParts false (s :: ss))).map Component.text =
      s :: ss.filter (!isFiller ·) := by
  rw [components, isAbsolute_ofParts hslash (by simpa using hs), if_neg Bool.false_ne_true,
    segments_ofParts hslash (by simp)]
  by_cases hdot : s = "."
  · rw [if_pos (by simp [hdot]), List.map_cons, text_filterMap_componentOf?,
      List.filter_cons_of_neg (by simp [hdot, isFiller]), hdot]
    rfl
  · rw [if_neg (by simpa using hdot), text_filterMap_componentOf?,
      List.filter_cons_of_pos (by simp [hdot, hs, isFiller])]

private theorem exists_intercalate_cons (s : String) (ss : List String) :
    ∃ t, ".".intercalate (s :: ss) = s ++ t := by
  cases ss with
  | nil => exact ⟨"", by simp⟩
  | cons t ss => exact ⟨"." ++ ".".intercalate (t :: ss), by
      rw [String.intercalate_cons_cons, String.append_assoc]⟩

private theorem slash_not_mem_intercalate {ss : List String} (h : ∀ s ∈ ss, '/' ∉ s.toList) :
    '/' ∉ (".".intercalate ss).toList := by
  induction ss with
  | nil => simp
  | cons s ss ih =>
    have hs := h s List.mem_cons_self
    cases ss with
    | nil => simpa using hs
    | cons t ss =>
      have hrest := ih fun s hs => h s (List.mem_cons_of_mem _ hs)
      rw [String.intercalate_cons_cons, String.toList_append, String.toList_append, List.mem_append,
        List.mem_append]
      rintro ((hmem | hmem) | hmem)
      · exact hs hmem
      · exact absurd hmem (by decide)
      · exact hrest hmem

/-- A package that is made of bare names: dots join them, and there may be dots in them. -/
structure MadeOf (package : String) (bare : List String) : Prop where
  nonempty : package ≠ ""
  slash : '/' ∉ package.toList
  parts : packageParts package = bare.flatMap packageParts
  dot : ∀ s ∈ bare.head?, package.startsWith '.' = s.startsWith '.'

private theorem flatMap_packageParts_filter (ss : List String) :
    (ss.filter (!isFiller ·)).flatMap packageParts = ss.flatMap packageParts := by
  induction ss with
  | nil => rfl
  | cons s ss ih =>
    cases hs : isFiller s with
    | false => simp [hs, ih]
    | true =>
      have hnone : packageParts s = [] := by
        rcases Bool.or_eq_true _ _ ▸ hs with h | h <;> rw [beq_iff_eq.mp h] <;> decide
      simp [hs, ih, hnone]

private theorem madeOf_intercalate {s : String} {ss : List String} (hs : s ≠ "")
    (hslash : ∀ t ∈ s :: ss, '/' ∉ t.toList) :
    MadeOf (".".intercalate (s :: ss.filter (!isFiller ·))) (s :: ss) := by
  obtain ⟨t, ht⟩ := exists_intercalate_cons s (ss.filter (!isFiller ·))
  refine ⟨?_, ?_, ?_, ?_⟩
  · rw [ht]
    simp [String.append_eq_empty_iff, hs]
  · refine slash_not_mem_intercalate fun t ht => hslash t ?_
    rcases List.mem_cons.mp ht with rfl | ht
    · exact List.mem_cons_self
    · exact List.mem_cons_of_mem _ (List.mem_filter.mp ht).1
  · rw [packageParts_intercalate, List.flatMap_cons, List.flatMap_cons,
      flatMap_packageParts_filter]
  · intro t hfirst
    obtain rfl := Option.some.inj hfirst
    obtain ⟨c, cs, hchars⟩ := List.exists_cons_of_ne_nil (mt String.toList_eq_nil_iff.mp hs)
    rw [String.startsWith_char_eq_head?, String.startsWith_char_eq_head?, ht,
      String.toList_append, hchars]
    rfl

private theorem madeOf_packageOf {front : List String} {name stem : String}
    (hnames : ∀ s ∈ front ++ [name], IsName s) (hcut : (cutName name).1 = stem)
    (hstem : stem ≠ "") :
    MadeOf (packageOf (front ++ [name])) (front ++ [stem]) := by
  have hname : IsName name := hnames name (by simp)
  have hslash : ∀ s ∈ front ++ [stem], '/' ∉ s.toList := by
    intro s hs
    rcases List.mem_append.mp hs with hs | hs
    · exact (hnames s (List.mem_append_left _ hs)).slash_not_mem
    · rw [List.mem_singleton.mp hs, ← hcut]
      exact fun hmem => hname.slash_not_mem (mem_of_mem_stem hmem)
  have hhead : (front ++ [stem]).head? ≠ some "" := by
    cases front with
    | nil => simpa using hstem
    | cons s front => simpa using (hnames s (by simp)).ne_empty
  have hbare : withExtension (ofParts false (front ++ [name])) "" =
      ofParts false (front ++ [stem]) := hcut ▸ withExtension_ofParts hnames
  have hpath : "/".intercalate (front ++ [name]) = ofParts false (front ++ [name]) := by
    simp [ofParts]
  obtain ⟨s, ss, hss⟩ := List.exists_cons_of_ne_nil (show front ++ [stem] ≠ [] by simp)
  rw [packageOf, hpath, hbare, hss]
  rw [hss] at hslash hhead
  have hs : s ≠ "" := by simpa using hhead
  rw [text_components_ofParts hs hslash]
  exact madeOf_intercalate hs hslash

private theorem FoundAt.madeOf {fs : System} (hfs : Regular fs) {path : String} {f : SourceFile}
    {base below : List String} (h : FoundAt fs path f base below) :
    ∃ front stem extension, below = front ++ [stem ++ "." ++ extension] ∧ stem ≠ "" ∧
      extension? f.path = some extension ∧ extension ≠ "" ∧ MadeOf f.package (front ++ [stem]) := by
  obtain ⟨_, hstands, _⟩ := h.stands
  have hnames : ∀ s ∈ base ++ below, IsName s := hfs.legal.isName hstands
  obtain ⟨front, name, hbelow⟩ : ∃ front name, below = front ++ [name] :=
    ⟨_, _, (List.dropLast_concat_getLast h.nonempty).symm⟩
  have hfileName : fileName? f.path = some name := by
    have hcomponents : components f.path = .root :: (base ++ front).map .name ++ [.name name] := by
      rw [h.path, Place.components_path hnames, hbelow]
      simp
    rw [fileName?, hcomponents, List.getLast?_concat]
  obtain ⟨extension, hextension, hknown⟩ := Option.bind_eq_some_iff.mp h.language
  have hne : extension ≠ "" := by
    rintro rfl
    have hunknown : Language.ofExtension? "" = none := by decide
    rw [hunknown] at hknown
    cases hknown
  have hcut : (cutName name).2 = some extension := by
    rw [extension?, hfileName, Option.bind_some] at hextension
    exact hextension
  obtain ⟨hname, hstem⟩ := cutName_eq_some (Prod.ext rfl hcut)
  refine ⟨front, (cutName name).1, extension, by rw [hbelow, ← hname], hstem, hextension, hne, ?_⟩
  rw [hbelow] at hnames
  rcases h.source with ⟨_, hpackage⟩ | ⟨⟨single, _, hsingle, _⟩, hpackage⟩
  · rw [hpackage, hbelow]
    exact madeOf_packageOf (fun s hs => hnames s (List.mem_append_right _ hs)) rfl hstem
  · obtain rfl : front = [] := by
      rw [hbelow] at hsingle
      exact (List.append_inj' (hsingle.trans (List.nil_append _).symm) rfl).1
    rw [hpackage, stem?, hfileName, Option.map_some, Option.getD_some]
    have hslash := (hnames name (by simp)).slash_not_mem
    have hbare : ∀ t ∈ [(cutName name).1], '/' ∉ t.toList := by
      simpa using fun hmem => hslash (mem_of_mem_stem hmem)
    simpa using madeOf_intercalate hstem hbare

/-- A document whose file is below what one of the source paths leads to, or is what it leads to.
Its package is made of the names that lead there, so it begins with a dot if the first of them
does. -/
structure Sourced (fs : System) (paths : List String) (d : Document) (base below : List String) :
    Prop extends Packaged d where
  source : ∃ path ∈ paths, (∃ es, fs.find path = .ok (base, .directory es)) ∨
    ∃ name n, below = [name] ∧ fs.find path = .ok (base ++ below, n)
  path : d.path = Place.path ⟨base ++ below, none⟩
  file : ∃ content x, fs.get? (base ++ below) = some (.file content x)
  parts : ∃ front stem extension, below = front ++ [stem ++ "." ++ extension] ∧ stem ≠ "" ∧
    extension? d.path = some extension ∧
    packageParts d.package = (front ++ [stem]).flatMap packageParts
  dot : ∀ first ∈ below.head?, d.package.startsWith '.' = first.startsWith '.'

private theorem FoundAt.sourced {fs : System} (hfs : Regular fs) {path : String}
    {paths : List String} (hpath : path ∈ paths) {f : SourceFile} {base below : List String}
    (h : FoundAt fs path f base below) {d : Document} (hload : load fs f = .ok d) :
    Sourced fs paths d base below := by
  obtain ⟨hdpath, hread⟩ := load_eq_ok hload
  have hpackage : d.package = f.package := by
    obtain ⟨text, rfl⟩ := load_eq_ofText hload
    rfl
  obtain ⟨x, hfile⟩ := h.file_of_read hfs hread
  obtain ⟨front, stem, extension, hbelow, hstem, hextension, hne, hmade⟩ := h.madeOf hfs
  rw [← hpackage] at hmade
  rw [← hdpath] at hextension
  refine ⟨⟨hmade.nonempty, hmade.slash, extension, hextension, hne⟩, ⟨path, hpath, ?_⟩,
    hdpath.trans h.path, ⟨d.current, x, hfile⟩,
    ⟨front, stem, extension, hbelow, hstem, hextension, hmade.parts⟩, ?_⟩
  · exact h.source.imp And.left And.left
  · intro first hfirst
    cases front with
    | cons s front =>
      rw [hbelow] at hfirst
      exact hmade.dot first hfirst
    | nil =>
      rw [hbelow] at hfirst
      obtain rfl := Option.some.inj hfirst
      obtain ⟨c, cs, hchars⟩ := List.exists_cons_of_ne_nil (mt String.toList_eq_nil_iff.mp hstem)
      rw [hmade.dot stem rfl, String.startsWith_char_eq_head?, String.startsWith_char_eq_head?,
        String.toList_append, String.toList_append, hchars]
      rfl

/-- Every document that was loaded is one of a file that was found. -/
theorem loadAll_sourced {fs : System} (hfs : Regular fs) {paths : List String}
    {files : List SourceFile} {ds : DocumentSet} (hdiscover : discover fs paths = .ok files)
    (hload : loadAll fs files = .ok ds) {d : Document} (hd : d ∈ ds.documents) :
    d.Fresh ∧ ∃ base below, Sourced fs paths d base below := by
  obtain ⟨loaded, hloaded, rfl⟩ := map_eq_ok hload
  obtain ⟨i, hi⟩ := List.mem_iff_getElem?.mp hd
  obtain ⟨f, hf, hread⟩ := (mapM_eq_ok hloaded).2 i d hi
  obtain ⟨path, hpath, base, below, hfound⟩ :=
    discover_found hfs hdiscover (List.mem_of_getElem? hf)
  have hsourced := hfound.sourced hfs hpath hread
  obtain ⟨text, rfl⟩ := load_eq_ofText hread
  exact ⟨Document.fresh_ofText _ _ _ _, base, below, hsourced⟩

end RepairSearch.Project
