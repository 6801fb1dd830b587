import Mathlib.Data.List.Lex
import Mathlib.Data.String.Basic
import RepairSearch.Proofs.Files.Below
import RepairSearch.Proofs.Files.Reordered
import RepairSearch.Proofs.Project.Sources

/-!
# Discovery

Source paths that lead to directories and to supported files stand for lists of files, and discovery
finds the first of those with the same path. The order in which directories list their entries makes
no difference.
-/

namespace RepairSearch.Project

open Files

private theorem namesLE_iff {a b : List String} : namesLE a b = true ↔ a < b ∨ a = b := by
  induction a generalizing b with
  | nil => cases b <;> simp [namesLE]
  | cons s a ih =>
    cases b with
    | nil => simp [namesLE]
    | cons t b =>
      rw [namesLE, Bool.or_eq_true, Bool.and_eq_true, ih, List.cons_lt_cons_iff, List.cons.injEq,
        decide_eq_true_iff, beq_iff_eq, and_or_left, or_assoc]

private theorem pairwise_mergeSort {l : List (List String)} (h : l.Nodup) :
    (l.mergeSort namesLE).Pairwise (· < ·) := by
  have hsorted : (l.mergeSort namesLE).Pairwise fun a b => namesLE a b = true := by
    refine List.pairwise_mergeSort (fun a b c hab hbc => ?_) (fun a b => ?_) l
    · rw [namesLE_iff] at hab hbc ⊢
      rcases hab with hab | rfl
      · rcases hbc with hbc | rfl
        · exact .inl (lt_trans hab hbc)
        · exact .inl hab
      · exact hbc
    · rw [Bool.or_eq_true, namesLE_iff, namesLE_iff]
      rcases lt_trichotomy a b with hab | rfl | hba
      · exact .inl (.inl hab)
      · exact .inl (.inr rfl)
      · exact .inr (.inl hba)
  have hnodup : (l.mergeSort namesLE).Nodup := (List.mergeSort_perm l namesLE).nodup_iff.mpr h
  exact (hsorted.and hnodup).imp fun ⟨hle, hne⟩ => (namesLE_iff.mp hle).resolve_right hne

private theorem eq_of_sorted {l l' : List (List String)} (h : l.Pairwise (· < ·))
    (h' : l'.Pairwise (· < ·)) (hmem : ∀ names, names ∈ l ↔ names ∈ l') : l = l' := by
  have hperm : l.Perm l' :=
    (List.perm_ext_iff_of_nodup (h.imp ne_of_lt) (h'.imp ne_of_lt)).mpr hmem
  exact hperm.eq_of_pairwise (fun a b _ _ hab hba => absurd hba (lt_asymm hab)) h h'

/-- A file at a place, with a package and the language that its name tells. -/
structure Describes (f : SourceFile) (names : List String) (package : String) : Prop where
  path : f.path = Place.path ⟨names, none⟩
  package : f.package = package
  language : Language.ofPath? f.path = some f.language

/-- The files that a source path stands for: the one that it leads to, or the sources below the
directory that it leads to, in the order of their names. -/
inductive StandsFor (fs : System) (path : String) : List SourceFile → Prop
  | file {names : List String} {content : Text} {x : Bool} {f : SourceFile}
      (find : fs.find path = .ok (names, .file content x))
      (describes : Describes f names ((Path.stem? f.path).getD "")) : StandsFor fs path [f]
  | directory {base : List String} {es : List (String × Node)} {found : List (List String)}
      {files : List SourceFile} (find : fs.find path = .ok (base, .directory es))
      (sources : ∀ below, below ∈ found ↔ IsSource (.directory es) below)
      (sorted : found.Pairwise (· < ·))
      (describe : List.Forall₂ (fun below f => Describes f (base ++ below) (packageOf below))
        found files) : StandsFor fs path files

/-- A path that leads to a directory or to a file of a supported language. The names on the way and
those in the directory encode characters. -/
def Supported (fs : System) (path : String) : Prop :=
  ∃ names n, fs.find path = .ok (names, n) ∧ (∀ s ∈ names, Name.isText s = true) ∧
    ((∃ es, n = .directory es ∧ Spelled n) ∨
      (∃ content x, n = .file content x) ∧ (Language.ofPath? (Place.path ⟨names, none⟩)).isSome)

private theorem exists_sourceFile {names : List String} (package : String)
    (h : (Language.ofPath? (Place.path ⟨names, none⟩)).isSome) :
    ∃ f, sourceFile (Place.path ⟨names, none⟩) package = .ok f ∧ Describes f names package := by
  obtain ⟨language, hlanguage⟩ := Option.isSome_iff_exists.mp h
  exact ⟨⟨_, package, language⟩, by rw [sourceFile, hlanguage]; rfl, rfl, rfl, hlanguage⟩

private theorem ofPath?_path {names : List String} {name : String}
    (hnames : ∀ s ∈ names ++ [name], IsName s) :
    Language.ofPath? (Place.path ⟨names ++ [name], none⟩) = Language.ofPath? name := by
  have hname : IsName name := hnames name (by simp)
  have hpath : Path.fileName? (Place.path ⟨names ++ [name], none⟩) = some name := by
    rw [Path.fileName?, Place.components_path hnames, List.map_append, ← List.cons_append,
      List.map_singleton, List.getLast?_concat]
  have hself : Path.fileName? name = some name := by
    simp [Path.fileName?, Path.components_name hname]
  rw [Language.ofPath?, Language.ofPath?, Path.extension?, Path.extension?, hpath, hself]

private theorem IsSource.ofPath? {n : Node} {base below : List String} (h : IsSource n below)
    (hnames : ∀ s ∈ base ++ below, IsName s) :
    (Language.ofPath? (Place.path ⟨base ++ below, none⟩)).isSome := by
  obtain ⟨name, hname, hsupported⟩ := h.supported
  obtain ⟨front, rfl⟩ := List.getLast?_eq_some_iff.mp hname
  rw [← List.append_assoc] at hnames ⊢
  rwa [ofPath?_path hnames]

private theorem exists_mapM {ε α β : Type} {f : α → Except ε β} {R : α → β → Prop} {as : List α}
    (h : ∀ a ∈ as, ∃ b, f a = .ok b ∧ R a b) :
    ∃ bs, as.mapM f = .ok bs ∧ List.Forall₂ R as bs := by
  induction as with
  | nil => exact ⟨[], rfl, .nil⟩
  | cons a as ih =>
    obtain ⟨b, hb, hab⟩ := h a List.mem_cons_self
    obtain ⟨bs, hbs, hall⟩ := ih fun c hc => h c (List.mem_cons_of_mem a hc)
    exact ⟨b :: bs, by rw [List.mapM_cons, hb, hbs]; rfl, .cons hab hall⟩

section

variable {fs fs' : System} {path : String}

private theorem expand_directory {base : List String} {es : List (String × Node)}
    (hfind : fs.find path = .ok (base, .directory es)) (hbase : ∀ s ∈ base, Name.isText s = true)
    (hlegal : Legal (.directory es)) (hspelled : Spelled (.directory es)) :
    expand fs path = ((filesAmong [] es).mergeSort namesLE).mapM fun relative =>
      sourceFile (Place.path ⟨base ++ relative, none⟩) (packageOf relative) := by
  rw [expand, hfind]
  simp only [List.all_eq_true.mpr hbase, hspelled.unnamedAmong? hlegal, Bool.not_true,
    Bool.false_eq_true, if_false]

private theorem expand_file {names : List String} {content : Text} {x : Bool}
    (hfind : fs.find path = .ok (names, .file content x))
    (hnames : ∀ s ∈ names, Name.isText s = true) :
    expand fs path = (sourceFile (Place.path ⟨names, none⟩)
      ((Path.stem? (Place.path ⟨names, none⟩)).getD "")).map fun f => [f] := by
  rw [expand, hfind]
  simp only [List.all_eq_true.mpr hnames, Bool.not_true, Bool.false_eq_true, if_false]
  rfl

private theorem expand_standsFor (hfs : Regular fs) (h : Supported fs path) :
    ∃ files, expand fs path = .ok files ∧ StandsFor fs path files := by
  obtain ⟨names, n, hfind, hnames, ⟨es, rfl, hspelled⟩ | ⟨⟨content, x, rfl⟩, hlanguage⟩⟩ := h
  · have hget := System.get?_of_find hfind
    have hlegal : Legal (.directory es) := hfs.legal.get? hget
    have hmem : ∀ below, below ∈ (filesAmong [] es).mergeSort namesLE ↔
        IsSource (.directory es) below := by
      intro below
      rw [List.mem_mergeSort, mem_filesAmong hlegal]
      simp
    obtain ⟨files, hfiles, hdescribe⟩ := exists_mapM
      (R := fun below f => Describes f (names ++ below) (packageOf below)) fun below hbelow => by
        have hsource := (hmem below).mp hbelow
        obtain ⟨content, x, hfile⟩ := hsource.file
        rw [← System.get?_append hget] at hfile
        exact exists_sourceFile (packageOf below) (hsource.ofPath? (hfs.legal.isName hfile))
    exact ⟨files, (expand_directory hfind hnames hlegal hspelled).trans hfiles,
      .directory hfind hmem (pairwise_mergeSort (nodup_filesAmong hlegal)) hdescribe⟩
  · obtain ⟨f, hf, hdescribes⟩ := exists_sourceFile
      ((Path.stem? (Place.path ⟨names, none⟩)).getD "") hlanguage
    refine ⟨[f], ?_, .file hfind (by rwa [hdescribes.path])⟩
    rw [expand_file hfind hnames, hf]
    rfl

private theorem Spelled.congr {n m : Node} (h : Spelled n)
    (hbare : ∀ below, (m.get? below).map Node.bare = (n.get? below).map Node.bare) : Spelled m := by
  intro names k hk
  have hsame := hbare names
  rw [hk, Option.map_some] at hsame
  obtain ⟨k', hk', _⟩ := Option.map_eq_some_iff.mp hsame.symm
  exact h names k' hk'

private theorem mergeSort_filesAmong_eq {es es' : List (String × Node)}
    (hlegal : Legal (.directory es)) (hlegal' : Legal (.directory es'))
    (hbare : ∀ below, ((Node.directory es').get? below).map Node.bare =
      ((Node.directory es).get? below).map Node.bare) :
    (filesAmong [] es').mergeSort namesLE = (filesAmong [] es).mergeSort namesLE := by
  have hfile : ∀ {n m : Node} {below : List String},
      (n.get? below).map Node.bare = (m.get? below).map Node.bare →
        IsSource m below → IsSource n below := by
    rintro n m below hsame ⟨⟨content, x, hm⟩, hkept, hsupported⟩
    rw [hm, Option.map_some] at hsame
    obtain ⟨n', hn', hn⟩ := Option.map_eq_some_iff.mp hsame
    exact ⟨⟨content, x, by rw [hn', Node.bare_eq_file hn]⟩, hkept, hsupported⟩
  refine eq_of_sorted (pairwise_mergeSort (nodup_filesAmong hlegal'))
    (pairwise_mergeSort (nodup_filesAmong hlegal)) fun below => ?_
  rw [List.mem_mergeSort, List.mem_mergeSort, mem_filesAmong hlegal', mem_filesAmong hlegal]
  exact exists_congr fun names => and_congr_right fun _ =>
    ⟨hfile (hbare names).symm, hfile (hbare names)⟩

private theorem expand_reordered (hfs : Regular fs) (h : System.Reordered fs fs')
    (hlegal' : Legal fs'.root) (hsupported : Supported fs path) :
    expand fs' path = expand fs path := by
  obtain ⟨names, n, hfind, hnames, ⟨es, rfl, hspelled⟩ | ⟨⟨content, x, rfl⟩, _⟩⟩ := hsupported
  · obtain ⟨es', hfind'⟩ := h.find_directory hfind
    have hget := System.get?_of_find hfind
    have hget' := System.get?_of_find hfind'
    have hbare := h.bare_below hget hget'
    rw [expand_directory hfind hnames (hfs.legal.get? hget) hspelled,
      expand_directory hfind' hnames (hlegal'.get? hget') (hspelled.congr hbare),
      mergeSort_filesAmong_eq (hfs.legal.get? hget) (hlegal'.get? hget') hbare]
  · rw [expand_file hfind hnames, expand_file (h.find_file hfind) hnames]

end

/-- Of files with the same path, the first, in the order of these. -/
structure Firsts (found files : List SourceFile) : Prop where
  mem : ∀ f, f ∈ files ↔ found.find? (·.path = f.path) = some f
  order : files.Pairwise fun f g =>
    found.findIdx (·.path = f.path) < found.findIdx (·.path = g.path)

private theorem firsts_distinct (found : List SourceFile) : Firsts found (distinct found) := by
  induction found with
  | nil => exact ⟨by simp [distinct], .nil⟩
  | cons f found ih =>
    rw [distinct]
    constructor
    · intro g
      rw [List.mem_cons, List.mem_filter, ih.mem, List.find?_cons]
      by_cases hpath : f.path = g.path
      · simp [hpath, eq_comm]
      · have hne : g ≠ f := fun h => hpath (h ▸ rfl)
        simp [hpath, hne, Ne.symm hpath]
    · have hbehind : ∀ {g : SourceFile}, g ∈ (distinct found).filter (·.path ≠ f.path) →
          (f :: found).findIdx (·.path = g.path) = found.findIdx (·.path = g.path) + 1 := by
        intro g hg
        have hne : g.path ≠ f.path := by simpa using (List.mem_filter.mp hg).2
        simp [List.findIdx_cons, Ne.symm hne]
      refine List.pairwise_cons.mpr ⟨fun g hg => ?_, ?_⟩
      · rw [hbehind hg, List.findIdx_cons]
        simp
      · refine (ih.order.filter _).imp_of_mem fun hg hh hlt => ?_
        rw [hbehind hg, hbehind hh]
        exact Nat.succ_lt_succ hlt

private theorem mapM_congr {ε α β : Type} {f g : α → Except ε β} {as : List α}
    (h : ∀ a ∈ as, f a = g a) : as.mapM f = as.mapM g := by
  induction as with
  | nil => rfl
  | cons a as ih =>
    rw [List.mapM_cons, List.mapM_cons, h a List.mem_cons_self,
      ih fun b hb => h b (List.mem_cons_of_mem a hb)]

/-- Each source path stands for files, and of all these in the order of the source paths, the first
with each path are discovered, whatever the order of the entries of directories. -/
theorem discover_firsts {fs : System} {paths : List String} (hfs : Regular fs)
    (hpaths : ∀ path ∈ paths, Supported fs path) :
    ∃ found files, List.Forall₂ (StandsFor fs) paths found ∧ discover fs paths = .ok files ∧
      Firsts found.flatten files ∧ (files.map (·.path)).Nodup ∧
      ∀ fs', System.Reordered fs fs' → Legal fs'.root → discover fs' paths = .ok files := by
  obtain ⟨found, hexpand, hstands⟩ :=
    exists_mapM fun path hpath => expand_standsFor hfs (hpaths path hpath)
  have hdiscover : discover fs paths = .ok (distinct found.flatten) := by
    rw [discover, hexpand]
    rfl
  refine ⟨found, distinct found.flatten, hstands, hdiscover, firsts_distinct _,
    nodup_distinct _, fun fs' hreordered hlegal => ?_⟩
  have hsame : paths.mapM (expand fs') = paths.mapM (expand fs) :=
    mapM_congr fun path hpath => expand_reordered hfs hreordered hlegal (hpaths path hpath)
  rw [discover, hsame, ← discover, hdiscover]

namespace Nested

/-- Sources between a link, build output and a file of no language. -/
def entries : List (String × Node) :=
  [("a", .directory [("c.py", .file [] false), ("d.py", .link "/p/b.py")]),
    ("b.py", .file [] false), ("build", .directory [("x.py", .file [] false)]),
    ("notes.txt", .file [] false)]

def listing (es : List (String × Node)) : System where
  root := .directory [("p", .directory es)]
  workingDirectory := []

def files : List SourceFile := [⟨"/p/a/c.py", "c", .python⟩, ⟨"/p/b.py", "b", .python⟩]

private theorem legal_listing {es : List (String × Node)} (h : es.Perm entries) :
    Legal (listing es).root := by
  have hentries : Legal (.directory entries) := by decide
  obtain ⟨hnodup, hnames⟩ := legal_directory_iff.mp hentries
  have hes : Legal (.directory es) :=
    legal_directory ((h.map _).nodup_iff.mpr hnodup) fun e he => hnames e (h.subset he)
  exact legal_directory (by simp) (by simpa using ⟨by decide, hes⟩)

private theorem regular : Regular (listing entries) :=
  ⟨⟨_, rfl⟩, legal_listing (.refl _), ⟨_, rfl⟩⟩

private theorem find_given :
    (listing entries).find "/p/a/c.py" = .ok (["p", "a", "c.py"], .file [] false) := by
  have hget : (listing entries).get? ["p", "a", "c.py"] = some (.file [] false) := rfl
  exact regular.find_path hget (by simp)

private theorem find_project : (listing entries).find "/p" = .ok (["p"], .directory entries) := by
  have hget : (listing entries).get? ["p"] = some (.directory entries) := rfl
  exact regular.find_path hget (by simp)

private theorem spelled : Spelled (.directory entries) := by
  have hleaf : ∀ {n : Node}, n.entries = [] → Spelled n := fun h => spelled_of_entries (by simp [h])
  refine spelled_of_entries ?_
  simp only [entries, Node.entries, List.forall_mem_cons]
  refine ⟨⟨by decide, spelled_of_entries ?_⟩, ⟨by decide, hleaf rfl⟩,
    ⟨by decide, spelled_of_entries ?_⟩, ⟨by decide, hleaf rfl⟩, by simp⟩
  · simpa using ⟨⟨by decide, hleaf rfl⟩, by decide, hleaf rfl⟩
  · simpa using ⟨by decide, hleaf rfl⟩

private theorem supported : ∀ path ∈ ["/p/a/c.py", "/p"], Supported (listing entries) path := by
  simpa using ⟨⟨_, _, find_given, by decide, .inr ⟨⟨_, _, rfl⟩, by decide⟩⟩,
    _, _, find_project, by decide, .inl ⟨_, rfl, spelled⟩⟩

private theorem discover_eq : discover (listing entries) ["/p/a/c.py", "/p"] = .ok files := by
  have hgiven : expand (listing entries) "/p/a/c.py" = .ok [⟨"/p/a/c.py", "c", .python⟩] := by
    rw [expand, find_given]
    rfl
  have hfound : filesAmong [] entries = [["a", "c.py"], ["b.py"]] := by
    simp only [filesAmong, entries]
    decide
  have hsorted : [["a", "c.py"], ["b.py"]].mergeSort namesLE = [["a", "c.py"], ["b.py"]] :=
    List.mergeSort_of_pairwise (by decide)
  have hproject : expand (listing entries) "/p" =
      .ok [⟨"/p/a/c.py", "a.c", .python⟩, ⟨"/p/b.py", "b", .python⟩] := by
    rw [expand_directory find_project (by decide) (regular.legal.get? (System.get?_of_find
      find_project)) spelled, hfound, hsorted]
    rfl
  simp only [discover, List.mapM_cons, List.mapM_nil, hgiven, hproject]
  rfl

end Nested

open Nested in
/-- The file has the place and the package of the path that leads to it alone, and so it has if the
project lists its entries backwards. -/
theorem discover_firsts_nested :
    (Regular (listing entries) ∧ ∀ path ∈ ["/p/a/c.py", "/p"], Supported (listing entries) path) ∧
      discover (listing entries) ["/p/a/c.py", "/p"] = .ok files ∧
      discover (listing entries.reverse) ["/p/a/c.py", "/p"] = .ok files := by
  obtain ⟨_, files', _, hfiles, _, _, hsame⟩ := discover_firsts regular supported
  obtain rfl : files' = files := Except.ok.inj (hfiles.symm.trans discover_eq)
  have hget : (listing entries).get? ["p"] = some (.directory entries) := rfl
  have hbackwards : System.Reordered (listing entries) (listing entries.reverse) :=
    System.Reordered.put_perm hget (by decide) entries.reverse_perm
  exact ⟨⟨regular, supported⟩, hfiles, hsame _ hbackwards (legal_listing entries.reverse_perm)⟩

end RepairSearch.Project
