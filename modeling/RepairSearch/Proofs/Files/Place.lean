import Mathlib.Data.List.Basic
import RepairSearch.Proofs.Files.Walk

/-!
# Places and their paths

The path of a place leads to it when the names are ones that entries can have and no link stands on
the way. The path without its last component is the one of the directory above.
-/

namespace RepairSearch.Files

/-- A name that an entry of a directory can have. -/
structure IsName (s : String) : Prop where
  ne_empty : s ≠ ""
  ne_dot : s ≠ "."
  ne_up : s ≠ ".."
  slash_not_mem : '/' ∉ s.toList

instance (s : String) : Decidable (IsName s) :=
  decidable_of_iff (s ≠ "" ∧ s ≠ "." ∧ s ≠ ".." ∧ '/' ∉ s.toList)
    ⟨fun ⟨h₁, h₂, h₃, h₄⟩ => ⟨h₁, h₂, h₃, h₄⟩, fun ⟨h₁, h₂, h₃, h₄⟩ => ⟨h₁, h₂, h₃, h₄⟩⟩

theorem IsName.not_isFiller {s : String} (h : IsName s) : Path.isFiller s = false := by
  simp [Path.isFiller, h.ne_empty, h.ne_dot]

section

variable {names : List String} (hnames : ∀ s ∈ names, IsName s)
include hnames

private theorem filter_ne_empty_names : names.filter (· ≠ "") = names := by
  rw [List.filter_eq_self]
  exact fun s hs => by simpa using (hnames s hs).ne_empty

theorem names_ofParts_names : Path.names (Path.ofParts false names) = names := by
  rw [Path.names_ofParts fun s hs => (hnames s hs).slash_not_mem, filter_ne_empty_names hnames]

theorem isAbsolute_ofParts_names : Path.isAbsolute (Path.ofParts false names) = false := by
  refine Path.isAbsolute_ofParts (fun s hs => (hnames s hs).slash_not_mem) fun hhead => ?_
  exact (hnames "" (List.mem_of_head? hhead)).ne_empty rfl

theorem getLast?_segments_ofParts_names (hne : names ≠ []) :
    (Path.segments (Path.ofParts false names)).getLast? ≠ some "" := by
  rw [Path.segments_ofParts (fun s hs => (hnames s hs).slash_not_mem) hne]
  exact fun hlast => (hnames "" (List.mem_of_getLast? hlast)).ne_empty rfl

private theorem ofParts_names_ne_empty (hne : names ≠ []) : Path.ofParts false names ≠ "" := by
  intro hempty
  have h := names_ofParts_names hnames
  rw [hempty, Path.names_empty] at h
  exact hne h.symm

end

namespace Place

variable {names : List String} {node : Option Node}

private theorem path_eq (hne : names ≠ []) :
    Place.path ⟨names, node⟩ = "/".intercalate ("" :: names) := by
  obtain ⟨name, names, rfl⟩ := List.exists_cons_of_ne_nil hne
  rw [path, String.intercalate_cons_cons]
  simp

private theorem segments_path (hne : names ≠ []) (hnames : ∀ s ∈ names, IsName s) :
    Path.segments (Place.path ⟨names, node⟩) = "" :: names := by
  rw [path_eq hne]
  refine Path.segments_intercalate (by simp) fun s hs => ?_
  rcases List.mem_cons.mp hs with rfl | hs
  · simp
  · exact (hnames s hs).slash_not_mem

private theorem isAbsolute_path : Path.isAbsolute (Place.path ⟨names, node⟩) = true := by
  rw [Path.isAbsolute, String.startsWith_char_eq_head?, path, String.toList_append]
  rfl

private theorem path_ne_empty : Place.path ⟨names, node⟩ ≠ "" := by
  intro hempty
  have habs : Path.isAbsolute (Place.path ⟨names, node⟩) = true := isAbsolute_path
  rw [hempty] at habs
  exact absurd habs (by decide)

private theorem steps_path (hne : names ≠ []) (hnames : ∀ s ∈ names, IsName s) :
    System.steps (Place.path ⟨names, node⟩) = names := by
  have hsegments : Path.segments (Place.path ⟨names, node⟩) = "" :: names :=
    segments_path hne hnames
  have hlast : Path.endsInSlash (Place.path ⟨names, node⟩) = false := by
    rw [Bool.eq_false_iff]
    intro hslash
    have hempty := Path.getLast?_segments_of_endsInSlash hslash
    rw [hsegments, List.getLast?_cons, Option.some.injEq] at hempty
    obtain ⟨s, hs⟩ := Option.ne_none_iff_exists'.mp (mt List.getLast?_eq_none_iff.mp hne)
    rw [hs, Option.getD_some] at hempty
    exact (hnames s (List.mem_of_getLast? hs)).ne_empty hempty
  rw [System.steps_eq, hlast, Path.names, hsegments]
  simpa using filter_ne_empty_names hnames

private theorem parts_path (hne : names ≠ []) (hnames : ∀ s ∈ names, IsName s) :
    Path.parts (Place.path ⟨names, node⟩) = names := by
  rw [Path.parts, if_pos isAbsolute_path, segments_path hne hnames, List.tail_cons]

theorem components_path (hnames : ∀ s ∈ names, IsName s) :
    Path.components (Place.path ⟨names, node⟩) = .root :: names.map .name := by
  rw [Path.components_of_isAbsolute isAbsolute_path]
  by_cases hne : names = []
  · subst hne
    have hparts : Path.parts (Place.path ⟨[], none⟩) = [""] := by decide
    exact congrArg (fun ps => .root :: List.filterMap Path.componentOf? ps) hparts
  · rw [parts_path hne hnames, ← List.filterMap_eq_map]
    congr 1
    exact List.filterMap_congr fun s hs =>
      Path.componentOf?_of_name (hnames s hs).not_isFiller (hnames s hs).ne_up

theorem names_eq_of_path_eq {names' : List String} {node' : Option Node}
    (hnames : ∀ s ∈ names, IsName s) (hnames' : ∀ s ∈ names', IsName s)
    (h : Place.path ⟨names, node⟩ = Place.path ⟨names', node'⟩) : names = names' := by
  have hcomponents := congrArg Path.components h
  rw [components_path hnames, components_path hnames', List.cons_eq_cons] at hcomponents
  exact (List.map_inj_right fun _ _ hab => Path.Component.name.inj hab).mp hcomponents.2

private theorem trimEnd_names (hnames : ∀ s ∈ names, IsName s) : Path.trimEnd true names = names :=
  Path.trimEnd_of_getLast? fun s hs => (hnames s (List.mem_of_getLast? hs)).not_isFiller

private theorem afterComponents_names {base below : List String}
    (hnames : ∀ s ∈ base ++ below, IsName s) :
    Path.afterComponents (base.map .name) (base ++ below) = some below := by
  induction base with
  | nil =>
    rw [List.map_nil, Path.afterComponents, List.nil_append]
    cases below with
    | nil => rfl
    | cons s below =>
      rw [List.dropWhile_cons_of_neg (by simp [(hnames s List.mem_cons_self).not_isFiller])]
  | cons name base ih =>
    have hname := hnames name List.mem_cons_self
    rw [List.map_cons, List.cons_append, Path.afterComponents,
      List.dropWhile_cons_of_neg (by simp [hname.not_isFiller])]
    simp only [Path.componentOf?_of_name hname.not_isFiller hname.ne_up, beq_self_eq_true, if_true]
    exact ih fun s hs => hnames s (List.mem_cons_of_mem name hs)

/-- What has a path relative to a directory is below the directory. -/
theorem exists_append_of_relativeTo? {base : List String} {rel : String} {node' : Option Node}
    (hbase : ∀ s ∈ base, IsName s) (hnames : ∀ s ∈ names, IsName s)
    (h : Path.relativeTo? (Place.path ⟨base, node⟩) (Place.path ⟨names, node'⟩) = some rel) :
    ∃ below, names = base ++ below := by
  have hup : Path.Component.parent ∉ Path.components (Place.path ⟨names, node'⟩) := by
    simp [components_path hnames]
  obtain ⟨hcomponents, _⟩ := Path.relativeTo?_eq_some path_ne_empty isAbsolute_path hup h
  rw [components_path hnames, components_path hbase, List.cons_append, ← List.map_append,
    List.cons_eq_cons] at hcomponents
  exact ⟨_, (List.map_inj_right fun _ _ hab => Path.Component.name.inj hab).mp hcomponents.2⟩

/-- A path relative to one above it is made of the names behind those of that one. -/
theorem relativeTo?_path {base below : List String} {node' : Option Node} (hne : below ≠ [])
    (hnames : ∀ s ∈ base ++ below, IsName s) :
    Path.relativeTo? (Place.path ⟨base, node⟩) (Place.path ⟨base ++ below, node'⟩) =
      some (Path.ofParts false below) := by
  have hbase : ∀ s ∈ base, IsName s := fun s hs => hnames s (List.mem_append_left _ hs)
  have hbelow : ∀ s ∈ below, IsName s := fun s hs => hnames s (List.mem_append_right _ hs)
  rw [Path.relativeTo?, components_path hbase, components_path hnames]
  dsimp only
  rw [parts_path (by simp [hne]) hnames, afterComponents_names hnames, Option.map_some,
    trimEnd_names hbelow]

theorem parent?_path {name : String} (hnames : ∀ s ∈ names ++ [name], IsName s) :
    Path.parent? (Place.path ⟨names ++ [name], node⟩) = some (Place.path ⟨names, none⟩) := by
  have hbefore : ∀ s ∈ names, IsName s := fun s hs => hnames s (List.mem_append_left _ hs)
  obtain ⟨p, ps, hps⟩ := List.exists_cons_of_ne_nil (List.append_ne_nil_of_right_ne_nil names
    (List.cons_ne_nil name []))
  rw [Path.parent?, isAbsolute_path, parts_path (by simp) hnames, trimEnd_names hnames]
  simp only [hps]
  rw [← hps, List.dropLast_concat, trimEnd_names hbefore]
  rfl

theorem parent?_root : Path.parent? (Place.path ⟨[], node⟩) = none := by
  change Path.parent? (Place.path ⟨[], none⟩) = none
  decide

end Place

namespace System

variable {fs : System} {names : List String} {node : Option Node} {m : Node}
  {es : List (String × Node)}

/-- The path of a place leads to what is there, unless that is a link. -/
theorem find_path (hroot : fs.root = .directory es) (hnames : ∀ s ∈ names, IsName s)
    (hm : fs.get? names = some m) (hlink : ∀ target, m ≠ .link (.path target)) :
    fs.find (Place.path ⟨names, node⟩) = .ok (names, m) := by
  have hne : Place.path ⟨names, node⟩ ≠ "" := Place.path_ne_empty
  have hget : fs.get? [] = some (.directory es) := by rw [get?, Node.get?_nil, hroot]
  refine find_of_locate ?_
  rw [locate, if_neg (by simpa using hne), start, if_pos Place.isAbsolute_path]
  by_cases hnil : names = []
  · subst hnil
    have hsteps : steps (Place.path ⟨[], none⟩) = ["."] := by decide
    change fs.walk true maxLinks [] (steps (Place.path ⟨[], none⟩)) = _
    rw [hsteps, walk_dot hget, walk, hm]
  · rw [Place.steps_path hnil hnames]
    refine walk_to hget (fun s hs => ⟨(hnames s hs).ne_dot, (hnames s hs).ne_up⟩) ?_ hlink
    rw [get?, hroot] at hm
    exact hm

theorem find_of_path {path : String} (hroot : fs.root = .directory es)
    (hpath : path = Place.path ⟨names, none⟩) (hnames : ∀ s ∈ names, IsName s)
    (hm : fs.get? names = some m) (hlink : ∀ target, m ≠ .link (.path target)) :
    fs.find path = .ok (names, m) := hpath ▸ find_path hroot hnames hm hlink

/-- A path with names behind it is followed with these names from where the path leads. -/
theorem locate_join_names {path : String} {place : List String} (follow : Bool)
    (h : fs.find path = .ok (place, m)) (hnames : ∀ s ∈ names, IsName s) (hne : names ≠ []) :
    ∃ links, fs.locate follow (Path.join path (Path.ofParts false names)) =
      fs.walk follow links place names := by
  obtain ⟨links, dots, hlocate, _, hdots⟩ := locate_join follow h (isAbsolute_ofParts_names hnames)
    (.inl (ofParts_names_ne_empty hnames hne))
  refine ⟨links, ?_⟩
  rw [hlocate, hdots (getLast?_segments_ofParts_names hnames hne), names_ofParts_names hnames,
    List.append_nil]

end System

end RepairSearch.Files
