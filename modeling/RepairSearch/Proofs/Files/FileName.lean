import RepairSearch.Proofs.Files.Below

/-!
# File names

A path with a file name is made of parts before the name, the name, and fillers behind it. Another
extension changes the file name and nothing else, and the path without the name leads to the
directory that the file is in.
-/

namespace RepairSearch.Path

open Files

private theorem ofParts_parts (p : String) : ofParts (isAbsolute p) (parts p) = p := by
  have hjoined := intercalate_segments p
  rw [ofParts, parts]
  split
  · rename_i habs
    obtain ⟨ss, hne, hss⟩ := isAbsolute_iff.mp habs
    obtain ⟨s, ss, rfl⟩ := List.exists_cons_of_ne_nil hne
    rw [hss] at hjoined ⊢
    rw [← hjoined, List.tail_cons, String.intercalate_cons_cons]
    simp
  · rw [hjoined, String.empty_append]

private theorem slash_not_mem_of_part {path p : String} (h : p ∈ parts path) : '/' ∉ p.toList := by
  rw [parts] at h
  split at h
  · exact slash_not_mem_of_segment (List.mem_of_mem_tail h)
  · exact slash_not_mem_of_segment h

private theorem trimEnd_append (absolute : Bool) (front : List String) {s : String}
    (hs : isFiller s = false) {fillers : List String}
    (hfillers : ∀ p ∈ fillers, isFiller p = true) :
    trimEnd absolute (front ++ s :: fillers) = front ++ [s] := by
  have hkept (rest : List String) :
      ((rest ++ s :: fillers).reverse.dropWhile isFiller).reverse = rest ++ [s] := by
    have hall : ∀ p ∈ fillers.reverse, isFiller p = true :=
      fun p hp => hfillers p (List.mem_reverse.mp hp)
    rw [List.reverse_append, List.reverse_cons, List.append_assoc,
      List.dropWhile_append_of_pos hall, List.singleton_append,
      List.dropWhile_cons_of_neg (by simp [hs]), List.reverse_cons, List.reverse_reverse]
  have hempty : s ≠ "" ∧ s ≠ "." := by
    simpa [isFiller] using hs
  cases front with
  | nil =>
    have hnone : (fillers.reverse.dropWhile isFiller).reverse = [] := by
      simpa using hfillers
    simp [trimEnd, hnone, hempty]
  | cons p rest =>
    rw [List.cons_append, trimEnd, hkept]
    simp

private theorem exists_fillers (absolute : Bool) {ps : List String}
    (hhead : absolute = false → ps.head? ≠ some "") :
    ∃ fillers, ps = trimEnd absolute ps ++ fillers ∧ (∀ p ∈ fillers, isFiller p = true) ∧
      (trimEnd absolute ps = [] → ps = [] ∨ absolute = true) := by
  cases ps with
  | nil => exact ⟨[], rfl, by simp, fun _ => .inl rfl⟩
  | cons p rest =>
    have hsplit : rest = (rest.reverse.dropWhile isFiller).reverse ++
        (rest.reverse.takeWhile isFiller).reverse := by
      rw [← List.reverse_append, List.takeWhile_append_dropWhile, List.reverse_reverse]
    have hfillers : ∀ q ∈ (rest.reverse.takeWhile isFiller).reverse, isFiller q = true :=
      fun q hq => List.mem_takeWhile_imp (List.mem_reverse.mp hq)
    rw [trimEnd]
    split
    · rename_i hnone
      rw [Bool.and_eq_true, List.isEmpty_iff] at hnone
      obtain ⟨hkept, hfirst⟩ := hnone
      refine ⟨p :: rest, rfl, ?_, fun _ => .inr ?_⟩
      · intro q hq
        rcases List.mem_cons.mp hq with rfl | hq
        · rcases Bool.or_eq_true _ _ ▸ hfirst with hempty | hdot
          · simp [isFiller, hempty]
          · simp [isFiller, (Bool.and_eq_true _ _ ▸ hdot).2]
        · rw [hsplit, hkept, List.nil_append] at hq
          exact hfillers q hq
      · cases absolute with
        | true => rfl
        | false =>
          have hp : p = "" := by simpa using hfirst
          exact absurd (congrArg some hp) (hhead rfl)
    · refine ⟨_, ?_, hfillers, fun hnone => by cases hnone⟩
      rw [List.cons_append, ← hsplit]

section

variable {absolute : Bool} {front : List String} (hfront : ∀ p ∈ front, '/' ∉ p.toList)
  (hhead : absolute = false → front.head? ≠ some "")
include hfront hhead

private theorem ofParts_ne_empty (hne : front ≠ []) : ofParts absolute front ≠ "" := by
  cases absolute with
  | true => simp [ofParts, String.append_eq_empty_iff]
  | false =>
    intro hempty
    have hsegments := segments_ofParts hfront hne
    rw [hempty, segments_empty] at hsegments
    exact hhead rfl (by rw [← hsegments]; rfl)

private theorem components_ofParts_concat {name : String} (hname : IsName name) :
    components (ofParts absolute (front ++ [name])) =
      components (ofParts absolute front) ++ [.name name] := by
  by_cases hne : front = []
  · subst hne
    cases absolute with
    | true =>
      have hroot : ofParts true [name] = "" ++ "/" ++ name := by simp [ofParts]
      rw [List.nil_append, hroot, components_append, filterMap_componentOf?_name hname]
      rfl
    | false =>
      have hpath : ofParts false [name] = name := by simp [ofParts]
      rw [List.nil_append, hpath, components_name hname]
      rfl
  · have hsplit : ofParts absolute (front ++ [name]) = ofParts absolute front ++ "/" ++ name := by
      rw [ofParts, ofParts, String.intercalate_append_of_ne_nil hne (by simp),
        String.intercalate_singleton]
      simp only [String.append_assoc]
    rw [hsplit, components_append, components_slash (ofParts_ne_empty hfront hhead hne),
      filterMap_componentOf?_name hname]

private theorem components_ofParts_fillers (hne : front ≠ [] ∨ absolute = true)
    {fillers : List String}
    (hfillers : ∀ p ∈ fillers, isFiller p = true) (hslash : ∀ p ∈ fillers, '/' ∉ p.toList) :
    components (ofParts absolute (front ++ fillers)) = components (ofParts absolute front) := by
  by_cases hnone : fillers = []
  · rw [hnone, List.append_nil]
  have hnothing : (segments ("/".intercalate fillers)).filterMap componentOf? = [] := by
    rw [segments_intercalate hnone hslash]
    exact List.filterMap_eq_nil_iff.mpr fun p hp => componentOf?_eq_none.mpr (hfillers p hp)
  by_cases hempty : front = []
  · obtain rfl : absolute = true := hne.resolve_left fun h => h hempty
    have hroot : ofParts true fillers = "" ++ "/" ++ "/".intercalate fillers := rfl
    rw [hempty, List.nil_append, hroot, components_append, hnothing, List.append_nil]
    rfl
  · have hsplit : ofParts absolute (front ++ fillers) =
        ofParts absolute front ++ "/" ++ "/".intercalate fillers := by
      rw [ofParts, ofParts, String.intercalate_append_of_ne_nil hempty hnone]
      simp only [String.append_assoc]
    rw [hsplit, components_append, components_slash (ofParts_ne_empty hfront hhead hempty),
      hnothing, List.append_nil]

private theorem components_trimEnd :
    components (ofParts absolute (trimEnd absolute front)) =
      components (ofParts absolute front) := by
  obtain ⟨fillers, hps, hfillers, hempty⟩ := exists_fillers absolute hhead
  by_cases hnone : front = []
  · rw [hnone]
    rfl
  have hne : trimEnd absolute front ≠ [] ∨ absolute = true := by
    by_cases htrim : trimEnd absolute front = []
    · exact .inr ((hempty htrim).resolve_left hnone)
    · exact .inl htrim
  have hhead' : absolute = false → (trimEnd absolute front).head? ≠ some "" := by
    intro hrelative htrim
    refine hhead hrelative ?_
    rw [hps, List.head?_append, htrim]
    rfl
  have hkept : ∀ p ∈ trimEnd absolute front, '/' ∉ p.toList := by
    intro p hp
    refine hfront p ?_
    rw [hps]
    exact List.mem_append_left _ hp
  have hslash : ∀ p ∈ fillers, '/' ∉ p.toList := by
    intro p hp
    refine hfront p ?_
    rw [hps]
    exact List.mem_append_right _ hp
  conv_rhs => rw [hps]
  exact (components_ofParts_fillers hkept hhead' hne hfillers hslash).symm

end

private theorem exists_components (path : String) :
    ∃ front, (∀ s, .name s ∉ front) ∧
      components path = front ++ (parts path).filterMap componentOf? := by
  cases habs : isAbsolute path with
  | true => exact ⟨[.root], by simp, components_of_isAbsolute habs⟩
  | false =>
    rw [components, parts, habs, if_neg Bool.false_ne_true, if_neg Bool.false_ne_true]
    split
    · exact ⟨[.current], by simp, rfl⟩
    · exact ⟨[], by simp, rfl⟩

private theorem exists_front_of_fileName? {path s : String} (h : fileName? path = some s) :
    ∃ cs, (parts path).filterMap componentOf? = cs ++ [.name s] := by
  have hlast : (components path).getLast? = some (.name s) := by
    rw [fileName?] at h
    split at h
    · rename_i s' hs'
      rw [← Option.some.inj h, hs']
    · cases h
  obtain ⟨front, hfront, hcomponents⟩ := exists_components path
  rw [hcomponents] at hlast
  refine List.getLast?_eq_some_iff.mp ?_
  cases hbody : (parts path).filterMap componentOf? with
  | nil =>
    rw [hbody, List.append_nil] at hlast
    exact absurd (List.mem_of_getLast? hlast) (hfront s)
  | cons c cs => rwa [hbody, List.getLast?_append_of_ne_nil _ (List.cons_ne_nil c cs)] at hlast

private theorem exists_parts_of_fileName? {path s : String} (h : fileName? path = some s) :
    ∃ front fillers, parts path = front ++ s :: fillers ∧ IsName s ∧
      ∀ p ∈ fillers, isFiller p = true := by
  obtain ⟨cs, hcs⟩ := exists_front_of_fileName? h
  obtain ⟨front, back, hsplit, _, hback⟩ := List.filterMap_eq_append_iff.mp hcs
  obtain ⟨fillers, p, after, rfl, _, hp, hafter⟩ := List.filterMap_eq_cons_iff.mp hback
  obtain ⟨rfl, hfiller, hup⟩ := name_of_componentOf? hp
  have hparts : parts path = front ++ fillers ++ p :: after := by
    rw [hsplit, List.append_assoc]
  have hmem : p ∈ parts path := by simp [hparts]
  obtain ⟨hempty, hdot⟩ : p ≠ "" ∧ p ≠ "." := by simpa [isFiller] using hfiller
  exact ⟨front ++ fillers, after, hparts, ⟨hempty, hdot, hup, slash_not_mem_of_part hmem⟩,
    fun q hq => componentOf?_eq_none.mp (List.filterMap_eq_nil_iff.mp hafter q hq)⟩

private theorem components_of_fileName? {path name : String} (h : fileName? path = some name) :
    ∃ front, trimEnd (isAbsolute path) (parts path) = front ++ [name] ∧ IsName name ∧
      (∀ p ∈ front, '/' ∉ p.toList) ∧ (isAbsolute path = false → front.head? ≠ some "") ∧
      components path = components (ofParts (isAbsolute path) front) ++ [.name name] := by
  obtain ⟨front, fillers, hparts, hname, hfillers⟩ := exists_parts_of_fileName? h
  have hslash : ∀ p ∈ front ++ name :: fillers, '/' ∉ p.toList :=
    fun p hp => slash_not_mem_of_part (hparts ▸ hp)
  have hfront : ∀ p ∈ front, '/' ∉ p.toList := fun p hp => hslash p (List.mem_append_left _ hp)
  have hhead : isAbsolute path = false → front.head? ≠ some "" := by
    intro hrelative hempty
    obtain ⟨ps, rfl⟩ := List.head?_eq_some_iff.mp hempty
    rw [parts, if_neg (by simp [hrelative])] at hparts
    have habsolute := isAbsolute_iff.mpr ⟨ps ++ name :: fillers, by simp, hparts⟩
    rw [hrelative] at habsolute
    cases habsolute
  refine ⟨front, ?_, hname, hfront, hhead, ?_⟩
  · rw [hparts, trimEnd_append _ front hname.not_isFiller hfillers]
  · have hfront' : ∀ p ∈ front ++ [name], '/' ∉ p.toList := by
      intro p hp
      rcases List.mem_append.mp hp with hp | hp
      · exact hfront p hp
      · exact List.mem_singleton.mp hp ▸ hname.slash_not_mem
    have hhead' : isAbsolute path = false → (front ++ [name]).head? ≠ some "" := by
      intro hrelative
      have hfirst := hhead hrelative
      cases front with
      | nil => simpa using hname.ne_empty
      | cons p front => exact hfirst
    have hsplit : parts path = (front ++ [name]) ++ fillers := by
      rw [hparts, List.append_assoc, List.singleton_append]
    have hpath : path = ofParts (isAbsolute path) ((front ++ [name]) ++ fillers) := by
      rw [← hsplit, ofParts_parts]
    conv_lhs => rw [hpath]
    rw [components_ofParts_fillers hfront' hhead' (.inl (by simp)) hfillers
      fun p hp => hslash p (by simp [hp]), components_ofParts_concat hfront hhead hname]

/-- The components of a path up to its file name are those of the path without it. -/
theorem components_parent? {path name : String} (h : fileName? path = some name) :
    ∃ parent, parent? path = some parent ∧
      components path = components parent ++ [.name name] := by
  obtain ⟨front, htrim, _, hfront, hhead, hcomponents⟩ := components_of_fileName? h
  obtain ⟨p, ps, hps⟩ := List.exists_cons_of_ne_nil (show front ++ [name] ≠ [] by simp)
  refine ⟨ofParts (isAbsolute path) (trimEnd (isAbsolute path) front), ?_, ?_⟩
  · rw [parent?, htrim, hps]
    dsimp only
    rw [← hps, List.dropLast_concat]
  · rw [components_trimEnd hfront hhead, hcomponents]

theorem cutName_of_not_mem {name : String} (h : '.' ∉ name.toList) : cutName name = (name, none) :=
     by
  have hafter : name.toList.reverse.takeWhile (· != '.') = name.toList.reverse := by
    rw [List.takeWhile_eq_self_iff]
    intro c hc
    rw [bne_iff_ne]
    rintro rfl
    exact h (List.mem_reverse.mp hc)
  rw [cutName, hafter]
  simp

private theorem take_append_lastDot {cs : List Char}
    (hdot : (cs.reverse.takeWhile (· != '.')).length ≠ cs.length) :
    cs.take (cs.length - (cs.reverse.takeWhile (· != '.')).length - 1) ++
      '.' :: (cs.reverse.takeWhile (· != '.')).reverse = cs := by
  have hsplit := List.takeWhile_append_dropWhile (p := (· != '.')) (l := cs.reverse)
  cases hdrop : cs.reverse.dropWhile (· != '.') with
  | nil =>
    rw [hdrop, List.append_nil] at hsplit
    rw [hsplit, List.length_reverse] at hdot
    exact absurd rfl hdot
  | cons c rest =>
    obtain rfl : c = '.' := by
      have hhead := List.head_dropWhile_not (p := (· != '.')) (l := cs.reverse) (by simp [hdrop])
      simpa [hdrop] using hhead
    rw [hdrop] at hsplit
    generalize cs.reverse.takeWhile (· != '.') = after at hsplit ⊢
    obtain rfl : cs = rest.reverse ++ '.' :: after.reverse := by
      simpa using (congrArg List.reverse hsplit).symm
    have hlength : (rest.reverse ++ '.' :: after.reverse).length - after.length - 1 =
        rest.reverse.length := by
      simp only [List.length_append, List.length_cons, List.length_reverse]
      omega
    rw [hlength, List.take_left]

theorem cutName_eq_some {name stem extension : String}
    (h : cutName name = (stem, some extension)) :
    name = stem ++ "." ++ extension ∧ stem ≠ "" := by
  rw [cutName] at h
  split at h
  · cases h
  rename_i hcut
  obtain ⟨rfl, hextension⟩ := Prod.mk.inj h
  obtain rfl := Option.some.inj hextension
  rw [Bool.or_eq_true, Bool.or_eq_true, not_or, not_or] at hcut
  obtain ⟨⟨_, hlength⟩, hbefore⟩ := hcut
  have hname := take_append_lastDot (mt beq_iff_eq.mpr hlength)
  refine ⟨String.toList_inj.mp ?_, ?_⟩
  · simp only [String.toList_append, String.toList_ofList, List.append_assoc]
    exact hname.symm
  · intro hempty
    exact hbefore (by simpa using hempty)

theorem mem_of_mem_stem {name : String} {c : Char} (h : c ∈ (cutName name).1.toList) :
    c ∈ name.toList := by
  rw [cutName] at h
  split at h
  · exact h
  · exact List.mem_of_mem_take (by simpa using h)

private theorem isName_of_fileName? {path name : String} (h : fileName? path = some name) :
    IsName name := by
  obtain ⟨_, _, _, hname, _⟩ := exists_parts_of_fileName? h
  exact hname

/-- The extension of a path stands behind the dot of its file name. -/
theorem extension?_eq_some {path extension : String} (h : extension? path = some extension) :
    ∃ stem, stem? path = some stem ∧ fileName? path = some (stem ++ "." ++ extension) ∧ stem ≠ "" ∧
      '/' ∉ stem.toList ∧ '/' ∉ extension.toList := by
  rw [extension?, Option.bind_eq_some_iff] at h
  obtain ⟨name, hname, hcut⟩ := h
  obtain ⟨heq, hstem⟩ := cutName_eq_some (Prod.ext rfl hcut)
  have hslash := (isName_of_fileName? hname).slash_not_mem
  rw [heq] at hslash
  refine ⟨(cutName name).1, ?_, heq ▸ hname, hstem, ?_, ?_⟩
  · rw [stem?, hname, Option.map_some]
  · exact fun hmem => hslash (by simp [hmem])
  · exact fun hmem => hslash (by simp [hmem])

theorem isName_extended {stem extension : String} (hstem : stem ≠ "") (hextension : extension ≠ "")
    (hslash : '/' ∉ stem.toList) (hslash' : '/' ∉ extension.toList) :
    IsName (stem ++ "." ++ extension) := by
  have hlength : 2 < (stem ++ "." ++ extension).length := by
    have hs : stem.length ≠ 0 := mt String.length_eq_zero_iff.mp hstem
    have he : extension.length ≠ 0 := mt String.length_eq_zero_iff.mp hextension
    have hdot : ".".length = 1 := by decide
    rw [String.length_append, String.length_append, hdot]
    omega
  refine ⟨?_, ?_, ?_, by simp [hslash, hslash']⟩
  all_goals
    intro h
    rw [h] at hlength
    exact absurd hlength (by decide)

/-- The components of a path up to its file name stay when another name takes the place of it. -/
theorem components_withExtension {path name extension : String} (h : fileName? path = some name)
    {file : String} (hfile : file = if extension.isEmpty then (cutName name).1 else
      (cutName name).1 ++ "." ++ extension) (hisName : IsName file) :
    ∃ cs, components path = cs ++ [.name name] ∧
      components (withExtension path extension) = cs ++ [.name file] := by
  obtain ⟨front, htrim, _, hfront, hhead, hcomponents⟩ := components_of_fileName? h
  refine ⟨_, hcomponents, ?_⟩
  rw [withExtension, stem?, h, Option.map_some]
  dsimp only
  rw [htrim, List.dropLast_concat, ← hfile, components_ofParts_concat hfront hhead hisName]

private theorem fileName?_ofParts {front : List String} {name : String}
    (hnames : ∀ s ∈ front ++ [name], IsName s) :
    fileName? (ofParts false (front ++ [name])) = some name := by
  have hfront : ∀ s ∈ front, IsName s := fun s hs => hnames s (List.mem_append_left _ hs)
  have hhead : false = false → front.head? ≠ some "" :=
    fun _ hempty => (hfront "" (List.mem_of_head? hempty)).ne_empty rfl
  rw [fileName?, components_ofParts_concat (fun s hs => (hfront s hs).slash_not_mem) hhead
    (hnames name (by simp)), List.getLast?_concat]

/-- Without its extension, the last of joined names is cut at the dot. -/
theorem withExtension_ofParts {front : List String} {name : String}
    (hnames : ∀ s ∈ front ++ [name], IsName s) :
    withExtension (ofParts false (front ++ [name])) "" =
      ofParts false (front ++ [(cutName name).1]) := by
  have habs := isAbsolute_ofParts_names hnames
  have hparts : parts (ofParts false (front ++ [name])) = front ++ [name] := by
    rw [parts, habs, if_neg Bool.false_ne_true,
      segments_ofParts (fun s hs => (hnames s hs).slash_not_mem) (by simp)]
  have hname : IsName name := hnames name (by simp)
  have htrim : trimEnd false (front ++ [name]) = front ++ [name] :=
    trimEnd_append false front hname.not_isFiller (List.forall_mem_nil _)
  rw [withExtension, stem?, fileName?_ofParts hnames, Option.map_some]
  dsimp only
  rw [habs, hparts, htrim, List.dropLast_concat]
  rfl

end RepairSearch.Path
