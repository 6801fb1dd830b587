import Mathlib.Data.List.TakeWhile
import RepairSearch.Files.System

/-!
# Paths and the names in them

The segments of a path are what stands between its slashes, and joining paths joins their segments.
A path that is relative to a directory has the components that follow those of the directory.
-/

namespace RepairSearch.Path

theorem segments_ne_nil (p : String) : segments p ≠ [] := by
  simp [segments, List.splitOn_ne_nil]

@[simp] theorem segments_empty : segments "" = [""] := by
  simp [segments, List.splitOn_nil]

private theorem not_mem_of_mem_splitOn {c : Char} {cs l : List Char} (h : l ∈ cs.splitOn c) :
    c ∉ l := by
  induction cs generalizing l with
  | nil => simp_all [List.splitOn_nil]
  | cons d cs ih =>
    rw [List.splitOn_cons_eq_if_modifyHead] at h
    split at h
    · rcases List.mem_cons.mp h with rfl | hl
      · simp
      · exact ih hl
    · rename_i hd
      obtain ⟨k, ks, hks⟩ := List.exists_cons_of_ne_nil (List.splitOn_ne_nil c cs)
      rw [hks, List.modifyHead_cons] at h
      rcases List.mem_cons.mp h with rfl | hl
      · have hk : c ∉ k := ih (hks ▸ List.mem_cons_self)
        simpa [hk] using fun hcd => hd (by simp [hcd])
      · exact ih (hks ▸ List.mem_cons_of_mem k hl)

theorem slash_not_mem_of_segment {p s : String} (h : s ∈ segments p) : '/' ∉ s.toList := by
  obtain ⟨l, hl, rfl⟩ := List.mem_map.mp h
  rw [String.toList_ofList]
  exact not_mem_of_mem_splitOn hl

private theorem mem_of_mem_splitOn {c d : Char} {cs l : List Char} (h : l ∈ cs.splitOn d)
    (hc : c ∈ l) :
    c ∈ cs := by
  induction cs generalizing l with
  | nil => simp_all [List.splitOn_nil]
  | cons e cs ih =>
    rw [List.splitOn_cons_eq_if_modifyHead] at h
    split at h
    · rcases List.mem_cons.mp h with rfl | hl
      · cases hc
      · exact List.mem_cons_of_mem e (ih hl hc)
    · obtain ⟨k, ks, hks⟩ := List.exists_cons_of_ne_nil (List.splitOn_ne_nil d cs)
      rw [hks, List.modifyHead_cons] at h
      rcases List.mem_cons.mp h with rfl | hl
      · rcases List.mem_cons.mp hc with rfl | hc
        · exact List.mem_cons_self
        · exact List.mem_cons_of_mem e (ih (hks ▸ List.mem_cons_self) hc)
      · exact List.mem_cons_of_mem e (ih (hks ▸ List.mem_cons_of_mem k hl) hc)

theorem mem_of_mem_segment {p s : String} (h : s ∈ segments p) {c : Char} (hc : c ∈ s.toList) :
    c ∈ p.toList := by
  obtain ⟨l, hl, rfl⟩ := List.mem_map.mp h
  rw [String.toList_ofList] at hc
  exact mem_of_mem_splitOn hl hc

theorem intercalate_segments (p : String) : "/".intercalate (segments p) = p := by
  rw [← String.toList_inj, String.toList_intercalate, segments, List.map_map]
  have hid : (String.toList ∘ String.ofList) = id := funext fun l => String.toList_ofList
  rw [hid, List.map_id]
  exact List.intercalate_splitOn '/'

theorem segments_intercalate {ss : List String} (hne : ss ≠ [])
    (hss : ∀ s ∈ ss, '/' ∉ s.toList) : segments ("/".intercalate ss) = ss := by
  have hsplit : (['/'].intercalate (ss.map String.toList)).splitOn '/' = ss.map String.toList :=
    List.splitOn_intercalate '/' (by simpa using hss) (by simpa using hne)
  rw [segments, String.toList_intercalate]
  change (List.splitOn '/' (['/'].intercalate _)).map _ = _
  rw [hsplit, List.map_map]
  simp [Function.comp_def]

theorem segments_append (a b : String) : segments (a ++ "/" ++ b) = segments a ++ segments b := by
  have hlist : (a ++ "/" ++ b).toList = a.toList ++ '/' :: b.toList := by simp
  rw [segments, hlist, List.splitOn_append_cons_self, List.map_append]
  rfl

theorem isAbsolute_iff {p : String} :
    isAbsolute p = true ↔ ∃ ss, ss ≠ [] ∧ segments p = "" :: ss := by
  rw [isAbsolute, String.startsWith_char_eq_head?, beq_iff_eq]
  constructor
  · intro h
    obtain ⟨cs, hcs⟩ := List.head?_eq_some_iff.mp h
    refine ⟨(cs.splitOn '/').map String.ofList, by simp [List.splitOn_ne_nil], ?_⟩
    rw [segments, hcs, List.splitOn_cons_eq_if_modifyHead]
    simp
  · rintro ⟨ss, hne, hss⟩
    obtain ⟨s, ss, rfl⟩ := List.exists_cons_of_ne_nil hne
    have hp := intercalate_segments p
    rw [hss] at hp
    rw [← hp, String.toList_intercalate]
    simp

theorem exists_eq_append_slash {p : String} (h : endsInSlash p = true) : ∃ t, p = t ++ "/" := by
  obtain ⟨cs, hcs⟩ := List.getLast?_eq_some_iff.mp (beq_iff_eq.mp h)
  exact ⟨String.ofList cs, by rw [← String.toList_inj, hcs]; simp⟩

theorem getLast?_segments_of_endsInSlash {p : String} (h : endsInSlash p = true) :
    (segments p).getLast? = some "" := by
  obtain ⟨t, rfl⟩ := exists_eq_append_slash h
  have happend := segments_append t ""
  rw [String.append_empty, segments_empty] at happend
  exact (congrArg List.getLast? happend).trans List.getLast?_concat

/-- The segments that name something. -/
def names (p : String) : List String := (segments p).filter (· ≠ "")

theorem names_append (a b : String) : names (a ++ "/" ++ b) = names a ++ names b := by
  rw [names, segments_append, List.filter_append]
  rfl

@[simp] theorem names_empty : names "" = [] := by simp [names]

theorem names_ne_nil {p : String} (hne : p ≠ "") (hp : isAbsolute p = false) : names p ≠ [] := by
  obtain ⟨s, ss, hss⟩ := List.exists_cons_of_ne_nil (segments_ne_nil p)
  have hs : s ≠ "" := by
    rintro rfl
    cases ss with
    | nil => exact hne (by rw [← intercalate_segments p, hss]; rfl)
    | cons t ss =>
      have habs := isAbsolute_iff.mpr ⟨t :: ss, by simp, hss⟩
      rw [hp] at habs
      cases habs
  simp [names, hss, hs]

section

variable {base p : String} (hbase : base ≠ "") (hp : isAbsolute p = false)
include hbase hp

private theorem join_eq_append : ∃ s, join base p = base ++ s := by
  have hempty : base.isEmpty = false := by simpa using hbase
  rw [join, hp, hempty, Bool.or_self, if_neg Bool.false_ne_true]
  split
  · exact ⟨p, rfl⟩
  · exact ⟨"/" ++ p, String.append_assoc ..⟩

theorem isAbsolute_join : isAbsolute (join base p) = isAbsolute base := by
  obtain ⟨s, hs⟩ := join_eq_append hbase hp
  obtain ⟨c, cs, hcs⟩ := List.exists_cons_of_ne_nil (mt String.toList_eq_nil_iff.mp hbase)
  rw [hs, isAbsolute, isAbsolute, String.startsWith_char_eq_head?, String.startsWith_char_eq_head?,
    String.toList_append, hcs]
  rfl

theorem join_ne_empty : join base p ≠ "" := by
  obtain ⟨s, hs⟩ := join_eq_append hbase hp
  rw [hs]
  intro h
  exact hbase (String.append_eq_empty_iff.mp h).1

private theorem segments_join :
    ∃ ss, segments (join base p) = ss ++ segments p ∧ ss.filter (· ≠ "") = names base := by
  have hempty : base.isEmpty = false := by simpa using hbase
  rw [join, hp, hempty, Bool.or_self, if_neg Bool.false_ne_true]
  split
  · rename_i hslash
    obtain ⟨t, rfl⟩ := exists_eq_append_slash hslash
    have ht : names (t ++ "/") = names t := by
      simpa using names_append t ""
    exact ⟨segments t, segments_append t p, ht.symm⟩
  · exact ⟨segments base, segments_append base p, rfl⟩

theorem names_join : names (join base p) = names base ++ names p := by
  obtain ⟨ss, hss, hnames⟩ := segments_join hbase hp
  rw [names, hss, List.filter_append, hnames]
  rfl

theorem endsInSlash_join (hlast : (segments p).getLast? ≠ some "") :
    endsInSlash (join base p) = false := by
  obtain ⟨ss, hss, _⟩ := segments_join hbase hp
  rw [Bool.eq_false_iff]
  intro hslash
  have hempty := getLast?_segments_of_endsInSlash hslash
  obtain ⟨s, hs⟩ := Option.ne_none_iff_exists'.mp (mt List.getLast?_eq_none_iff.mp
    (segments_ne_nil p))
  rw [hss, List.getLast?_append, hs, Option.some_or, Option.some.injEq] at hempty
  exact hlast (hempty ▸ hs)

end

theorem componentOf?_eq_none {s : String} : componentOf? s = none ↔ isFiller s = true := by
  rw [componentOf?, isFiller]
  split
  · rename_i h
    exact ⟨fun _ => h, fun _ => rfl⟩
  · rename_i h
    simp only [h]
    split <;> simp

theorem componentOf?_of_name {s : String} (h : isFiller s = false) (hup : s ≠ "..") :
    componentOf? s = some (.name s) := by
  rw [componentOf?, ← isFiller, h, if_neg Bool.false_ne_true, if_neg (by simpa using hup)]

theorem name_of_componentOf? {p s : String} (h : componentOf? p = some (.name s)) :
    p = s ∧ isFiller p = false ∧ p ≠ ".." := by
  cases hfiller : isFiller p with
  | true =>
    rw [componentOf?_eq_none.mpr hfiller] at h
    cases h
  | false =>
    have hup : p ≠ ".." := by
      rintro rfl
      cases h
    rw [componentOf?_of_name hfiller hup] at h
    exact ⟨Component.name.inj (Option.some.inj h), rfl, hup⟩

/-- The names among the parts of a path that leads nowhere upwards. -/
theorem filterMap_componentOf? {ps : List String}
    (hup : Component.parent ∉ ps.filterMap componentOf?) :
    ps.filterMap componentOf? = (ps.filter (!isFiller ·)).map .name ∧ ".." ∉ ps := by
  induction ps with
  | nil => simp
  | cons p ps ih =>
    cases hp : isFiller p with
    | true =>
      rw [List.filterMap_cons_none (componentOf?_eq_none.mpr hp)] at hup ⊢
      obtain ⟨heq, hnot⟩ := ih hup
      refine ⟨by simp [hp, heq], ?_⟩
      rw [List.mem_cons, not_or]
      refine ⟨?_, hnot⟩
      rintro rfl
      exact absurd hp (by decide)
    | false =>
      have hne : p ≠ ".." := by
        rintro rfl
        exact hup (List.mem_filterMap.mpr ⟨"..", List.mem_cons_self, by decide⟩)
      have hname := componentOf?_of_name hp hne
      rw [List.filterMap_cons_some hname] at hup ⊢
      obtain ⟨heq, hnot⟩ := ih fun h => hup (List.mem_cons_of_mem _ h)
      exact ⟨by simp [hp, heq], by simp [hnot, Ne.symm hne]⟩

private theorem afterComponents_eq_some {cs : List Component} {ps qs : List String}
    (h : afterComponents cs ps = some qs) :
    ∃ front, ps = front ++ qs ∧ front.filterMap componentOf? = cs ∧
      ∀ q ∈ qs.head?, isFiller q = false := by
  have hskip : ∀ ps : List String, (ps.takeWhile isFiller).filterMap componentOf? = [] := by
    intro ps
    refine List.filterMap_eq_nil_iff.mpr fun p hp => componentOf?_eq_none.mpr ?_
    exact List.mem_takeWhile_imp hp
  induction cs generalizing ps with
  | nil =>
    rw [afterComponents, Option.some.injEq] at h
    refine ⟨ps.takeWhile isFiller, h ▸ List.takeWhile_append_dropWhile.symm, hskip ps, ?_⟩
    rintro q hq
    have := List.head?_dropWhile_not isFiller ps
    rw [h, Option.mem_def.mp hq] at this
    simpa using this
  | cons c cs ih =>
    rw [afterComponents] at h
    cases hdrop : ps.dropWhile isFiller with
    | nil => simp [hdrop] at h
    | cons p rest =>
      simp only [hdrop] at h
      split at h
      · rename_i hc
        obtain ⟨front, hrest, hcs, hhead⟩ := ih h
        refine ⟨ps.takeWhile isFiller ++ p :: front, ?_, ?_, hhead⟩
        · rw [List.append_assoc, List.cons_append, ← hrest, ← hdrop,
            List.takeWhile_append_dropWhile]
        · rw [List.filterMap_append, hskip, List.nil_append,
            List.filterMap_cons_some (beq_iff_eq.mp hc), hcs]
      · cases h

private theorem trimEnd_eq (ps : List String) :
    ∃ fillers, ps = trimEnd true ps ++ fillers ∧ (∀ p ∈ fillers, isFiller p = true) ∧
      ∀ p ∈ (trimEnd true ps).getLast?, isFiller p = false := by
  cases ps with
  | nil => exact ⟨[], by simp [trimEnd]⟩
  | cons p rest =>
    -- the first part is looked at last, since it is kept as long as one behind it is
    have hkept : rest = (rest.reverse.dropWhile isFiller).reverse ++
        (rest.reverse.takeWhile isFiller).reverse := by
      rw [← List.reverse_append, List.takeWhile_append_dropWhile, List.reverse_reverse]
    have hcut : ∀ q ∈ (rest.reverse.takeWhile isFiller).reverse, isFiller q = true :=
      fun q hq => List.mem_takeWhile_imp (List.mem_reverse.mp hq)
    cases hk : (rest.reverse.dropWhile isFiller).reverse with
    | nil =>
      have htrim : trimEnd true (p :: rest) = if isFiller p then [] else [p] := by
        simp [trimEnd, hk, isFiller]
      rw [hk, List.nil_append] at hkept
      rw [htrim]
      split
      · rename_i hp
        refine ⟨p :: rest, rfl, ?_, by simp⟩
        rw [hkept]
        simpa [hp] using hcut
      · rename_i hp
        exact ⟨rest, rfl, hkept ▸ hcut, by simpa using hp⟩
    | cons q kept =>
      have htrim : trimEnd true (p :: rest) = p :: q :: kept := by simp [trimEnd, hk]
      refine ⟨_, ?_, hcut, ?_⟩
      · rw [htrim, List.cons_append, ← hk, ← hkept]
      · intro l hl
        have hhead := List.head?_dropWhile_not isFiller rest.reverse
        have hl' : l ∈ (q :: kept).getLast? := by
          rwa [htrim, List.getLast?_cons_cons] at hl
        rw [← hk, List.getLast?_reverse, Option.mem_def] at hl'
        simpa [hl'] using hhead

theorem trimEnd_of_getLast? {ps : List String} (h : ∀ p ∈ ps.getLast?, isFiller p = false) :
    trimEnd true ps = ps := by
  obtain ⟨fillers, hps, hfillers, _⟩ := trimEnd_eq ps
  rcases List.eq_nil_or_concat fillers with rfl | ⟨front, p, rfl⟩
  · rw [List.append_nil] at hps
    exact hps.symm
  · rw [List.concat_eq_append] at hps hfillers
    have hlast := h p (by rw [hps, ← List.append_assoc, List.getLast?_concat]; rfl)
    rw [hfillers p (by simp)] at hlast
    cases hlast

theorem components_of_isAbsolute {p : String} (h : isAbsolute p = true) :
    components p = .root :: (parts p).filterMap componentOf? := by
  obtain ⟨ss, _, hss⟩ := isAbsolute_iff.mp h
  have hempty : componentOf? "" = none := by decide
  rw [components, parts, if_pos h, if_pos h, hss, List.tail_cons, List.filterMap_cons_none hempty]

theorem components_eq_nil {p : String} (h : components p = []) : p = "" := by
  rw [components] at h
  split at h
  · cases h
  rename_i habs
  split at h
  · cases h
  rename_i hdot
  have hall := List.filterMap_eq_nil_iff.mp h
  obtain ⟨s, ss, hss⟩ := List.exists_cons_of_ne_nil (segments_ne_nil p)
  have hs : s = "" := by
    have hfiller := componentOf?_eq_none.mp (hall s (hss ▸ List.mem_cons_self))
    rw [isFiller, Bool.or_eq_true, beq_iff_eq, beq_iff_eq] at hfiller
    exact hfiller.resolve_right fun hs => hdot (by simp [hss, hs])
  cases ss with
  | nil => rw [← intercalate_segments p, hss, hs]; rfl
  | cons t ss => exact absurd (isAbsolute_iff.mpr ⟨t :: ss, by simp, hs ▸ hss⟩) habs

section

variable {ps : List String} (hps : ∀ p ∈ ps, '/' ∉ p.toList)
include hps

theorem segments_ofParts (hne : ps ≠ []) : segments (ofParts false ps) = ps := by
  have hpath : ofParts false ps = "/".intercalate ps := by simp [ofParts]
  rw [hpath, segments_intercalate hne hps]

theorem names_ofParts : names (ofParts false ps) = ps.filter (· ≠ "") := by
  cases ps with
  | nil => rw [show ofParts false [] = "" from rfl, names_empty, List.filter_nil]
  | cons p ps => rw [names, segments_ofParts hps (by simp)]

theorem isAbsolute_ofParts (hhead : ps.head? ≠ some "") :
    isAbsolute (ofParts false ps) = false := by
  rw [Bool.eq_false_iff]
  intro habs
  obtain ⟨ss, hss, hsegments⟩ := isAbsolute_iff.mp habs
  cases ps with
  | nil =>
    rw [show ofParts false [] = "" from rfl, segments_empty] at hsegments
    exact hss (List.cons_eq_cons.mp hsegments).2.symm
  | cons p ps =>
    rw [segments_ofParts hps (by simp)] at hsegments
    exact hhead (congrArg List.head? hsegments)

end

private theorem relativeTo?_parts {base p rel : String} (hbase : base ≠ "")
    (hp : isAbsolute p = true) (h : relativeTo? base p = some rel) :
    ∃ front kept fillers, parts p = front ++ (kept ++ fillers) ∧
      components base = .root :: front.filterMap componentOf? ∧ rel = ofParts false kept ∧
      (∀ q ∈ kept.head?, isFiller q = false) ∧ (∀ q ∈ kept.getLast?, isFiller q = false) ∧
      ∀ q ∈ fillers, isFiller q = true := by
  have hbody : ∃ cs qs, components base = .root :: cs ∧ afterComponents cs (parts p) = some qs ∧
      rel = ofParts false (trimEnd true qs) := by
    rw [relativeTo?, components_of_isAbsolute hp] at h
    split at h
    · rename_i hnil
      exact absurd (components_eq_nil hnil) hbase
    · rename_i cs _ hcs _
      obtain ⟨qs, hqs, hrel⟩ := Option.map_eq_some_iff.mp h
      exact ⟨cs, qs, hcs, hqs, hrel.symm⟩
    all_goals simp_all
  obtain ⟨cs, qs, hcs, hqs, rfl⟩ := hbody
  obtain ⟨front, hfront, rfl, hhead⟩ := afterComponents_eq_some hqs
  obtain ⟨fillers, hfillers, hcut, hlast⟩ := trimEnd_eq qs
  refine ⟨front, trimEnd true qs, fillers, by rw [hfront, ← hfillers], hcs, rfl, ?_, hlast, hcut⟩
  intro q hq
  refine hhead q ?_
  rw [hfillers, List.head?_append, Option.mem_def.mp hq, Option.some_or, Option.mem_def]

/-- A path relative to a directory has the components that follow those of the directory. Nothing
but names is left in it, apart from dots, and none of its ends is a slash. -/
theorem relativeTo?_eq_some {base p rel : String} (hbase : base ≠ "") (hp : isAbsolute p = true)
    (hup : Component.parent ∉ components p) (h : relativeTo? base p = some rel) :
    components p = components base ++ ((names rel).filter (· ≠ ".")).map .name ∧
      ".." ∉ names rel ∧ isAbsolute rel = false ∧
      (rel ≠ "" → (segments rel).getLast? ≠ some "") := by
  obtain ⟨front, kept, fillers, hparts, hfront, rfl, hhead, hlast, hcut⟩ :=
    relativeTo?_parts hbase hp h
  have hslash : ∀ s ∈ kept, '/' ∉ s.toList := by
    intro s hs
    have hmem : s ∈ parts p := by simp [hparts, hs]
    rw [parts, if_pos hp] at hmem
    exact slash_not_mem_of_segment (List.mem_of_mem_tail hmem)
  have hbelow : components p = components base ++ kept.filterMap componentOf? := by
    have hnone : fillers.filterMap componentOf? = [] :=
      List.filterMap_eq_nil_iff.mpr fun s hs => componentOf?_eq_none.mpr (hcut s hs)
    rw [components_of_isAbsolute hp, hparts, List.filterMap_append, List.filterMap_append, hnone,
      hfront, List.append_nil, List.cons_append]
  have hkeptup : Component.parent ∉ kept.filterMap componentOf? :=
    fun hmem => hup (hbelow ▸ List.mem_append_right _ hmem)
  obtain ⟨hnames, hnoup⟩ := filterMap_componentOf? hkeptup
  rw [names_ofParts hslash]
  refine ⟨?_, ?_, isAbsolute_ofParts hslash ?_, fun hrel => ?_⟩
  · rw [hbelow, hnames, List.filter_filter]
    simp only [isFiller, Bool.not_or, decide_not, Bool.and_comm, beq_eq_decide]
  · exact fun hmem => hnoup (List.mem_filter.mp hmem).1
  · exact fun hempty => absurd (hhead "" hempty) (by decide)
  · have hne : kept ≠ [] := fun hk => hrel (by rw [hk]; rfl)
    rw [segments_ofParts hslash hne]
    exact fun hempty => absurd (hlast "" hempty) (by decide)

end RepairSearch.Path
