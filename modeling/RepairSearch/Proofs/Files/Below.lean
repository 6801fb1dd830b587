import RepairSearch.Proofs.Files.Place

/-!
# Paths below a directory

A path below a directory has the components of the directory and names behind them. Joining a
directory with names leads below it.
-/

namespace RepairSearch.Path

open Files

private theorem segments_slash (a : String) : segments (a ++ "/") = segments a ++ [""] := by
  have happend := segments_append a ""
  rwa [String.append_empty, segments_empty] at happend

private theorem isAbsolute_append {a : String} (ha : a ≠ "") (b : String) :
    isAbsolute (a ++ b) = isAbsolute a := by
  obtain ⟨c, cs, hcs⟩ := List.exists_cons_of_ne_nil (mt String.toList_eq_nil_iff.mp ha)
  rw [isAbsolute, isAbsolute, String.startsWith_char_eq_head?, String.startsWith_char_eq_head?,
    String.toList_append, hcs]
  rfl

/-- What stands behind a slash adds its components, of which the first is none of the path. -/
theorem components_append (a b : String) :
    components (a ++ "/" ++ b) = components (a ++ "/") ++ (segments b).filterMap componentOf? := by
  have habs : isAbsolute (a ++ "/" ++ b) = isAbsolute (a ++ "/") :=
    isAbsolute_append (by simp [String.append_eq_empty_iff]) b
  have hhead : (segments (a ++ "/" ++ b)).head? = (segments (a ++ "/")).head? := by
    obtain ⟨s, ss, hss⟩ := List.exists_cons_of_ne_nil (segments_ne_nil a)
    rw [segments_append, segments_slash, hss]
    rfl
  have hbody : (segments (a ++ "/" ++ b)).filterMap componentOf? =
      (segments (a ++ "/")).filterMap componentOf? ++ (segments b).filterMap componentOf? := by
    have hempty : [""].filterMap componentOf? = [] := by decide
    rw [segments_append, segments_slash, List.filterMap_append, List.filterMap_append, hempty,
      List.append_nil]
  rw [components, components, habs, hhead, hbody]
  split
  · rfl
  · split <;> rfl

theorem components_slash {a : String} (ha : a ≠ "") : components (a ++ "/") = components a := by
  have hhead : (segments (a ++ "/")).head? = (segments a).head? := by
    obtain ⟨s, ss, hss⟩ := List.exists_cons_of_ne_nil (segments_ne_nil a)
    rw [segments_slash, hss]
    rfl
  have hbody : (segments (a ++ "/")).filterMap componentOf? =
      (segments a).filterMap componentOf? := by
    have hempty : [""].filterMap componentOf? = [] := by decide
    rw [segments_slash, List.filterMap_append, hempty, List.append_nil]
  rw [components, components, isAbsolute_append ha, hhead, hbody]

/-- A relative path that does not begin with a dot has no component but those of its segments. -/
theorem components_of_relative {p : String} (hp : isAbsolute p = false)
    (hdot : (segments p).head? ≠ some ".") :
    components p = (segments p).filterMap componentOf? := by
  simp [components, hp, hdot]

theorem components_join (base : String) {p : String} (hp : isAbsolute p = false)
    (hdot : (segments p).head? ≠ some ".") :
    components (join base p) = components base ++ components p := by
  by_cases hbase : base = ""
  · subst hbase
    have hjoin : join "" p = p := by simp [join]
    rw [hjoin, show components "" = [] by decide, List.nil_append]
  · rw [components_of_relative hp hdot, join, hp, Bool.false_or, if_neg (by simpa using hbase)]
    split
    · rename_i hslash
      obtain ⟨t, rfl⟩ := exists_eq_append_slash hslash
      exact components_append t p
    · rw [components_append, components_slash hbase]

section

variable {name : String} (hname : IsName name)
include hname

theorem segments_name : segments name = [name] := by
  have hslash : ∀ p ∈ [name], '/' ∉ p.toList := by simpa using hname.slash_not_mem
  simpa [ofParts] using segments_ofParts hslash (by simp)

private theorem isAbsolute_of_isName : isAbsolute name = false := by
  have hslash : ∀ p ∈ [name], '/' ∉ p.toList := by simpa using hname.slash_not_mem
  simpa [ofParts] using isAbsolute_ofParts hslash (by simpa using hname.ne_empty)

theorem filterMap_componentOf?_name : (segments name).filterMap componentOf? = [.name name] := by
  rw [segments_name hname, List.filterMap_cons_some (componentOf?_of_name hname.not_isFiller
    hname.ne_up), List.filterMap_nil]

theorem components_name : components name = [.name name] := by
  rw [components_of_relative (isAbsolute_of_isName hname), filterMap_componentOf?_name hname]
  rw [segments_name hname]
  simpa using hname.ne_dot

theorem components_join_name (base : String) :
    components (join base name) = components base ++ [.name name] := by
  have hdot : (segments name).head? ≠ some "." := by
    rw [segments_name hname]
    simpa using hname.ne_dot
  rw [components_join base (isAbsolute_of_isName hname) hdot, components_name hname]

theorem fileName?_join_name (base : String) : fileName? (join base name) = some name := by
  rw [fileName?, components_join_name hname, List.getLast?_concat]

end

/-- A path that leads down from a directory: names follow the components of the directory. -/
def Below (base path : String) : Prop :=
  ∃ names, names ≠ [] ∧ (∀ s ∈ names, IsName s) ∧
    components path = components base ++ names.map .name

/-- Neither path leads to the other or through it. -/
def Apart (p q : String) : Prop :=
  ¬ components p <+: components q ∧ ¬ components q <+: components p

/-- Paths with different names behind the same directory are apart, unless the names of one begin
with those of the other. -/
theorem apart_of_names {base p q : String} {names names' : List String}
    (hp : components p = components base ++ names.map .name)
    (hq : components q = components base ++ names'.map .name) (h : ¬ names <+: names')
    (h' : ¬ names' <+: names) : Apart p q := by
  have hinjective : Function.Injective Component.name := fun _ _ hab => Component.name.inj hab
  rw [Apart, hp, hq, List.prefix_append_right_inj, List.prefix_append_right_inj,
    List.prefix_map_iff_of_injective hinjective, List.prefix_map_iff_of_injective hinjective]
  exact ⟨h, h'⟩

end RepairSearch.Path
