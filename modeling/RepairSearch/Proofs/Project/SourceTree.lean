import RepairSearch.Project.Sources
import RepairSearch.Proofs.Files.Legal

/-!
# Sources in a tree

A walk finds the supported files below a directory that no name on the way leaves out, each of them
once.
-/

namespace RepairSearch.Project

open Files

/-- A supported file, by the names that lead to it, none of which leaves it out. -/
structure IsSource (n : Node) (below : List String) : Prop where
  file : ∃ content x, n.get? below = some (.file content x)
  kept : below.any isSkipped = false
  supported : ∃ name ∈ below.getLast?, (Language.ofPath? name).isSome

theorem IsSource.ne_nil {n : Node} {below : List String} (h : IsSource n below) : below ≠ [] := by
  rintro rfl
  obtain ⟨_, hname, _⟩ := h.supported
  cases hname

private theorem IsSource.directory {n : Node} {below : List String} (h : IsSource n below) :
    ∃ es, n = .directory es := by
  obtain ⟨name, more, rfl⟩ := List.exists_cons_of_ne_nil h.ne_nil
  obtain ⟨content, x, hfile⟩ := h.file
  exact Node.exists_directory_of_get? hfile

private theorem isSource_congr {n m : Node} {below : List String}
    (h : n.get? below = m.get? below) :
    IsSource n below ↔ IsSource m below :=
  ⟨fun ⟨hfile, hkept, hsupported⟩ => ⟨h ▸ hfile, hkept, hsupported⟩,
    fun ⟨hfile, hkept, hsupported⟩ => ⟨h ▸ hfile, hkept, hsupported⟩⟩

private theorem isSource_cons {name : String} {n : Node} {rest : List (String × Node)}
    {below : List String} (hlegal : Legal (.directory ((name, n) :: rest))) :
    IsSource (.directory ((name, n) :: rest)) below ↔
      IsSource (.directory [(name, n)]) below ∨ IsSource (.directory rest) below := by
  cases below with
  | nil => exact iff_of_false (·.ne_nil rfl) fun h => h.elim (·.ne_nil rfl) (·.ne_nil rfl)
  | cons k below =>
    by_cases hk : k = name
    · subst hk
      have hnone : ¬ IsSource (.directory rest) (k :: below) := by
        rintro ⟨⟨_, _, hfile⟩, _, _⟩
        rw [Node.get?_cons, Node.entries_directory, hlegal.lookup_tail] at hfile
        cases hfile
      rw [or_iff_left hnone]
      exact isSource_congr (by rw [get?_entry, get?_entry])
    · have hnone : ¬ IsSource (.directory [(name, n)]) (k :: below) := by
        rintro ⟨⟨_, _, hfile⟩, _, _⟩
        rw [Node.get?_cons, Node.entries_directory, Node.lookup_entry, if_neg hk] at hfile
        cases hfile
      rw [or_iff_right hnone]
      refine isSource_congr ?_
      rw [Node.get?_cons, Node.get?_cons, Node.entries_directory, Node.lookup_entry, if_neg hk,
        Node.entries_directory]

private theorem isSource_entry {name : String} {n : Node} {below : List String} :
    IsSource (.directory [(name, n)]) below ↔ isSkipped name = false ∧
      ∃ more, below = name :: more ∧ (IsSource n more ∨
        more = [] ∧ (Language.ofPath? name).isSome ∧ ∃ content x, n = .file content x) := by
  constructor
  · rintro ⟨⟨content, x, hfile⟩, hkept, hsupported⟩
    cases below with
    | nil => simp at hfile
    | cons k more =>
      obtain ⟨child, hchild, hmore⟩ := Node.get?_directory_cons.mp hfile
      obtain ⟨rfl, rfl⟩ : k = name ∧ child = n := by simpa using Node.mem_of_lookup hchild
      rw [List.any_cons, Bool.or_eq_false_iff] at hkept
      refine ⟨hkept.1, more, rfl, ?_⟩
      cases more with
      | nil => exact .inr ⟨rfl, by simpa using hsupported, content, x, by simpa using hmore⟩
      | cons next more => exact .inl ⟨⟨content, x, hmore⟩, hkept.2, hsupported⟩
  · rintro ⟨hkept, more, rfl, h | ⟨rfl, hsupported, content, x, rfl⟩⟩
    · obtain ⟨next, rest, rfl⟩ := List.exists_cons_of_ne_nil h.ne_nil
      refine ⟨?_, by rw [List.any_cons, hkept, h.kept]; rfl, h.supported⟩
      rw [get?_entry]
      exact h.file
    · refine ⟨⟨content, x, ?_⟩, by simpa using hkept, name, rfl, hsupported⟩
      rw [get?_entry, Node.get?_nil]

/-- What a walk finds below a directory are the sources there. -/
theorem mem_filesAmong {relative names : List String} {es : List (String × Node)}
    (hlegal : Legal (.directory es)) :
    relative ∈ filesAmong names es ↔
      ∃ below, relative = names ++ below ∧ IsSource (.directory es) below := by
  induction es using Node.induction_entries generalizing names with
  | nil =>
    refine iff_of_false (by simp [filesAmong]) ?_
    rintro ⟨below, rfl, h⟩
    obtain ⟨k, more, rfl⟩ := List.exists_cons_of_ne_nil h.ne_nil
    obtain ⟨_, _, hfile⟩ := h.file
    simp [Node.get?_cons] at hfile
  | cons name n rest hinner hrest =>
    rw [filesAmong.eq_def, List.mem_append, hrest hlegal.tail]
    simp only [isSource_cons hlegal, and_or_left, exists_or]
    refine or_congr_left ?_
    simp only [isSource_entry]
    cases hskip : isSkipped name with
    | true => simp
    | false =>
      cases n with
      | link target =>
        have hnone : ∀ more, ¬ IsSource (.link target) more := fun _ h => by
          simpa using h.directory
        cases target <;> simp [hnone]
      | file content x =>
        have hnone : ∀ more, ¬ IsSource (.file content x) more := fun _ h => by
          simpa using h.directory
        simp [hnone, and_comm]
      | directory es => simp [hinner es rfl (hlegal.entry List.mem_cons_self)]

/-- All names in a tree encode characters. -/
def Spelled (n : Node) : Prop :=
  ∀ names m, n.get? names = some m → ∀ s ∈ names, Name.isText s = true

theorem spelled_of_entries {n : Node} (h : ∀ e ∈ n.entries, Name.isText e.1 = true ∧ Spelled e.2) :
    Spelled n := by
  rintro (_ | ⟨name, names⟩) m hm
  · simp
  · obtain ⟨es, rfl⟩ := Node.exists_directory_of_get? hm
    obtain ⟨child, hchild, hrest⟩ := Node.get?_directory_cons.mp hm
    obtain ⟨hname, hspelled⟩ := h _ (Node.mem_of_lookup hchild)
    exact List.forall_mem_cons.mpr ⟨hname, hspelled names m hrest⟩

theorem Spelled.unnamedAmong? {names : List String} {es : List (String × Node)}
    (hlegal : Legal (.directory es)) (h : Spelled (.directory es)) :
    unnamedAmong? names es = none := by
  induction es using Node.induction_entries generalizing names with
  | nil => rw [Project.unnamedAmong?]
  | cons name n rest hinner hrest =>
    have hentry : ∀ below, (Node.directory ((name, n) :: rest)).get? (name :: below) =
        n.get? below := get?_entry name n rest
    have hname : Name.isText name = true :=
      h [name] n ((hentry []).trans (Node.get?_nil n)) name List.mem_cons_self
    have hbelow : Spelled n := fun below m hm s hs =>
      h (name :: below) m ((hentry below).trans hm) s (List.mem_cons_of_mem name hs)
    have hspelled : Spelled (.directory rest) := by
      intro below m hm
      cases below with
      | nil => simp
      | cons k below =>
        obtain ⟨child, hchild, hmore⟩ := Node.get?_directory_cons.mp hm
        have hk : k ≠ name := by
          rintro rfl
          rw [hlegal.lookup_tail] at hchild
          cases hchild
        refine h (k :: below) m (Node.get?_directory_cons.mpr ⟨child, ?_, hmore⟩)
        rw [Node.lookup_entry, if_neg hk, hchild]
    rw [unnamedAmong?.eq_def]
    dsimp only
    rw [hname, hrest hlegal.tail hspelled]
    cases n with
    | directory es =>
      dsimp only
      rw [hinner es rfl (hlegal.entry List.mem_cons_self) hbelow]
      cases isSkipped name <;> rfl
    | file _ _ | link _ => cases isSkipped name <;> rfl

private theorem filesAmong_cons (names : List String) (e : String × Node)
    (rest : List (String × Node)) :
    filesAmong names (e :: rest) = filesAmong names [e] ++ filesAmong names rest := by
  obtain ⟨name, n⟩ := e
  rw [filesAmong.eq_def, filesAmong.eq_def names [(name, n)]]
  simp [filesAmong]

theorem nodup_filesAmong {names : List String} {es : List (String × Node)}
    (hlegal : Legal (.directory es)) : (filesAmong names es).Nodup := by
  have hnil : ∀ names, filesAmong names [] = [] := fun names => by rw [filesAmong]
  induction es using Node.induction_entries generalizing names with
  | nil => simp [hnil]
  | cons name n rest hinner hrest =>
    have hhere : (filesAmong names [(name, n)]).Nodup := by
      rw [filesAmong.eq_def]
      dsimp only
      rw [hnil, List.append_nil]
      split
      · exact List.nodup_nil
      · cases n with
        | link target => cases target <;> exact List.nodup_nil
        | file content x =>
          dsimp only
          split <;> simp
        | directory es => exact hinner es rfl (hlegal.entry List.mem_cons_self)
    rw [filesAmong_cons, List.nodup_append]
    refine ⟨hhere, hrest hlegal.tail, ?_⟩
    -- what is found behind different entries differs in the names of these
    rintro relative hmem _ hmem' rfl
    obtain ⟨below, rfl, hbelow⟩ := (mem_filesAmong hlegal.head).mp hmem
    obtain ⟨below', hsame, hbelow'⟩ := (mem_filesAmong hlegal.tail).mp hmem'
    obtain rfl := List.append_cancel_left hsame
    obtain ⟨_, more, rfl, _⟩ := isSource_entry.mp hbelow
    obtain ⟨_, _, hfile⟩ := hbelow'.file
    rw [Node.get?_cons, Node.entries_directory, hlegal.lookup_tail] at hfile
    cases hfile

end RepairSearch.Project
