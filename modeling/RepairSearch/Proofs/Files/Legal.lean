import RepairSearch.Proofs.Files.Place

/-!
# Legal trees

The trees that file systems have: the entries of every directory have different names, and all of
them are names.
-/

namespace RepairSearch.Files

/-- A tree in which names tell the entries of each directory apart. -/
def Legal (n : Node) : Prop :=
  ∀ names es, n.get? names = some (.directory es) →
    (es.map (·.1)).Nodup ∧ ∀ e ∈ es, IsName e.1

theorem lookup_of_mem {es : List (String × Node)} {name : String} {n : Node}
    (hnodup : (es.map (·.1)).Nodup) (h : (name, n) ∈ es) : es.lookup name = some n := by
  induction es with
  | nil => cases h
  | cons e es ih =>
    obtain ⟨l, m⟩ := e
    rw [Node.lookup_entry]
    obtain ⟨hl, hnodup⟩ := List.nodup_cons.mp hnodup
    rcases List.mem_cons.mp h with heq | hmem
    · cases heq
      rw [if_pos rfl]
    · rw [if_neg ?_]
      · exact ih hnodup hmem
      · rintro rfl
        exact hl (List.mem_map.mpr ⟨_, hmem, rfl⟩)

theorem Legal.get? {n m : Node} {names : List String} (h : Legal n) (hm : n.get? names = some m) :
    Legal m := by
  intro rest es hes
  refine h (names ++ rest) es ?_
  rw [Node.get?_append, hm, Option.bind_some, hes]

theorem Legal.entry {es : List (String × Node)} {e : String × Node}
    (h : Legal (.directory es)) (he : e ∈ es) : Legal e.2 := by
  have hget : (Node.directory es).get? [e.1] = some e.2 := by
    rw [Node.get?_singleton, Node.entries_directory]
    exact lookup_of_mem (h [] es (Node.get?_nil _)).1 he
  exact h.get? hget

theorem legal_file (content : Text) (x : Bool) : Legal (.file content x) := by
  rintro (_ | ⟨name, names⟩) es h
  · simp at h
  · exact absurd (Node.exists_directory_of_get? h) (by simp)

private theorem legal_link (target : Target) : Legal (.link target) := by
  rintro (_ | ⟨name, names⟩) es h
  · simp at h
  · exact absurd (Node.exists_directory_of_get? h) (by simp)

theorem legal_directory {es : List (String × Node)} (hnodup : (es.map (·.1)).Nodup)
    (hes : ∀ e ∈ es, IsName e.1 ∧ Legal e.2) : Legal (.directory es) := by
  rintro (_ | ⟨name, names⟩) es' h
  · obtain rfl : es = es' := by simpa using h
    exact ⟨hnodup, fun e he => (hes e he).1⟩
  · obtain ⟨child, hchild, hrest⟩ := Node.get?_directory_cons.mp h
    exact (hes _ (Node.mem_of_lookup hchild)).2 names es' hrest

theorem legal_directory_iff {es : List (String × Node)} : Legal (.directory es) ↔
    (es.map (·.1)).Nodup ∧ ∀ e ∈ es, IsName e.1 ∧ Legal e.2 := by
  constructor
  · intro h
    obtain ⟨hnodup, hnames⟩ := h [] es (Node.get?_nil _)
    exact ⟨hnodup, fun e he => ⟨hnames e he, h.entry he⟩⟩
  · exact fun ⟨hnodup, hes⟩ => legal_directory hnodup hes

mutual

/-- Whether a tree is legal, told by one pass over it. -/
def isLegal : Node → Bool
  | .directory es => decide (es.map (·.1)).Nodup && areLegal es
  | .file _ _ | .link _ => true

def areLegal : List (String × Node) → Bool
  | [] => true
  | (name, n) :: es => decide (IsName name) && isLegal n && areLegal es

end

private theorem isLegal_of_entries {n : Node} (h : ∀ es, n = .directory es →
    (areLegal es = true ↔ ∀ e ∈ es, IsName e.1 ∧ Legal e.2)) : isLegal n = true ↔ Legal n := by
  cases n with
  | file content executable => exact iff_of_true rfl (legal_file content executable)
  | link target => exact iff_of_true rfl (legal_link target)
  | directory es =>
    rw [isLegal, Bool.and_eq_true, decide_eq_true_eq, h es rfl, legal_directory_iff]

private theorem areLegal_iff (es : List (String × Node)) :
    areLegal es = true ↔ ∀ e ∈ es, IsName e.1 ∧ Legal e.2 := by
  induction es using Node.induction_entries with
  | nil => simp [areLegal]
  | cons name n rest hinner ih =>
    rw [areLegal, Bool.and_eq_true, Bool.and_eq_true, decide_eq_true_eq,
      isLegal_of_entries hinner, ih, List.forall_mem_cons]

private theorem isLegal_iff (n : Node) : isLegal n = true ↔ Legal n :=
  isLegal_of_entries fun es _ => areLegal_iff es

instance (n : Node) : Decidable (Legal n) := decidable_of_iff _ (isLegal_iff n)

theorem Legal.tail {e : String × Node} {es : List (String × Node)}
    (h : Legal (.directory (e :: es))) : Legal (.directory es) := by
  intro names es' hes
  cases names with
  | nil =>
    obtain rfl : es = es' := by simpa using hes
    obtain ⟨hnodup, hnames⟩ := h [] _ (Node.get?_nil _)
    exact ⟨(List.nodup_cons.mp hnodup).2, fun e he => hnames e (List.mem_cons_of_mem _ he)⟩
  | cons name names =>
    obtain ⟨child, hchild, hrest⟩ := Node.get?_directory_cons.mp hes
    exact h.entry (List.mem_cons_of_mem _ (Node.mem_of_lookup hchild)) names es' hrest

theorem Legal.head {e : String × Node} {es : List (String × Node)}
    (h : Legal (.directory (e :: es))) : Legal (.directory [e]) := by
  refine legal_directory (by simp) fun e' he' => ?_
  obtain rfl := List.mem_singleton.mp he'
  exact ⟨(h [] _ (Node.get?_nil _)).2 _ List.mem_cons_self, h.entry List.mem_cons_self⟩

theorem Legal.lookup_tail {name : String} {n : Node} {es : List (String × Node)}
    (h : Legal (.directory ((name, n) :: es))) : es.lookup name = none := by
  obtain ⟨hnew, _⟩ := List.nodup_cons.mp (h [] _ (Node.get?_nil _)).1
  refine Option.eq_none_iff_forall_ne_some.mpr fun m hm => hnew ?_
  exact List.mem_map.mpr ⟨_, Node.mem_of_lookup hm, rfl⟩

theorem get?_entry (name : String) (n : Node) (rest : List (String × Node)) (below : List String) :
    (Node.directory ((name, n) :: rest)).get? (name :: below) = n.get? below := by
  rw [Node.get?_cons, Node.entries_directory, Node.lookup_entry, if_pos rfl, Option.bind_some]

theorem Legal.isName {n m : Node} {names : List String} (h : Legal n)
    (hm : n.get? names = some m) : ∀ s ∈ names, IsName s := by
  induction names generalizing n with
  | nil => simp
  | cons name names ih =>
    obtain ⟨es, rfl⟩ := Node.exists_directory_of_get? hm
    obtain ⟨child, hchild, hrest⟩ := Node.get?_directory_cons.mp hm
    have hmem := Node.mem_of_lookup hchild
    intro s hs
    rcases List.mem_cons.mp hs with rfl | hs
    · exact (h [] es (Node.get?_nil _)).2 _ hmem
    · exact ih (h.entry hmem) hrest s hs

end RepairSearch.Files
