import RepairSearch.Files.System

/-!
# Trees of files

What a tree holds after a node was put into it: the new node where names lead, and everywhere else
what was there before.
-/

namespace RepairSearch.Files.Node

theorem lookup_entry (k l : String) (m : Node) (es : List (String × Node)) :
    List.lookup k ((l, m) :: es) = if k = l then some m else es.lookup k := by
  rw [List.lookup_cons]
  by_cases h : k = l
  · rw [if_pos h, beq_iff_eq.mpr h]
  · rw [if_neg h, beq_eq_false_iff_ne.mpr h]

private theorem lookup_putEntry (es : List (String × Node)) (name k : String) (n : Node) :
    (putEntry es name n).lookup k = if k = name then some n else es.lookup k := by
  induction es with
  | nil => rw [putEntry, lookup_entry]
  | cons e es ih =>
    obtain ⟨l, m⟩ := e
    rw [putEntry]
    by_cases hl : l = name
    · rw [if_pos hl, lookup_entry, lookup_entry, hl]
      split <;> rfl
    · rw [if_neg hl, lookup_entry, lookup_entry, ih]
      by_cases hk : k = l
      · rw [if_pos hk, if_neg (hk ▸ hl), if_pos hk]
      · rw [if_neg hk, if_neg hk]

theorem putEntry_putEntry (es : List (String × Node)) (name : String) (n m : Node) :
    putEntry (putEntry es name n) name m = putEntry es name m := by
  induction es with
  | nil => simp [putEntry]
  | cons e es ih =>
    obtain ⟨l, _⟩ := e
    by_cases hl : l = name <;> simp [putEntry, hl, ih]

theorem putEntry_of_lookup {es : List (String × Node)} {name : String} (n : Node)
    (h : es.lookup name = none) : putEntry es name n = es ++ [(name, n)] := by
  induction es with
  | nil => rfl
  | cons e es ih =>
    obtain ⟨l, m⟩ := e
    rw [lookup_entry] at h
    split at h
    · cases h
    · rename_i hl
      rw [putEntry, if_neg (Ne.symm hl), ih h]
      rfl

theorem mem_of_lookup {es : List (String × Node)} {name : String} {n : Node}
    (h : es.lookup name = some n) : (name, n) ∈ es := by
  induction es with
  | nil => cases h
  | cons e es ih =>
    obtain ⟨l, m⟩ := e
    rw [lookup_entry] at h
    split at h
    · rename_i hl
      obtain rfl := Option.some.inj h
      exact hl ▸ List.mem_cons_self
    · exact List.mem_cons_of_mem _ (ih h)

/-- Induction over entries and over those of the directories among them. -/
@[elab_as_elim]
theorem induction_entries {motive : List (String × Node) → Prop} (nil : motive [])
    (cons : ∀ name n rest, (∀ es, n = directory es → motive es) → motive rest →
      motive ((name, n) :: rest))
    (es : List (String × Node)) : motive es :=
  match es with
  | [] => nil
  | (name, n) :: rest =>
    have hinner : ∀ es, n = directory es → motive es := by
      rintro es rfl
      exact induction_entries nil cons es
    cons name n rest hinner (induction_entries nil cons rest)
termination_by sizeOf es

@[simp] theorem entries_directory (es : List (String × Node)) : (directory es).entries = es := rfl

@[simp] theorem get?_nil (n : Node) : n.get? [] = some n := by simp [get?]

theorem get?_cons (n : Node) (name : String) (names : List String) :
    n.get? (name :: names) = (n.entries.lookup name).bind (·.get? names) := by
  rw [get?]
  cases n.entries.lookup name <;> rfl

theorem eq_of_get?_leaf {n m : Node} {names : List String} (hn : n.entries = [])
    (h : n.get? names = some m) : names = [] ∧ n = m := by
  cases names with
  | nil => exact ⟨rfl, by simpa using h⟩
  | cons name names =>
    rw [get?_cons, hn] at h
    cases h

/-- What stands below a directory stands below one of its entries. -/
theorem get?_directory_cons {es : List (String × Node)} {name : String} {names : List String}
    {m : Node} : (directory es).get? (name :: names) = some m ↔
      ∃ child, es.lookup name = some child ∧ child.get? names = some m := by
  rw [get?_cons, entries_directory, Option.bind_eq_some_iff]

theorem get?_append (n : Node) (names rest : List String) :
    n.get? (names ++ rest) = (n.get? names).bind (·.get? rest) := by
  induction names generalizing n with
  | nil => simp
  | cons name names ih =>
    rw [List.cons_append, get?_cons, get?_cons]
    cases n.entries.lookup name with
    | none => rfl
    | some m => exact ih m

theorem get?_singleton (n : Node) (name : String) : n.get? [name] = n.entries.lookup name := by
  rw [get?_cons]
  cases n.entries.lookup name <;> simp

theorem exists_directory_of_get? {n m : Node} {name : String} {names : List String}
    (h : n.get? (name :: names) = some m) : ∃ es, n = directory es := by
  cases n with
  | directory es => exact ⟨es, rfl⟩
  | file _ _ => simp [get?_cons, entries] at h
  | link _ => simp [get?_cons, entries] at h

theorem exists_directory_of_get?_append {n m : Node} {names : List String} {name : String}
    {rest : List String} (h : n.get? (names ++ name :: rest) = some m) :
    ∃ es, n.get? names = some (directory es) := by
  rw [get?_append] at h
  obtain ⟨parent, hparent, hrest⟩ := Option.bind_eq_some_iff.mp h
  obtain ⟨es, rfl⟩ := exists_directory_of_get? hrest
  exact ⟨es, hparent⟩

theorem put_cons (n m : Node) (name : String) (names : List String) :
    n.put (name :: names) m = directory (putEntry n.entries name
      (((n.entries.lookup name).getD (directory [])).put names m)) := by
  rw [put]

@[simp] theorem put_nil (n m : Node) : n.put [] m = m := by rw [put]

theorem get?_put_append (n m : Node) (names rest : List String) :
    (n.put names m).get? (names ++ rest) = m.get? rest := by
  induction names generalizing n with
  | nil => simp
  | cons name names ih =>
    rw [put_cons, List.cons_append, get?_cons, entries_directory, lookup_putEntry, if_pos rfl]
    exact ih _

@[simp] theorem get?_put_self (n m : Node) (names : List String) :
    (n.put names m).get? names = some m := by
  simpa using get?_put_append n m names []

private theorem putEntry_of_lookup_eq_some {es : List (String × Node)} {name : String} {n : Node}
    (h : es.lookup name = some n) : putEntry es name n = es := by
  induction es with
  | nil => cases h
  | cons e es ih =>
    obtain ⟨l, m⟩ := e
    rw [lookup_entry] at h
    rw [putEntry]
    split at h
    · rename_i hl
      rw [if_pos hl.symm, Option.some.inj h, hl]
    · rename_i hl
      rw [if_neg (Ne.symm hl), ih h]

theorem put_of_get? {n m : Node} {names : List String} (h : n.get? names = some m) :
    n.put names m = n := by
  induction names generalizing n with
  | nil =>
    rw [get?_nil, Option.some.injEq] at h
    rw [put_nil, h]
  | cons name names ih =>
    obtain ⟨es, rfl⟩ := exists_directory_of_get? h
    obtain ⟨child, hchild, hrest⟩ := get?_directory_cons.mp h
    rw [put_cons, entries_directory, hchild, Option.getD_some, ih hrest,
      putEntry_of_lookup_eq_some hchild]

theorem put_put_append (n m m' : Node) (names rest : List String) :
    (n.put names m).put (names ++ rest) m' = n.put names (m.put rest m') := by
  induction names generalizing n with
  | nil => simp
  | cons name names ih =>
    rw [put_cons, List.cons_append, put_cons, put_cons, entries_directory, lookup_putEntry,
      if_pos rfl, putEntry_putEntry, Option.getD_some, ih]

/-- A node that is put neither at other names nor above nor below them leaves what stands there. -/
theorem get?_put_of_apart {n : Node} (m : Node) {names other : List String}
    (hbelow : ¬ names <+: other) (habove : ¬ other <+: names) :
    (n.put names m).get? other = n.get? other := by
  induction names generalizing n other with
  | nil => exact absurd List.nil_prefix hbelow
  | cons name names ih =>
    cases other with
    | nil => exact absurd List.nil_prefix habove
    | cons k other =>
      rw [put_cons, get?_cons, get?_cons, entries_directory, lookup_putEntry]
      by_cases hk : k = name
      · subst hk
        rw [List.prefix_cons_inj] at hbelow habove
        rw [if_pos rfl, Option.bind_some, ih hbelow habove]
        cases n.entries.lookup k with
        | some child => rfl
        | none =>
          have hne : other ≠ [] := fun hnil => habove (hnil ▸ List.nil_prefix)
          obtain ⟨next, more, rfl⟩ := List.exists_cons_of_ne_nil hne
          simp [get?_cons]
      · rw [if_neg hk]

/-- What stands at a place, without what is below it. -/
def bare : Node → Node
  | directory _ => directory []
  | n => n

@[simp] theorem bare_directory (es : List (String × Node)) :
    (directory es).bare = directory [] := rfl

@[simp] theorem bare_file (content : Text) (x : Bool) : (file content x).bare = file content x :=
  rfl

theorem bare_eq_directory {n : Node} {es : List (String × Node)}
    (h : n.bare = (directory es).bare) : ∃ es', n = directory es' := by
  cases n with
  | directory es' => exact ⟨es', rfl⟩
  | file _ _ => cases h
  | link _ => cases h

theorem bare_eq_file {n : Node} {content : Text} {x : Bool} (h : n.bare = (file content x).bare) :
    n = file content x := by
  cases n with
  | directory _ => cases h
  | file _ _ => exact h
  | link _ => cases h

/-- A node that is put into a directory changes nothing that is not at its place or below it. -/
theorem bare_get?_put {n : Node} (m : Node) {names other : List String}
    {es : List (String × Node)} (hparent : n.get? names.dropLast = some (directory es))
    (hother : ¬ names <+: other) :
    ((n.put names m).get? other).map bare = (n.get? other).map bare := by
  induction names generalizing n other with
  | nil => exact absurd List.nil_prefix hother
  | cons name names ih =>
    have hn : ∃ es', n = directory es' := by
      cases names with
      | nil => exact ⟨es, by simpa using hparent⟩
      | cons _ _ =>
        rw [List.dropLast_cons_cons] at hparent
        exact exists_directory_of_get? hparent
    obtain ⟨es', rfl⟩ := hn
    rw [put_cons]
    cases other with
    | nil => simp
    | cons k other =>
      rw [get?_cons, get?_cons, entries_directory, entries_directory, lookup_putEntry]
      by_cases hk : k = name
      · subst hk
        rw [if_pos rfl, Option.bind_some]
        have hrest : ¬ names <+: other := fun h => hother ((List.prefix_cons_inj k).mpr h)
        cases names with
        | nil => exact absurd List.nil_prefix hrest
        | cons _ _ =>
          rw [List.dropLast_cons_cons] at hparent
          obtain ⟨child, hchild, hbelow⟩ := get?_directory_cons.mp hparent
          rw [hchild, Option.getD_some, Option.bind_some]
          exact ih hbelow hrest
      · rw [if_neg hk]

/-- So it is when a node takes the place of another one. -/
theorem bare_get?_put_of_get? {n m₀ : Node} (m : Node) {names other : List String}
    (h : n.get? names = some m₀) (hother : ¬ names <+: other) :
    ((n.put names m).get? other).map bare = (n.get? other).map bare := by
  rcases List.eq_nil_or_concat names with rfl | ⟨above, name, rfl⟩
  · exact absurd List.nil_prefix hother
  · rw [List.concat_eq_append] at h hother ⊢
    obtain ⟨es, hes⟩ := exists_directory_of_get?_append h
    exact bare_get?_put m (by rwa [List.dropLast_concat]) hother

/-- The kind of a node, and of a link where it leads. -/
def outline : Node → Node
  | file _ _ => file [] false
  | directory _ => directory []
  | link target => link target

theorem outline_comp_bare : outline ∘ bare = outline := by
  funext n
  cases n <;> rfl

theorem outline_eq_directory {n : Node} {es : List (String × Node)}
    (h : n.outline = (directory es).outline) : ∃ es', n = directory es' := by
  cases n with
  | directory es' => exact ⟨es', rfl⟩
  | file _ _ => cases h
  | link _ => cases h

theorem outline_eq_file {n : Node} {content : Text} {x : Bool}
    (h : n.outline = (file content x).outline) : ∃ content' x', n = file content' x' := by
  cases n with
  | file content' x' => exact ⟨content', x', rfl⟩
  | directory _ => cases h
  | link _ => cases h

theorem outline_eq_link {n : Node} {target : String} :
    n.outline = link (.path target) ↔ n = link (.path target) := by
  cases n <;> simp [outline]

/-- No link stands in a tree. -/
def Unlinked (n : Node) : Prop := ∀ names target, n.get? names ≠ some (link (.path target))

theorem unlinked_file (content : Text) (x : Bool) : (file content x).Unlinked := by
  rintro (_ | ⟨name, names⟩) target h
  · simp at h
  · exact absurd (exists_directory_of_get? h) (by simp)

theorem unlinked_directory {es : List (String × Node)} (h : ∀ e ∈ es, e.2.Unlinked) :
    (directory es).Unlinked := by
  rintro (_ | ⟨name, names⟩) target hlink
  · simp at hlink
  · obtain ⟨m, hm, hbelow⟩ := get?_directory_cons.mp hlink
    exact h (name, m) (mem_of_lookup hm) names target hbelow

theorem Unlinked.get? {n m : Node} {names : List String} (h : n.Unlinked)
    (hm : n.get? names = some m) : m.Unlinked := by
  intro rest target hlink
  refine h (names ++ rest) target ?_
  rw [get?_append, hm, Option.bind_some, hlink]

end RepairSearch.Files.Node
