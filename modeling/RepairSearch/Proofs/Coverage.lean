import Mathlib.Data.List.Infix
import Mathlib.Logic.Relation
import RepairSearch.Coverage

/-!
# Coverage from records

Reading a list of records fails at the first weight that is not legal. Otherwise the weight of a
line is that of the last record for it, so neither the order of records for different lines nor a
record with a later one for its line makes a difference.
-/

namespace RepairSearch.Coverage

variable {W : Type} {c : Coverage W} {rs rs' : List (CoverageRecord W)} {line : CoverageLine}

/-- The weight of the last record for a line. -/
def lastWeight? (rs : List (CoverageRecord W)) (line : CoverageLine) : Option W :=
  (rs.filter (·.place = line)).getLast?.map (·.weight)

private theorem lastWeight?_append (rs rs' : List (CoverageRecord W)) (line : CoverageLine) :
    lastWeight? (rs ++ rs') line = (lastWeight? rs' line).or (lastWeight? rs line) := by
  rw [lastWeight?, List.filter_append, List.getLast?_append, Option.map_or]
  rfl

private theorem lastWeight?_singleton (r : CoverageRecord W) (line : CoverageLine) :
    lastWeight? [r] line = if r.place = line then some r.weight else none := by
  rw [lastWeight?, List.filter_singleton]
  split <;> simp_all

private theorem exists_lastWeight? {r : CoverageRecord W} (hr : r ∈ rs) :
    ∃ w, lastWeight? rs r.place = some w := by
  have hne : rs.filter (·.place = r.place) ≠ [] :=
    List.ne_nil_of_mem (List.mem_filter.mpr ⟨hr, by simp⟩)
  rw [lastWeight?, List.getLast?_eq_some_getLast hne]
  exact ⟨_, rfl⟩

private theorem lookup_filter_ne {ws : List (CoverageLine × W)} {place : CoverageLine}
    (h : place ≠ line) : (ws.filter (·.1 ≠ place)).lookup line = ws.lookup line := by
  induction ws with
  | nil => rfl
  | cons w ws ih =>
    obtain ⟨key, w⟩ := w
    by_cases hkey : key = place
    · subst hkey
      rw [List.filter_cons_of_neg (by simp), ih, List.lookup_cons, beq_false_of_ne h.symm]
    · rw [List.filter_cons_of_pos (by simpa using hkey), List.lookup_cons, List.lookup_cons, ih]

private theorem weight?_insert (c : Coverage W) (r : CoverageRecord W) (line : CoverageLine) :
    (c.insert r).weight? line = if r.place = line then some r.weight else c.weight? line := by
  rw [insert, weight?, List.lookup_cons]
  split
  · rename_i heq
    rw [if_pos (eq_of_beq heq).symm]
  · rename_i hne
    have hne : r.place ≠ line := fun h => by simp [h] at hne
    rw [if_neg hne, lookup_filter_ne hne]
    rfl

private theorem weight?_foldl_insert (rs : List (CoverageRecord W)) (line : CoverageLine) :
    (rs.foldl insert ⟨[]⟩).weight? line = lastWeight? rs line := by
  induction rs using List.reverseRecOn with
  | nil => rfl
  | append_singleton rs r ih =>
    rw [List.foldl_append, List.foldl_cons, List.foldl_nil, weight?_insert, ih, lastWeight?_append,
      lastWeight?_singleton]
    split <;> rfl

/-- Steps that do not matter: the records for different lines in another order, or a record less
that had a later one for its line. -/
inductive Rearranged : List (CoverageRecord W) → List (CoverageRecord W) → Prop
  | reordered {rs rs' : List (CoverageRecord W)}
      (h : ∀ line, rs.filter (·.place = line) = rs'.filter (·.place = line)) : Rearranged rs rs'
  | dropped (xs : List (CoverageRecord W)) (r : CoverageRecord W) (ys : List (CoverageRecord W))
      (h : ∃ s ∈ ys, s.place = r.place) : Rearranged (xs ++ r :: ys) (xs ++ ys)

/-- Neighbours may change places if their lines differ. -/
theorem Rearranged.swap {r r' : CoverageRecord W} (xs : List (CoverageRecord W))
    {ys : List (CoverageRecord W)} (h : r.place ≠ r'.place) :
    Rearranged (xs ++ r :: r' :: ys) (xs ++ r' :: r :: ys) := by
  refine .reordered fun line => ?_
  rw [List.filter_append, List.filter_append, List.append_cancel_left_eq]
  by_cases hr : r.place = line
  · have hr' : r'.place ≠ line := fun hline => h (hr.trans hline.symm)
    simp [hr, hr']
  · simp [List.filter_cons, hr]

private theorem Rearranged.lastWeight?_eq (h : Rearranged rs rs') (line : CoverageLine) :
    lastWeight? rs' line = lastWeight? rs line := by
  cases h with
  | reordered h => rw [lastWeight?, lastWeight?, h line]
  | dropped xs r ys h =>
    rw [List.append_cons, lastWeight?_append, lastWeight?_append, lastWeight?_append,
      lastWeight?_singleton]
    split
    · rename_i hr
      obtain ⟨s, hs, hplace⟩ := h
      obtain ⟨w, hw⟩ := exists_lastWeight? hs
      rw [← hr, ← hplace, hw]
      rfl
    · rw [Option.none_or]

private theorem Rearranged.subset (h : Rearranged rs rs') : rs' ⊆ rs := by
  intro r hr
  cases h with
  | reordered h =>
    have hmem : r ∈ rs'.filter (·.place = r.place) := List.mem_filter.mpr ⟨hr, by simp⟩
    rw [← h] at hmem
    exact List.mem_of_mem_filter hmem
  | dropped xs r' ys h =>
    exact (List.Sublist.append_left (List.sublist_cons_self r' ys) xs).subset hr

variable [Weight W]

private theorem foldlM_add (c : Coverage W) (rs : List (CoverageRecord W)) :
    rs.foldlM add c =
      match rs.find? fun r => !Weight.isLegal r.weight with
      | some r => .error (.invalidWeight (Weight.text r.weight))
      | none => .ok (rs.foldl insert c) := by
  induction rs generalizing c with
  | nil => rfl
  | cons r rs ih =>
    rw [List.foldlM_cons, add, List.find?_cons]
    cases hlegal : Weight.isLegal r.weight with
    | true => exact ih (c.insert r)
    | false => rfl

theorem ofRecords_eq_ok_iff :
    ofRecords rs = .ok c ↔
      (∀ r ∈ rs, Weight.isLegal r.weight = true) ∧ c = rs.foldl insert ⟨[]⟩ := by
  rw [ofRecords, foldlM_add]
  split
  · rename_i r hr
    have hillegal := List.find?_some hr
    constructor
    · rintro ⟨⟩
    · rintro ⟨hlegal, _⟩
      rw [hlegal r (List.mem_of_find?_eq_some hr)] at hillegal
      cases hillegal
  · rename_i hnone
    have hlegal : ∀ r ∈ rs, Weight.isLegal r.weight = true := by
      simpa using List.find?_eq_none.mp hnone
    exact ⟨fun h => ⟨hlegal, (Except.ok.inj h).symm⟩, fun h => congrArg _ h.2.symm⟩

theorem ofRecords_eq_error_iff {e : RepairError} :
    ofRecords rs = .error e ↔ ∃ xs r ys, rs = xs ++ r :: ys ∧
      (∀ x ∈ xs, Weight.isLegal x.weight = true) ∧ Weight.isLegal r.weight = false ∧
      e = .invalidWeight (Weight.text r.weight) := by
  have hfirst (r : CoverageRecord W) :
      rs.find? (fun r => !Weight.isLegal r.weight) = some r ↔ ∃ xs ys, rs = xs ++ r :: ys ∧
        (∀ x ∈ xs, Weight.isLegal x.weight = true) ∧ Weight.isLegal r.weight = false := by
    rw [List.find?_eq_some_iff_append]
    simp only [Bool.not_eq_true', Bool.not_not]
    constructor
    · rintro ⟨hr, xs, ys, hsplit, hxs⟩
      exact ⟨xs, ys, hsplit, hxs, hr⟩
    · rintro ⟨xs, ys, hsplit, hxs, hr⟩
      exact ⟨hr, xs, ys, hsplit, hxs⟩
  constructor
  · intro h
    rw [ofRecords, foldlM_add] at h
    split at h
    · rename_i r hr
      obtain ⟨xs, ys, hsplit, hxs, hillegal⟩ := (hfirst r).mp hr
      exact ⟨xs, r, ys, hsplit, hxs, hillegal, (Except.error.inj h).symm⟩
    · cases h
  · rintro ⟨xs, r, ys, hsplit, hxs, hillegal, rfl⟩
    rw [ofRecords, foldlM_add, (hfirst r).mpr ⟨xs, ys, hsplit, hxs, hillegal⟩]

/-- In coverage that was read, each line has the weight of its last record. -/
theorem weight?_eq_lastWeight? (h : ofRecords rs = .ok c) (line : CoverageLine) :
    c.weight? line = lastWeight? rs line := by
  obtain ⟨_, rfl⟩ := ofRecords_eq_ok_iff.mp h
  exact weight?_foldl_insert rs line

theorem isLegal_of_weight? {w : W} (h : ofRecords rs = .ok c) (hw : c.weight? line = some w) :
    Weight.isLegal w = true := by
  rw [weight?_eq_lastWeight? h, lastWeight?] at hw
  obtain ⟨r, hr, rfl⟩ := Option.map_eq_some_iff.mp hw
  exact (ofRecords_eq_ok_iff.mp h).1 r (List.mem_of_mem_filter (List.mem_of_getLast? hr))

/-- Records that load do so as well after such steps, and no line changes its weight. -/
theorem exists_ofRecords_of_rearranged (h : Relation.ReflTransGen Rearranged rs rs')
    (hload : ofRecords rs = .ok c) :
    ∃ c', ofRecords rs' = .ok c' ∧ ∀ line, c'.weight? line = c.weight? line := by
  induction h with
  | refl => exact ⟨c, hload, fun _ => rfl⟩
  | tail _ hstep ih =>
    obtain ⟨c', hload', hsame⟩ := ih
    have hlegal := (ofRecords_eq_ok_iff.mp hload').1
    have hload'' := ofRecords_eq_ok_iff.mpr
      ⟨fun r hr => hlegal r (hstep.subset hr), rfl⟩
    refine ⟨_, hload'', fun line => ?_⟩
    rw [weight?_eq_lastWeight? hload'', hstep.lastWeight?_eq,
      ← weight?_eq_lastWeight? hload', hsame]

end RepairSearch.Coverage
