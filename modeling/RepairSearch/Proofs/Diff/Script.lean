import RepairSearch.Diff.Script

/-!
# Scripts

The runs of two sequences lead through both of them from the start to the end. A run stands where
the runs before it end, but for the sequence that it takes nothing from: there, its place may be
any.
-/

namespace RepairSearch.Diff

/-- Steps from a place to another one. -/
inductive Chain {P S : Type} (step : S → P → P → Prop) : P → List S → P → Prop
  | nil (p : P) : Chain step p [] p
  | cons {s : S} {ss : List S} {p q r : P} (head : step s p q) (tail : Chain step q ss r) :
      Chain step p (s :: ss) r

namespace Chain

variable {P S : Type} {step step' : S → P → P → Prop} {p q r : P} {s : S} {ss ss' : List S}

theorem single (h : step s p q) : Chain step p [s] q := .cons h (.nil q)

theorem of_single (h : Chain step p [s] q) : step s p q := by
  cases h with
  | cons head tail =>
    cases tail
    exact head

theorem append (h : Chain step p ss q) (h' : Chain step q ss' r) : Chain step p (ss ++ ss') r := by
  induction h with
  | nil => exact h'
  | cons head _ ih => exact .cons head (ih h')

theorem exists_of_append (h : Chain step p (ss ++ ss') r) :
    ∃ q, Chain step p ss q ∧ Chain step q ss' r := by
  induction ss generalizing p with
  | nil => exact ⟨p, .nil p, h⟩
  | cons s ss ih =>
    cases h with
    | cons head tail =>
      obtain ⟨q, hq, hr⟩ := ih tail
      exact ⟨q, .cons head hq, hr⟩

theorem reverse (h : Chain (fun s p q => step s q p) p ss q) : Chain step q ss.reverse p := by
  induction h with
  | nil => exact .nil _
  | cons head _ ih =>
    rw [List.reverse_cons]
    exact ih.append (single head)

theorem mono (h : Chain step p ss q) (himp : ∀ s p q, step s p q → step' s p q) :
    Chain step' p ss q := by
  induction h with
  | nil => exact .nil _
  | cons head _ ih => exact .cons (himp _ _ _ head) ih

end Chain

/-- A place in two sequences. -/
@[ext] structure Point where
  old : Nat
  new : Nat

namespace Point

def forth (p : Point) (n : Nat) : Point := ⟨p.old + n, p.new + n⟩

def back (p : Point) (n : Nat) : Point := ⟨p.old - n, p.new - n⟩

@[simp] theorem forth_old (p : Point) (n : Nat) : (p.forth n).old = p.old + n := rfl

@[simp] theorem forth_new (p : Point) (n : Nat) : (p.forth n).new = p.new + n := rfl

@[simp] theorem back_old (p : Point) (n : Nat) : (p.back n).old = p.old - n := rfl

@[simp] theorem back_new (p : Point) (n : Nat) : (p.back n).new = p.new - n := rfl

theorem forth_forth (p : Point) (n m : Nat) : (p.forth n).forth m = p.forth (n + m) := by
  ext <;> simp [Nat.add_assoc]

theorem back_forth {p : Point} {n : Nat} (hold : n ≤ p.old) (hnew : n ≤ p.new) :
    (p.back n).forth n = p := by
  ext <;> simp <;> omega

end Point

section

variable {α : Type} {old new : Array α}

/-- Two sequences agree for a number of places. -/
def Common (old new : Array α) (p : Point) (n : Nat) : Prop :=
  ∀ t < n, old[p.old + t]? = new[p.new + t]?

theorem Common.append {p : Point} {n m : Nat} (h : Common old new p n)
    (h' : Common old new (p.forth n) m) : Common old new p (n + m) := by
  intro t ht
  by_cases hn : t < n
  · exact h t hn
  · have hrest := h' (t - n) (by omega)
    simp only [Point.forth_old, Point.forth_new] at hrest
    rwa [show p.old + n + (t - n) = p.old + t by omega,
      show p.new + n + (t - n) = p.new + t by omega] at hrest

theorem Common.take {p : Point} {n m : Nat} (h : Common old new p n) (hm : m ≤ n) :
    Common old new p m := fun t ht => h t (by omega)

theorem Common.drop {p : Point} {n m : Nat} (h : Common old new p n) (hm : m ≤ n) :
    Common old new (p.forth m) (n - m) := by
  intro t ht
  have := h (m + t) (by omega)
  simpa [Nat.add_assoc] using this

private theorem getElem?_extract_toList (xs : Array α) {start stop t : Nat}
    (ht : start + t < stop) :
    (xs.extract start stop).toList[t]? = xs[start + t]? := by
  rw [Array.getElem?_toList, Array.getElem?_extract]
  split
  · rfl
  · rw [Array.getElem?_eq_none]
    omega

variable [BEq α] [LawfulBEq α]

private theorem agreement_le (as bs : List α) :
    agreement as bs ≤ as.length ∧ agreement as bs ≤ bs.length ∧
      ∀ t < agreement as bs, as[t]? = bs[t]? := by
  induction as generalizing bs with
  | nil => simp [agreement]
  | cons a as ih =>
    cases bs with
    | nil => simp [agreement]
    | cons b bs =>
      rw [agreement]
      split
      · rename_i hab
        obtain ⟨has, hbs, hall⟩ := ih bs
        refine ⟨by simpa using has, by simpa using hbs, fun t ht => ?_⟩
        cases t with
        | zero => simpa using hab
        | succ t => simpa using hall t (by omega)
      · simp

theorem commonPrefix_le (old new : Array α) (p q : Range) :
    commonPrefix old new p q ≤ p.length ∧ commonPrefix old new p q ≤ q.length ∧
      Common old new ⟨p.start, q.start⟩ (commonPrefix old new p q) := by
  obtain ⟨hp, hq, hall⟩ := agreement_le (old.extract p.start p.stop).toList
    (new.extract q.start q.stop).toList
  rw [← commonPrefix] at hp hq hall
  simp only [Array.length_toList, Array.size_extract] at hp hq
  refine ⟨by rw [Range.length]; omega, by rw [Range.length]; omega, fun t ht => ?_⟩
  have h := hall t ht
  rwa [getElem?_extract_toList old (by omega), getElem?_extract_toList new (by omega)] at h

private theorem agreement_reverse (old new : Array α) (p q : Range) :
    commonSuffix old new p q ≤ min p.stop old.size - p.start ∧
      commonSuffix old new p q ≤ min q.stop new.size - q.start ∧
      ∀ t < commonSuffix old new p q, (old.extract p.start p.stop).toList.reverse[t]? =
        (new.extract q.start q.stop).toList.reverse[t]? := by
  have h := agreement_le (old.extract p.start p.stop).toList.reverse
    (new.extract q.start q.stop).toList.reverse
  rw [← commonSuffix] at h
  simpa only [List.length_reverse, Array.length_toList, Array.size_extract] using h

theorem commonSuffix_le (old new : Array α) (p q : Range) :
    commonSuffix old new p q ≤ p.length ∧ commonSuffix old new p q ≤ q.length := by
  obtain ⟨hp, hq, _⟩ := agreement_reverse old new p q
  rw [Range.length, Range.length]
  omega

theorem common_suffix (old new : Array α) {p q : Range} (hp : p.stop ≤ old.size)
    (hq : q.stop ≤ new.size) :
    Common old new ⟨p.stop - commonSuffix old new p q, q.stop - commonSuffix old new p q⟩
      (commonSuffix old new p q) := by
  obtain ⟨hp', hq', hall⟩ := agreement_reverse old new p q
  intro t ht
  have h := hall (commonSuffix old new p q - 1 - t) (by omega)
  rw [List.getElem?_reverse (by simp; omega), List.getElem?_reverse (by simp; omega),
    getElem?_extract_toList old (by simp; omega), getElem?_extract_toList new (by simp; omega)] at h
  simp only [Array.length_toList, Array.size_extract] at h
  rwa [show p.start + (min p.stop old.size - p.start - 1 - (commonSuffix old new p q - 1 - t)) =
      p.stop - commonSuffix old new p q + t by omega,
    show q.start + (min q.stop new.size - q.start - 1 - (commonSuffix old new p q - 1 - t)) =
      q.stop - commonSuffix old new p q + t by omega] at h

end

section

variable {α : Type} {old new : Array α}

/-- A run leads from a place to another one: an equal run along what is common, and a change along
what it takes out or puts in. -/
def Run.Leads (old new : Array α) (r : Run) (p q : Point) : Prop :=
  match r.kind with
  | .equal => r.old = p.old ∧ r.new = p.new ∧ r.newLength = r.oldLength ∧
      Common old new p r.oldLength ∧ q = p.forth r.oldLength
  | .delete => r.old = p.old ∧ r.newLength = 0 ∧ 0 < r.oldLength ∧
      q = ⟨p.old + r.oldLength, p.new⟩
  | .insert => r.new = p.new ∧ r.oldLength = 0 ∧ 0 < r.newLength ∧
      q = ⟨p.old, p.new + r.newLength⟩
  | .replace => r.old = p.old ∧ r.new = p.new ∧ 0 < r.oldLength ∧ 0 < r.newLength ∧
      q = ⟨p.old + r.oldLength, p.new + r.newLength⟩

/-- A run that leads on and is not joined yet. -/
def Run.Steps (old new : Array α) (r : Run) (p q : Point) : Prop :=
  r.Leads old new p q ∧ r.kind ≠ .replace

theorem Run.Leads.le {r : Run} {p q : Point} (h : r.Leads old new p q) :
    p.old ≤ q.old ∧ p.new ≤ q.new := by
  rw [Leads] at h
  split at h <;> simp_all

theorem Chain.le {rs : List Run} {p q : Point} (h : Chain (Run.Leads old new) p rs q) :
    p.old ≤ q.old ∧ p.new ≤ q.new := by
  induction h with
  | nil => exact ⟨Nat.le_refl _, Nat.le_refl _⟩
  | cons head _ ih =>
    have := head.le
    omega

theorem steps_equal {p : Point} {n : Nat} (h : Common old new p n) :
    (Run.equal p.old p.new n).Steps old new p (p.forth n) :=
  ⟨⟨rfl, rfl, rfl, h, rfl⟩, by simp [Run.equal]⟩

variable (old new) in
private theorem steps_delete (p : Point) (place : Nat) {n : Nat} (h : 0 < n) :
    (Run.delete p.old n place).Steps old new p ⟨p.old + n, p.new⟩ :=
  ⟨⟨rfl, rfl, h, rfl⟩, by simp [Run.delete]⟩

variable (old new) in
private theorem steps_insert (p : Point) (place : Nat) {n : Nat} (h : 0 < n) :
    (Run.insert place p.new n).Steps old new p ⟨p.old, p.new + n⟩ :=
  ⟨⟨rfl, rfl, h, rfl⟩, by simp [Run.insert]⟩

variable (old new) in
private theorem changes_chain {p q : Range} (hp : p.start ≤ p.stop) (hq : q.start ≤ q.stop) :
    Chain (Run.Steps old new) ⟨p.start, q.start⟩ (changes p q) ⟨p.stop, q.stop⟩ := by
  have hold : Chain (Run.Steps old new) ⟨p.start, q.start⟩
      (if p.isEmpty then [] else [.delete p.start p.length q.start]) ⟨p.stop, q.start⟩ := by
    rw [Range.isEmpty]
    split
    · rename_i h
      rw [decide_eq_true_iff] at h
      rw [Nat.le_antisymm hp h]
      exact .nil _
    · rename_i h
      rw [decide_eq_true_iff] at h
      have hstep := steps_delete old new ⟨p.start, q.start⟩ q.start
        (n := p.length) (by rw [Range.length]; omega)
      rw [Range.length, Nat.add_sub_cancel' hp] at hstep
      exact .single hstep
  refine hold.append ?_
  rw [Range.isEmpty]
  split
  · rename_i h
    rw [decide_eq_true_iff] at h
    rw [Nat.le_antisymm hq h]
    exact .nil _
  · rename_i h
    rw [decide_eq_true_iff] at h
    have hstep := steps_insert old new ⟨p.stop, q.start⟩ p.start
      (n := q.length) (by rw [Range.length]; omega)
    rw [Range.length, Nat.add_sub_cancel' hq] at hstep
    exact .single hstep

private theorem common_chain {p : Point} {n : Nat} (h : Common old new p n) :
    Chain (Run.Steps old new) p (if 0 < n then [Run.equal p.old p.new n] else []) (p.forth n) := by
  split
  · exact .single (steps_equal h)
  · obtain rfl : n = 0 := by omega
    exact .nil _

variable [BEq α] [LawfulBEq α]

private theorem compareRanges_chain (depth : Nat) {p q : Range} (r : Reach) (hp : p.start ≤ p.stop)
    (hq : q.start ≤ q.stop) (hold : p.stop ≤ old.size) (hnew : q.stop ≤ new.size) :
    Chain (Run.Steps old new) ⟨p.start, q.start⟩ (compareRanges old new depth p q r).1
      ⟨p.stop, q.stop⟩ := by
  induction depth generalizing p q r with
  | zero => exact changes_chain old new hp hq
  | succ depth ih =>
    rw [compareRanges]
    obtain ⟨hheadp, hheadq, hhead⟩ := commonPrefix_le old new p q
    generalize commonPrefix old new p q = head at *
    rw [Range.length] at hheadp hheadq
    obtain ⟨htailp, htailq⟩ := commonSuffix_le old new ⟨p.start + head, p.stop⟩
      ⟨q.start + head, q.stop⟩
    have htail := common_suffix old new (p := ⟨p.start + head, p.stop⟩)
      (q := ⟨q.start + head, q.stop⟩) hold hnew
    generalize commonSuffix old new ⟨p.start + head, p.stop⟩ ⟨q.start + head, q.stop⟩ = tail at *
    simp only [Range.length] at htailp htailq
    have hbefore := common_chain hhead
    have hafter := common_chain htail
    have hend : (Point.mk (p.stop - tail) (q.stop - tail)).forth tail = ⟨p.stop, q.stop⟩ := by
      ext <;> simp <;> omega
    rw [hend] at hafter
    refine (hbefore.append ?_).append hafter
    have hp' : p.start + head ≤ p.stop - tail := by omega
    have hq' : q.start + head ≤ q.stop - tail := by omega
    have hchanges := changes_chain old new (p := ⟨p.start + head, p.stop - tail⟩)
      (q := ⟨q.start + head, q.stop - tail⟩) hp' hq'
    dsimp only
    split
    · exact hchanges
    · split
      · rename_i x y r' _
        split
        · rename_i hparts
          simp only [Range.partsAt, Bool.and_eq_true, decide_eq_true_eq] at hparts
          exact (ih (p := ⟨_, x⟩) (q := ⟨_, y⟩) r' (by simp; omega) (by simp; omega)
            (by simp; omega) (by simp; omega)).append
            (ih (p := ⟨x, _⟩) (q := ⟨y, _⟩) _ (by simp; omega) (by simp; omega) (by simp; omega)
              (by simp; omega))
        · exact hchanges
      · exact hchanges

/-- The runs of two sequences lead through both of them. -/
theorem script_chain (old new : Array α) :
    Chain (Run.Steps old new) ⟨0, 0⟩ (script old new) ⟨old.size, new.size⟩ :=
  compareRanges_chain _ _ (p := ⟨0, _⟩) (q := ⟨0, _⟩) (Nat.zero_le _) (Nat.zero_le _)
    (Nat.le_refl _) (Nat.le_refl _)

end

end RepairSearch.Diff
