import RepairSearch.Diff.Slide
import RepairSearch.Proofs.Diff.Script

/-!
# Slides

A change that slides along an equal run gives lines to the run on one side and takes the same lines
from that on the other side, so that the runs still lead through both sequences. So they do when a
deletion and an insertion change places, and when runs are joined.
-/

namespace RepairSearch.Diff

namespace Run

variable {α : Type} {old new : Array α} {r r' : Run} {p q e : Point} {n : Nat}

theorem leads_of_equal (hk : r.kind = .equal) : r.Leads old new p q ↔
    r.old = p.old ∧ r.new = p.new ∧ r.newLength = r.oldLength ∧ Common old new p r.oldLength ∧
      q = p.forth r.oldLength := by
  simp only [Leads, hk]

theorem leads_of_delete (hk : r.kind = .delete) : r.Leads old new p q ↔
    r.old = p.old ∧ r.newLength = 0 ∧ 0 < r.oldLength ∧ q = ⟨p.old + r.oldLength, p.new⟩ := by
  simp only [Leads, hk]

theorem leads_of_insert (hk : r.kind = .insert) : r.Leads old new p q ↔
    r.new = p.new ∧ r.oldLength = 0 ∧ 0 < r.newLength ∧ q = ⟨p.old, p.new + r.newLength⟩ := by
  simp only [Leads, hk]

theorem leads_of_replace (hk : r.kind = .replace) : r.Leads old new p q ↔
    r.old = p.old ∧ r.new = p.new ∧ 0 < r.oldLength ∧ 0 < r.newLength ∧
      q = ⟨p.old + r.oldLength, p.new + r.newLength⟩ := by
  simp only [Leads, hk]

namespace Leads

variable {s : Run}

private theorem equal_equal (h : r.Leads old new p q) (hr : r.kind = .equal)
    (h' : s.Leads old new q e) (hs : s.kind = .equal) :
    (Run.equal r.old r.new (r.oldLength + s.oldLength)).Leads old new p e := by
  obtain ⟨hold, hnew, _, hcommon, rfl⟩ := (leads_of_equal hr).mp h
  obtain ⟨_, _, _, hcommon', rfl⟩ := (leads_of_equal hs).mp h'
  refine (leads_of_equal rfl).mpr ⟨hold, hnew, rfl, hcommon.append hcommon', ?_⟩
  ext <;> simp [Run.equal, Nat.add_assoc]

private theorem delete_delete (h : r.Leads old new p q) (hr : r.kind = .delete)
    (h' : s.Leads old new q e) (hs : s.kind = .delete) :
    (Run.delete r.old (r.oldLength + s.oldLength) r.new).Leads old new p e := by
  obtain ⟨hold, _, hpos, rfl⟩ := (leads_of_delete hr).mp h
  obtain ⟨_, _, _, rfl⟩ := (leads_of_delete hs).mp h'
  refine (leads_of_delete rfl).mpr ⟨hold, rfl, Nat.add_pos_left hpos _, ?_⟩
  ext <;> simp [Run.delete, Nat.add_assoc]

private theorem insert_insert (h : r.Leads old new p q) (hr : r.kind = .insert)
    (h' : s.Leads old new q e) (hs : s.kind = .insert) :
    (Run.insert r.old r.new (r.newLength + s.newLength)).Leads old new p e := by
  obtain ⟨hnew, _, hpos, rfl⟩ := (leads_of_insert hr).mp h
  obtain ⟨_, _, _, rfl⟩ := (leads_of_insert hs).mp h'
  refine (leads_of_insert rfl).mpr ⟨hnew, rfl, Nat.add_pos_left hpos _, ?_⟩
  ext <;> simp [Run.insert, Nat.add_assoc]

private theorem delete_insert (h : r.Leads old new p q) (hr : r.kind = .delete)
    (h' : s.Leads old new q e) (hs : s.kind = .insert) :
    (⟨.replace, r.old, r.oldLength, s.new, s.newLength⟩ : Run).Leads old new p e := by
  obtain ⟨hold, _, hpos, rfl⟩ := (leads_of_delete hr).mp h
  obtain ⟨hnew, _, hpos', rfl⟩ := (leads_of_insert hs).mp h'
  exact (leads_of_replace rfl).mpr ⟨hold, hnew, hpos, hpos', rfl⟩

private theorem insert_delete (h : r.Leads old new p q) (hr : r.kind = .insert)
    (h' : s.Leads old new q e) (hs : s.kind = .delete) :
    (⟨.replace, s.old, s.oldLength, r.new, r.newLength⟩ : Run).Leads old new p e := by
  obtain ⟨hnew, _, hpos, rfl⟩ := (leads_of_insert hr).mp h
  obtain ⟨hold, _, hpos', rfl⟩ := (leads_of_delete hs).mp h'
  exact (leads_of_replace rfl).mpr ⟨hold, hnew, hpos', hpos, rfl⟩

private theorem delete_replace (h : r.Leads old new p q) (hr : r.kind = .delete)
    (h' : s.Leads old new q e) (hs : s.kind = .replace) :
    (⟨.replace, r.old, r.oldLength + s.oldLength, s.new, s.newLength⟩ : Run).Leads old new p e := by
  obtain ⟨hold, _, hpos, rfl⟩ := (leads_of_delete hr).mp h
  obtain ⟨_, hnew, _, hpos', rfl⟩ := (leads_of_replace hs).mp h'
  refine (leads_of_replace rfl).mpr ⟨hold, hnew, Nat.add_pos_left hpos _, hpos', ?_⟩
  ext <;> simp [Nat.add_assoc]

private theorem insert_replace (h : r.Leads old new p q) (hr : r.kind = .insert)
    (h' : s.Leads old new q e) (hs : s.kind = .replace) :
    (⟨.replace, s.old, s.oldLength, r.new, r.newLength + s.newLength⟩ : Run).Leads old new p e := by
  obtain ⟨hnew, _, hpos, rfl⟩ := (leads_of_insert hr).mp h
  obtain ⟨hold, _, hpos', _, rfl⟩ := (leads_of_replace hs).mp h'
  refine (leads_of_replace rfl).mpr ⟨hold, hnew, hpos', Nat.add_pos_left hpos _, ?_⟩
  ext <;> simp [Nat.add_assoc]

end Leads

/-- What takes out or puts in, and does not do both. -/
def IsChange (r : Run) : Prop := r.kind = .delete ∨ r.kind = .insert

private theorem isChange_of_steps (h : r.Steps old new p q) (hk : r.kind ≠ .equal) :
    r.IsChange := by
  cases hkind : r.kind with
  | equal => exact absurd hkind hk
  | delete => exact .inl hkind
  | insert => exact .inr hkind
  | replace => exact absurd hkind h.2

private theorem IsChange.ne_equal (h : r.IsChange) : r.kind ≠ .equal := by
  rcases h with h | h <;> simp [h]

private theorem kind_longer (r : Run) (n : Nat) : (r.longer n).kind = r.kind := by
  rw [Run.longer]
  split <;> rfl

private theorem Steps.shorter (h : r.Steps old new p q) (hk : r.kind = .equal)
    (hn : n ≤ r.oldLength) :
    (r.shorter n).Steps old new p (q.back n) := by
  obtain ⟨hold, hnew, hlength, hcommon, rfl⟩ := (leads_of_equal hk).mp h.1
  refine ⟨(leads_of_equal (r := r.shorter n) hk).mpr
    ⟨hold, hnew, ?_, hcommon.take (Nat.sub_le _ _), ?_⟩, h.2⟩
  · simp [Run.shorter, hlength]
  · ext <;> simp [Run.shorter] <;> omega

private theorem Steps.shorter_later (h : r.Steps old new p q) (hk : r.kind = .equal)
    (hn : n ≤ r.oldLength) : ((r.shorter n).later n).Steps old new (p.forth n) q := by
  obtain ⟨hold, hnew, hlength, hcommon, rfl⟩ := (leads_of_equal hk).mp h.1
  refine ⟨(leads_of_equal (r := (r.shorter n).later n) hk).mpr
    ⟨?_, ?_, ?_, hcommon.drop hn, ?_⟩, h.2⟩
  · simp [Run.shorter, Run.later, hold]
  · simp [Run.shorter, Run.later, hnew]
  · simp [Run.shorter, Run.later, hlength]
  · ext <;> simp [Run.shorter, Run.later] <;> omega

private theorem Steps.longer (h : r.Steps old new p q) (hk : r.kind = .equal)
    (hn : Common old new q n) :
    (r.longer n).Steps old new p (q.forth n) := by
  obtain ⟨_, _, hlength, _⟩ := (leads_of_equal hk).mp h.1
  have hlonger : r.longer n = equal r.old r.new (r.oldLength + n) := by
    simp [Run.longer, hk, equal, hlength]
  rw [hlonger]
  exact ⟨h.1.equal_equal hk (steps_equal hn).1 rfl, by simp [equal]⟩

private theorem Steps.longer_earlier (h : r.Steps old new q e) (hk : r.kind = .equal)
    (hold : n ≤ q.old) (hnew : n ≤ q.new) (hn : Common old new (q.back n) n) :
    ((r.longer n).earlier n).Steps old new (q.back n) e := by
  obtain ⟨hrold, hrnew, hlength, _⟩ := (leads_of_equal hk).mp h.1
  have hlonger : (r.longer n).earlier n =
      equal (q.old - n) (q.new - n) (n + r.oldLength) := by
    simp [Run.longer, Run.earlier, hk, equal, hlength, hrold, hrnew, Nat.add_comm]
  have hbefore := steps_equal hn
  rw [Point.back_forth hold hnew] at hbefore
  rw [hlonger]
  exact ⟨hbefore.1.equal_equal rfl h.1 hk, by simp [equal]⟩

private theorem Steps.earlier (h : r.Steps old new p q) (hk : r.IsChange) (hold : n ≤ p.old)
    (hnew : n ≤ p.new) : (r.earlier n).Steps old new (p.back n) (q.back n) := by
  refine ⟨?_, h.2⟩
  rcases hk with hk | hk
  · obtain ⟨hrold, hzero, hpos, rfl⟩ := (leads_of_delete hk).mp h.1
    refine (leads_of_delete (r := r.earlier n) hk).mpr
      ⟨by simp [Run.earlier, hrold], hzero, hpos, ?_⟩
    ext <;> simp [Run.earlier]
    omega
  · obtain ⟨hrnew, hzero, hpos, rfl⟩ := (leads_of_insert hk).mp h.1
    refine (leads_of_insert (r := r.earlier n) hk).mpr
      ⟨by simp [Run.earlier, hrnew], hzero, hpos, ?_⟩
    ext <;> simp [Run.earlier]
    omega

private theorem Steps.later (h : r.Steps old new p q) (hk : r.IsChange) (n : Nat) :
    (r.later n).Steps old new (p.forth n) (q.forth n) := by
  refine ⟨?_, h.2⟩
  rcases hk with hk | hk
  · obtain ⟨hrold, hzero, hpos, rfl⟩ := (leads_of_delete hk).mp h.1
    refine (leads_of_delete (r := r.later n) hk).mpr ⟨by simp [Run.later, hrold], hzero, hpos, ?_⟩
    ext <;> simp [Run.later]
    omega
  · obtain ⟨hrnew, hzero, hpos, rfl⟩ := (leads_of_insert hk).mp h.1
    refine (leads_of_insert (r := r.later n) hk).mpr ⟨by simp [Run.later, hrnew], hzero, hpos, ?_⟩
    ext <;> simp [Run.later]
    omega

private theorem Steps.merge (h : r.Steps old new p q) (h' : r'.Steps old new q e) (hk : r.IsChange)
    (hkind : r'.kind = r.kind) : (r.longer r'.changed).Steps old new p e := by
  rcases hk with hk | hk
  · have hk' := hkind.trans hk
    obtain ⟨_, hzero, _⟩ := (leads_of_delete hk).mp h.1
    have hlonger : r.longer r'.changed = delete r.old (r.oldLength + r'.oldLength) r.new := by
      simp [Run.longer, Run.changed, hk, hk', delete, hzero]
    rw [hlonger]
    exact ⟨h.1.delete_delete hk h'.1 hk', by simp [delete]⟩
  · have hk' := hkind.trans hk
    obtain ⟨_, hzero, _⟩ := (leads_of_insert hk).mp h.1
    have hlonger : r.longer r'.changed = insert r.old r.new (r.newLength + r'.newLength) := by
      simp [Run.longer, Run.changed, hk, hk', insert, hzero]
    rw [hlonger]
    exact ⟨h.1.insert_insert hk h'.1 hk', by simp [insert]⟩

private theorem Steps.swap (h : r.Steps old new p q) (h' : r'.Steps old new q e) (hk : r.IsChange)
    (hk' : r'.IsChange) (hkind : r.kind ≠ r'.kind) :
    ∃ m, r'.Steps old new p m ∧ r.Steps old new m e := by
  rcases hk with hk | hk <;> rcases hk' with hk' | hk'
  · exact absurd (hk.trans hk'.symm) hkind
  · obtain ⟨hrold, hzero, hpos, rfl⟩ := (leads_of_delete hk).mp h.1
    obtain ⟨hrnew, hzero', hpos', rfl⟩ := (leads_of_insert hk').mp h'.1
    exact ⟨⟨p.old, p.new + r'.newLength⟩,
      ⟨(leads_of_insert hk').mpr ⟨hrnew, hzero', hpos', rfl⟩, h'.2⟩,
      ⟨(leads_of_delete hk).mpr ⟨hrold, hzero, hpos, rfl⟩, h.2⟩⟩
  · obtain ⟨hrnew, hzero, hpos, rfl⟩ := (leads_of_insert hk).mp h.1
    obtain ⟨hrold, hzero', hpos', rfl⟩ := (leads_of_delete hk').mp h'.1
    exact ⟨⟨p.old + r'.oldLength, p.new⟩,
      ⟨(leads_of_delete hk').mpr ⟨hrold, hzero', hpos', rfl⟩, h'.2⟩,
      ⟨(leads_of_insert hk).mpr ⟨hrnew, hzero, hpos, rfl⟩, h.2⟩⟩
  · exact absurd (hk.trans hk'.symm) hkind

end Run

section

variable {α : Type} {old new : Array α}

/-- The runs above a change lead to it from a first place, and those below it to a last one. -/
structure Site.Leads (old new : Array α) (s : Site) (first p q last : Point) : Prop where
  above : Chain (fun r p q => r.Steps old new q p) p s.above first
  change : s.change.Steps old new p q
  below : Chain (Run.Steps old new) q s.below last
  isChange : s.change.IsChange

private theorem Chain.steps_le {rs : List Run} {p q : Point}
    (h : Chain (Run.Steps old new) p rs q) :
    p.old ≤ q.old ∧ p.new ≤ q.new := (h.mono fun _ _ _ h => h.1).le

variable {first p q last : Point}

private theorem onTop_chain {n : Nat} {below : List Run} (hold : n ≤ q.old) (hnew : n ≤ q.new)
    (hn : Common old new (q.back n) n) (hbelow : Chain (Run.Steps old new) q below last) :
    Chain (Run.Steps old new) (q.back n) ((Run.equal (q.old - n) (q.new - n) n).onTop below)
      last := by
  have hstep := steps_equal hn
  rw [Point.back_forth hold hnew] at hstep
  cases hbelow with
  | nil => exact .single hstep
  | cons head tail =>
    rw [Run.onTop]
    split
    · rename_i hequal
      exact .cons (head.longer_earlier hequal hold hnew hn) tail
    · exact .cons hstep (.cons head tail)

private theorem underneath_chain {n : Nat} {above : List Run} (hn : Common old new p n)
    (habove : Chain (fun r p q => r.Steps old new q p) p above first) :
    Chain (fun r p q => r.Steps old new q p) (p.forth n)
      ((Run.equal p.old p.new n).underneath above) first := by
  have hstep := steps_equal hn
  cases habove with
  | nil => exact .single hstep
  | cons head tail =>
    rw [Run.underneath]
    split
    · rename_i hequal
      exact .cons (head.longer hequal hn) tail
    · exact .cons hstep (.cons head tail)

namespace Site.Leads

variable {above below : List Run} {r change : Run} {n : Nat}

private theorem isInsert (h : Site.Leads old new ⟨above, change, below⟩ first p q last)
    (hn : n ≤ change.newRange.length) (hpos : 0 < n) : change.kind = .insert := by
  refine h.isChange.resolve_left fun hdelete => ?_
  obtain ⟨_, hzero, _⟩ := (Run.leads_of_delete hdelete).mp h.change.1
  simp only [Run.newRange, Range.length, Run.newEnd] at hn
  dsimp only at hzero
  omega

private theorem le_last (h : Site.Leads old new ⟨above, change, below⟩ first p q last) :
    p.old ≤ last.old ∧ p.new ≤ last.new ∧ q.old ≤ last.old ∧ q.new ≤ last.new := by
  have hchange := h.change.1.le
  have hbelow := h.below.steps_le
  omega

private theorem dropAbove (h : Site.Leads old new ⟨r :: above, change, below⟩ first p q last)
    (hequal : r.kind = .equal) (hzero : r.oldLength = 0) :
    Site.Leads old new ⟨above, change, below⟩ first p q last := by
  obtain ⟨habove, hchange, hbelow, hk⟩ := h
  dsimp only at habove hchange
  cases habove with
  | @cons _ _ _ o _ head tail =>
    obtain ⟨_, _, _, _, rfl⟩ := (Run.leads_of_equal hequal).mp head.1
    have hsame : o.forth r.oldLength = o := by rw [hzero]; rfl
    rw [hsame] at hchange ⊢
    exact ⟨tail, hchange, hbelow, hk⟩

private theorem dropBelow (h : Site.Leads old new ⟨above, change, r :: below⟩ first p q last)
    (hequal : r.kind = .equal) (hzero : r.oldLength = 0) :
    Site.Leads old new ⟨above, change, below⟩ first p q last := by
  obtain ⟨habove, hchange, hbelow, hk⟩ := h
  dsimp only at hbelow
  cases hbelow with
  | cons head tail =>
    obtain ⟨_, _, _, _, rfl⟩ := (Run.leads_of_equal hequal).mp head.1
    rw [hzero] at tail
    exact ⟨habove, hchange, tail, hk⟩

private theorem mergeAbove (h : Site.Leads old new ⟨r :: above, change, below⟩ first p q last)
    (hkind : r.kind = change.kind) :
    ∃ p', Site.Leads old new ⟨above, r.longer change.changed, below⟩ first p' q last := by
  obtain ⟨habove, hchange, hbelow, hk⟩ := h
  dsimp only at habove hchange
  cases habove with
  | @cons _ _ _ o _ head tail =>
    have hr : r.IsChange := by rwa [Run.IsChange, hkind]
    have hmerged := head.merge hchange hr hkind.symm
    refine ⟨o, tail, hmerged, hbelow, ?_⟩
    exact Run.isChange_of_steps hmerged (Run.kind_longer r _ ▸ hr.ne_equal)

private theorem mergeBelow (h : Site.Leads old new ⟨above, change, r :: below⟩ first p q last)
    (hkind : r.kind = change.kind) :
    ∃ q', Site.Leads old new ⟨above, change.longer r.changed, below⟩ first p q' last := by
  obtain ⟨habove, hchange, hbelow, hk⟩ := h
  dsimp only at hbelow hchange hk
  cases hbelow with
  | @cons _ _ _ o _ head tail =>
    have hmerged := hchange.merge head hk hkind
    refine ⟨o, habove, hmerged, tail, ?_⟩
    exact Run.isChange_of_steps hmerged (Run.kind_longer change _ ▸ hk.ne_equal)

private theorem swapAbove (h : Site.Leads old new ⟨r :: above, change, below⟩ first p q last)
    (hequal : r.kind ≠ .equal) (hkind : r.kind ≠ change.kind) :
    ∃ p' q', Site.Leads old new ⟨above, change, r :: below⟩ first p' q' last := by
  obtain ⟨habove, hchange, hbelow, hk⟩ := h
  dsimp only at habove hchange
  cases habove with
  | @cons _ _ _ o _ head tail =>
    obtain ⟨m, hfirst, hsecond⟩ :=
      head.swap hchange (Run.isChange_of_steps head hequal) hk hkind
    exact ⟨o, m, tail, hfirst, .cons hsecond hbelow, hk⟩

private theorem swapBelow (h : Site.Leads old new ⟨above, change, r :: below⟩ first p q last)
    (hequal : r.kind ≠ .equal) (hkind : r.kind ≠ change.kind) :
    ∃ p' q', Site.Leads old new ⟨r :: above, change, below⟩ first p' q' last := by
  obtain ⟨habove, hchange, hbelow, hk⟩ := h
  dsimp only at hbelow hchange
  cases hbelow with
  | @cons _ _ _ o _ head tail =>
    obtain ⟨m, hfirst, hsecond⟩ :=
      hchange.swap head hk (Run.isChange_of_steps head hequal) (Ne.symm hkind)
    exact ⟨m, o, .cons hfirst habove, hsecond, tail, hk⟩

variable [BEq α] [LawfulBEq α]

private theorem moveUp (h : Site.Leads old new ⟨r :: above, change, below⟩ first p q last)
    (hold : last.old ≤ old.size) (hnew : last.new ≤ new.size) (hequal : r.kind = .equal)
    (hn : n = commonSuffix old new r.oldRange change.newRange) (hpos : 0 < n) :
    Site.Leads old new ⟨r.shorter n :: above, change.earlier n,
      (Run.equal (r.oldEnd - n) (change.newEnd - n) n).onTop below⟩ first (p.back n) (q.back n)
      last := by
  obtain ⟨hnr, hnchange⟩ := commonSuffix_le old new r.oldRange change.newRange
  rw [← hn] at hnr hnchange
  -- a deletion has no new lines, so it has none in common with the run above
  have hinsert := h.isInsert hnchange hpos
  have hle := h.le_last
  obtain ⟨habove, hchange, hbelow, hk⟩ := h
  dsimp only at habove hchange hbelow hk
  obtain ⟨hcnew, _, _, rfl⟩ := (Run.leads_of_insert hinsert).mp hchange.1
  cases habove with
  | @cons _ _ _ o _ head tail =>
    obtain ⟨hrold, hrnew, hlength, _, rfl⟩ := (Run.leads_of_equal hequal).mp head.1
    simp only [Point.forth_old, Point.forth_new] at hle hcnew
    have hrEnd : r.oldEnd = o.old + r.oldLength := by rw [Run.oldEnd, hrold]
    have hcEnd : change.newEnd = o.new + r.oldLength + change.newLength := by
      rw [Run.newEnd, hcnew]
    have hnr : n ≤ r.oldLength := by
      rw [Run.oldRange, Range.length, Run.oldEnd] at hnr
      dsimp only at hnr
      omega
    have hcommon := common_suffix old new (p := r.oldRange) (q := change.newRange)
      (by rw [Run.oldRange, hrEnd]; dsimp only; omega)
      (by rw [Run.newRange, hcEnd]; dsimp only; omega)
    rw [← hn] at hcommon
    simp only [Run.oldRange, Run.newRange, hrEnd, hcEnd] at hcommon
    refine ⟨.cons (head.shorter hequal hnr) tail, ?_, ?_, hk⟩
    · exact hchange.earlier hk (by simp; omega) (by simp; omega)
    · rw [hrEnd, hcEnd]
      exact onTop_chain (by simp; omega) (by simp; omega) hcommon hbelow

private theorem moveDown (h : Site.Leads old new ⟨above, change, r :: below⟩ first p q last)
    (hequal : r.kind = .equal) (hn : n = commonPrefix old new r.oldRange change.newRange)
    (hpos : 0 < n) :
    Site.Leads old new ⟨(Run.equal r.old change.new n).underneath above, change.later n,
      (r.shorter n).later n :: below⟩ first (p.forth n) (q.forth n) last := by
  obtain ⟨hnr, hnchange, hcommon⟩ := commonPrefix_le old new r.oldRange change.newRange
  rw [← hn] at hnr hnchange hcommon
  have hinsert := h.isInsert hnchange hpos
  obtain ⟨habove, hchange, hbelow, hk⟩ := h
  dsimp only at habove hchange hbelow hk
  obtain ⟨hcnew, _, _, rfl⟩ := (Run.leads_of_insert hinsert).mp hchange.1
  cases hbelow with
  | cons head tail =>
    obtain ⟨hrold, _⟩ := (Run.leads_of_equal hequal).mp head.1
    have hnr : n ≤ r.oldLength := by
      rw [Run.oldRange, Range.length, Run.oldEnd] at hnr
      dsimp only at hnr
      omega
    simp only [Run.oldRange, Run.newRange, hrold, hcnew] at hcommon
    refine ⟨?_, hchange.later hk n, .cons (head.shorter_later hequal hnr) tail, hk⟩
    rw [hrold, hcnew]
    exact underneath_chain hcommon habove

end Site.Leads

section

variable [BEq α] [LawfulBEq α] {above below : List Run} {r change : Run}

private theorem up_leads (h : Site.Leads old new ⟨above, change, below⟩ first p q last)
    (hold : last.old ≤ old.size) (hnew : last.new ≤ new.size) :
    ∃ p' q', (up old new above change below).Leads old new first p' q' last := by
  fun_induction up old new above change below generalizing p q with
  | case1 => exact ⟨p, q, h⟩
  | case2 change below r rest hequal n hn =>
    rename_i ih
    exact ih (h.moveUp hold hnew hequal rfl hn.1)
  | case3 change below r rest hequal n hn hzero =>
    rename_i ih
    exact ih (h.dropAbove hequal hzero)
  | case4 => exact ⟨p, q, h⟩
  | case5 change below r rest hequal hkind ih =>
    obtain ⟨p', h'⟩ := h.mergeAbove hkind
    exact ih h'
  | case6 change below r rest hequal hkind ih =>
    obtain ⟨p', q', h'⟩ := h.swapAbove hequal hkind
    exact ih h'

private theorem down_leads (h : Site.Leads old new ⟨above, change, below⟩ first p q last) :
    ∃ p' q', (down old new above change below).Leads old new first p' q' last := by
  fun_induction down old new above change below generalizing p q with
  | case1 => exact ⟨p, q, h⟩
  | case2 above change r rest hequal n hn =>
    rename_i ih
    exact ih (h.moveDown hequal rfl hn.1)
  | case3 above change r rest hequal n hn hzero =>
    rename_i ih
    exact ih (h.dropBelow hequal hzero)
  | case4 => exact ⟨p, q, h⟩
  | case5 above change r rest hequal hkind ih =>
    obtain ⟨q', h'⟩ := h.mergeBelow hkind
    exact ih h'
  | case6 above change r rest hequal hkind ih =>
    obtain ⟨p', q', h'⟩ := h.swapBelow hequal hkind
    exact ih h'

private theorem slideKind_chain {kind : Kind} (hkind : kind = .delete ∨ kind = .insert)
    (steps : Nat)
    {above below : List Run} (habove : Chain (fun r p q => r.Steps old new q p) p above first)
    (hbelow : Chain (Run.Steps old new) p below last)
    (hold : last.old ≤ old.size) (hnew : last.new ≤ new.size) :
    Chain (Run.Steps old new) first (slideKind old new kind steps above below) last := by
  fun_induction slideKind old new kind steps above below generalizing p with
  | case1 above below => exact habove.reverse.append hbelow
  | case2 above steps =>
    cases hbelow
    exact habove.reverse
  | case3 steps above r below hr s =>
    rename_i ih
    cases hbelow with
    | cons head tail =>
      have hr' : r.IsChange := by rwa [Run.IsChange, hr]
      obtain ⟨p₁, q₁, h₁⟩ := up_leads ⟨habove, head, tail, hr'⟩ hold hnew
      obtain ⟨p₂, q₂, h₂⟩ := down_leads h₁
      exact ih (.cons h₂.change h₂.above) h₂.below
  | case4 steps above r below hr ih =>
    cases hbelow with
    | cons head tail => exact ih (.cons head habove) tail

/-- After all slides the runs still lead through both sequences. -/
theorem slide_chain {rs : List Run} (h : Chain (Run.Steps old new) first rs last)
    (hold : last.old ≤ old.size) (hnew : last.new ≤ new.size) :
    Chain (Run.Steps old new) first (slide old new rs) last :=
  slideKind_chain (.inr rfl) _ (.nil first)
    (slideKind_chain (.inl rfl) _ (.nil first) h hold hnew) hold hnew

end

end

section

variable {α : Type} {old new : Array α}

/-- Joined runs lead through the sequences as before. -/
theorem join_chain {rs : List Run} {p q : Point} (h : Chain (Run.Steps old new) p rs q) :
    Chain (Run.Leads old new) p (join rs) q := by
  induction h with
  | nil => exact .nil _
  | @cons r rs p q e head _ ih =>
    rw [join]
    generalize join rs = joined at ih
    cases ih with
    | nil => exact .single head.1
    | @cons s ss _ m _ next tail =>
      dsimp only
      -- one case for each line of `join`, of which the last one leaves the runs as they are
      split
      all_goals rename_i hr hs
      · exact .cons (head.1.equal_equal hr next hs) tail
      · exact .cons (head.1.delete_delete hr next hs) tail
      · exact .cons (head.1.insert_insert hr next hs) tail
      · exact .cons (head.1.delete_insert hr next hs) tail
      · exact .cons (head.1.insert_delete hr next hs) tail
      · exact .cons (head.1.delete_replace hr next hs) tail
      · exact .cons (head.1.insert_replace hr next hs) tail
      · exact .cons head.1 (.cons next tail)

end

end RepairSearch.Diff
