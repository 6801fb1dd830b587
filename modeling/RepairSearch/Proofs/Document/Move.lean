import Mathlib.Data.List.Induction
import RepairSearch.Document.Splice
import RepairSearch.Proofs.Text.Line

/-!
# Ranges under splices

A splice moves the two ends of a range by two monotone maps, which agree outside of what it
replaces. Order and nesting of ranges therefore survive any number of splices, and so does the text
of a range that a splice does not touch.
-/

namespace RepairSearch

namespace Span

/-- One range inside another. -/
def Within (p q : Span) : Prop := q.start ≤ p.start ∧ p.stop ≤ q.stop

end Span

namespace Splice

/-- Where the start of a range goes. -/
def moveStart (s : Splice) (x : Nat) : Nat :=
  if x < s.start then x
  else if x < s.stop then s.start + s.text.length
  else x - (s.stop - s.start) + s.text.length

/-- Where the end of a range goes. -/
def moveStop (s : Splice) (y : Nat) : Nat :=
  if y ≤ s.start then y
  else if y ≤ s.stop then s.start + s.text.length
  else y - (s.stop - s.start) + s.text.length

/-- Whether a splice replaces the whole of a range. -/
def Covers (s : Splice) (p : Span) : Prop :=
  s.start < s.stop ∧ s.start ≤ p.start ∧ p.stop ≤ s.stop

theorem move_of_covers {s : Splice} {p : Span} (hp : p.start < p.stop) (h : s.Covers p) :
    s.move p = none := by
  obtain ⟨hs, hstart, hstop⟩ := h
  rw [move, if_neg (by omega), if_neg (by omega), if_neg (by omega), if_pos ⟨hstart, hstop⟩]

private theorem insertion_eq {s : Splice} {p : Span} (hs : s.start = s.stop)
    (hp : p.start < p.stop) :
    insertion p s.start s.text.length = ⟨s.moveStart p.start, s.moveStop p.stop⟩ := by
  rw [insertion, moveStart, moveStop, ← hs, Nat.sub_self, Nat.sub_zero, Nat.sub_zero]
  by_cases hbefore : s.start ≤ p.start
  · have hstart : ¬ p.start < s.start := by omega
    have hstop : ¬ p.stop ≤ s.start := by omega
    rw [if_pos hbefore, if_neg hstart, if_neg hstart, if_neg hstop, if_neg hstop]
  · have hstart : p.start < s.start := by omega
    rw [if_neg hbefore, if_pos hstart]
    by_cases hinside : s.start < p.stop
    · have hstop : ¬ p.stop ≤ s.start := by omega
      rw [if_pos hinside, if_neg hstop, if_neg hstop]
    · have hstop : p.stop ≤ s.start := by omega
      rw [if_neg hinside, if_pos hstop]

theorem move_of_not_covers {s : Splice} {p : Span} (hs : s.start ≤ s.stop)
    (hp : p.start < p.stop) (h : ¬ s.Covers p) :
    s.move p = some ⟨s.moveStart p.start, s.moveStop p.stop⟩ := by
  rw [Covers] at h
  by_cases he : s.start = s.stop
  · rw [move, if_pos he, insertion_eq he hp]
  · by_cases hleft : p.stop ≤ s.start
    · rw [move, if_neg he, if_pos hleft, moveStart, moveStop, if_pos (by omega), if_pos hleft]
    · by_cases hright : s.stop ≤ p.start
      · rw [move, if_neg he, if_neg hleft, if_pos hright, moveStart, moveStop, if_neg (by omega),
          if_neg (by omega), if_neg (by omega), if_neg (by omega)]
      · rw [move, if_neg he, if_neg hleft, if_neg hright, if_neg (by omega), moveStart, moveStop,
          if_neg hleft]
        congr 2
        · rw [if_pos (by omega : p.start < s.stop)]
        · split
          · rw [if_neg (by omega)]
          · rw [if_pos (by omega)]

private theorem moveStart_mono (s : Splice) {x y : Nat} (h : x ≤ y) (hs : s.start ≤ s.stop) :
    s.moveStart x ≤ s.moveStart y := by
  simp only [moveStart]
  split <;> split <;> (try split) <;> (try split) <;> omega

private theorem moveStop_mono (s : Splice) {x y : Nat} (h : x ≤ y) (hs : s.start ≤ s.stop) :
    s.moveStop x ≤ s.moveStop y := by
  simp only [moveStop]
  split <;> split <;> (try split) <;> (try split) <;> omega

private theorem moveStop_le_moveStart (s : Splice) {x y : Nat} (h : x ≤ y) (hs : s.start ≤ s.stop) :
    s.moveStop x ≤ s.moveStart y := by
  simp only [moveStop, moveStart]
  split <;> split <;> (try split) <;> (try split) <;> omega

theorem moveStart_lt_moveStop {s : Splice} {p : Span} (hs : s.start ≤ s.stop)
    (hp : p.start < p.stop) (hkept : ¬ s.Covers p) : s.moveStart p.start < s.moveStop p.stop := by
  simp only [Covers] at hkept
  simp only [moveStop, moveStart]
  split <;> split <;> (try split) <;> (try split) <;> omega

theorem move_eq_some {s : Splice} {p q : Span} (hs : s.start ≤ s.stop) (hp : p.start < p.stop)
    (h : s.move p = some q) :
    ¬ s.Covers p ∧ q = ⟨s.moveStart p.start, s.moveStop p.stop⟩ := by
  have hkept : ¬ s.Covers p := by
    intro hcov
    rw [move_of_covers hp hcov] at h
    simp at h
  rw [move_of_not_covers hs hp hkept] at h
  exact ⟨hkept, (Option.some.inj h).symm⟩

@[simp] theorem moveAll_nil (p : Span) : moveAll [] p = some p := rfl

theorem moveAll_concat (ss : List Splice) (s : Splice) (p : Span) :
    moveAll (ss ++ [s]) p = (moveAll ss p).bind s.move := by
  simp only [moveAll, List.foldlM_append, List.foldlM_cons, List.foldlM_nil, Option.bind_eq_bind,
    Option.pure_def, Option.bind_fun_some]

theorem moveAll_concat_eq_some {ss : List Splice} {s : Splice} {p q : Span}
    (h : moveAll (ss ++ [s]) p = some q) : ∃ r, moveAll ss p = some r ∧ s.move r = some q := by
  rw [moveAll_concat] at h
  exact Option.bind_eq_some_iff.mp h

theorem moveAll_nonempty {ss : List Splice} {p q : Span} (hss : ∀ s ∈ ss, s.start ≤ s.stop)
    (hp : p.start < p.stop) (h : moveAll ss p = some q) : q.start < q.stop := by
  induction ss using List.reverseRecOn generalizing q with
  | nil =>
    rw [moveAll_nil, Option.some.injEq] at h
    rwa [← h]
  | append_singleton ss s ih =>
    obtain ⟨r, hr, hm⟩ := moveAll_concat_eq_some h
    have hs := hss s (by simp)
    have hne := ih (fun s hs => hss s (by simp [hs])) hr
    obtain ⟨hkept, rfl⟩ := move_eq_some hs hne hm
    exact moveStart_lt_moveStop hs hne hkept

private theorem moveAll_keeps {R : Span → Span → Prop} {ss : List Splice} {p q p' q' : Span}
    (hstep : ∀ s : Splice, s.start ≤ s.stop → ∀ p q, R p q →
      R ⟨s.moveStart p.start, s.moveStop p.stop⟩ ⟨s.moveStart q.start, s.moveStop q.stop⟩)
    (hss : ∀ s ∈ ss, s.start ≤ s.stop) (hp : p.start < p.stop) (hq : q.start < q.stop)
    (hpq : R p q) (hp' : moveAll ss p = some p') (hq' : moveAll ss q = some q') : R p' q' := by
  induction ss using List.reverseRecOn generalizing p' q' with
  | nil =>
    simp only [moveAll_nil, Option.some.injEq] at hp' hq'
    rwa [← hp', ← hq']
  | append_singleton ss s ih =>
    have hs := hss s (by simp)
    have hinit : ∀ s ∈ ss, s.start ≤ s.stop := fun s hs => hss s (by simp [hs])
    obtain ⟨r, hr, hpm⟩ := moveAll_concat_eq_some hp'
    obtain ⟨u, hu, hqm⟩ := moveAll_concat_eq_some hq'
    obtain ⟨_, rfl⟩ := move_eq_some hs (moveAll_nonempty hinit hp hr) hpm
    obtain ⟨_, rfl⟩ := move_eq_some hs (moveAll_nonempty hinit hq hu) hqm
    exact hstep s hs r u (ih hinit hr hu)

theorem moveAll_apart {ss : List Splice} {p q p' q' : Span}
    (hss : ∀ s ∈ ss, s.start ≤ s.stop) (hp : p.start < p.stop) (hq : q.start < q.stop)
    (hpq : p.stop ≤ q.start) (hp' : moveAll ss p = some p') (hq' : moveAll ss q = some q') :
    p'.stop ≤ q'.start := by
  refine moveAll_keeps (R := fun p q => p.stop ≤ q.start) ?_ hss hp hq hpq hp' hq'
  exact fun s hs _ _ h => moveStop_le_moveStart s h hs

theorem moveAll_within {ss : List Splice} {p q p' q' : Span}
    (hss : ∀ s ∈ ss, s.start ≤ s.stop) (hp : p.start < p.stop) (hq : q.start < q.stop)
    (hpq : p.Within q) (hp' : moveAll ss p = some p') (hq' : moveAll ss q = some q') :
    p'.Within q' := by
  refine moveAll_keeps (R := Span.Within) ?_ hss hp hq hpq hp' hq'
  exact fun s hs _ _ h => ⟨moveStart_mono s h.1 hs, moveStop_mono s h.2 hs⟩

theorem apply_length {s : Splice} {t : Text} (hs : s.start ≤ s.stop) (ht : s.stop ≤ t.length) :
    (s.apply t).length = t.length - (s.stop - s.start) + s.text.length := by
  simp only [apply, List.length_append, List.length_take, List.length_drop]
  omega

theorem moveStop_le_length {s : Splice} {t : Text} {y : Nat} (hs : s.start ≤ s.stop)
    (ht : s.stop ≤ t.length) (hy : y ≤ t.length) : s.moveStop y ≤ (s.apply t).length := by
  rw [apply_length hs ht]
  simp only [moveStop]
  split <;> (try split) <;> omega

theorem slice_apply_before {s : Splice} {t : Text} {i j : Nat} (hj : j ≤ s.start)
    (ht : s.start ≤ t.length) : (s.apply t).slice i j = t.slice i j := by
  rcases Nat.lt_or_ge i j with hij | hji
  · have hlen : (t.take s.start).length = s.start := by
      rw [List.length_take]
      omega
    rw [apply, List.append_assoc, Text.slice, Text.slice,
      List.drop_append_of_le_length (by omega), List.drop_take,
      List.take_append_of_le_length (by rw [List.length_take, List.length_drop]; omega),
      List.take_take]
    congr 1
    omega
  · simp [Text.slice, Nat.sub_eq_zero_of_le hji]

theorem slice_apply_behind {s : Splice} {t : Text} {i j : Nat} (hi : s.stop ≤ i)
    (hs : s.start ≤ s.stop) (hij : i ≤ j) (ht : s.start ≤ t.length) :
    (s.apply t).slice (i - (s.stop - s.start) + s.text.length)
      (j - (s.stop - s.start) + s.text.length) = t.slice i j := by
  have hlen : (t.take s.start ++ s.text).length = s.start + s.text.length := by
    rw [List.length_append, List.length_take]
    omega
  have hdrop : (s.apply t).drop (i - (s.stop - s.start) + s.text.length) = t.drop i := by
    rw [apply, List.drop_append, List.drop_eq_nil_of_le (by rw [hlen]; omega), List.nil_append,
      List.drop_drop]
    congr 1
    omega
  rw [Text.slice, Text.slice, hdrop]
  congr 1
  omega

end Splice

end RepairSearch
