import RepairSearch.Proofs.Document.Move

/-!
# Ranges after many splices

Of a range that no splice covers on its way something is left, and that is the only way for a range
to be lost. Ranges that are left are not empty and lie as the ranges of the original did: apart in
the same order, or one inside the other, and inside the text that the splices lead to.
-/

namespace RepairSearch.Splice

private theorem move_eq_none_iff {s : Splice} {p : Span} (hs : s.start ≤ s.stop)
    (hp : p.start < p.stop) :
    s.move p = none ↔ s.Covers p := by
  constructor
  · intro h
    by_contra hkept
    rw [move_of_not_covers hs hp hkept] at h
    cases h
  · exact move_of_covers hp

private theorem moveAll_eq_none_iff {ss : List Splice} {p : Span} (hss : ∀ s ∈ ss, s.start ≤ s.stop)
    (hp : p.start < p.stop) :
    moveAll ss p = none ↔
      ∃ before s q, before ++ [s] <+: ss ∧ moveAll before p = some q ∧ s.Covers q := by
  induction ss using List.reverseRecOn with
  | nil => simp
  | append_singleton ss s ih =>
    have hs := hss s (by simp)
    have hinit : ∀ s ∈ ss, s.start ≤ s.stop := fun s hs => hss s (by simp [hs])
    rw [moveAll_concat]
    constructor
    · intro h
      cases hq : moveAll ss p with
      | none =>
        obtain ⟨before, s', q, hbefore, hlost⟩ := (ih hinit).mp hq
        exact ⟨before, s', q, hbefore.trans (List.prefix_append ss [s]), hlost⟩
      | some q =>
        rw [hq, Option.bind_some] at h
        have hcovers := (move_eq_none_iff hs (moveAll_nonempty hinit hp hq)).mp h
        exact ⟨ss, s, q, List.prefix_rfl, hq, hcovers⟩
    · rintro ⟨before, s', q, hbefore, hq, hcovers⟩
      rcases List.prefix_concat_iff.mp hbefore with heq | hbefore
      · obtain ⟨rfl, hlast⟩ := List.append_inj' heq rfl
        obtain rfl : s' = s := List.singleton_inj.mp hlast
        rw [hq, Option.bind_some]
        exact move_of_covers (moveAll_nonempty hinit hp hq) hcovers
      · rw [(ih hinit).mpr ⟨before, s', q, hbefore, hq, hcovers⟩, Option.bind_none]

/-- A splice that replaces a range of a text. -/
structure Inside (s : Splice) (t : Text) : Prop where
  le : s.start ≤ s.stop
  stop_le : s.stop ≤ t.length

/-- Every splice replaces a range of the text that the ones before it have made. -/
def InsideAll (t : Text) (ss : List Splice) : Prop :=
  ∀ before s, before ++ [s] <+: ss → s.Inside (applyAll before t)

theorem insideAll_nil (t : Text) : InsideAll t [] := by
  intro before s h
  simp at h

private theorem InsideAll.of_prefix {t : Text} {ss front : List Splice} (h : InsideAll t ss)
    (hfront : front <+: ss) : InsideAll t front :=
  fun before s hbefore => h before s (hbefore.trans hfront)

theorem insideAll_concat {t : Text} {ss : List Splice} {s : Splice} :
    InsideAll t (ss ++ [s]) ↔ InsideAll t ss ∧ s.Inside (applyAll ss t) := by
  constructor
  · intro h
    exact ⟨h.of_prefix (List.prefix_append ss [s]), h ss s List.prefix_rfl⟩
  · rintro ⟨h, hs⟩ before s' hbefore
    rcases List.prefix_concat_iff.mp hbefore with heq | hbefore
    · obtain ⟨rfl, hlast⟩ := List.append_inj' heq rfl
      rwa [List.singleton_inj.mp hlast]
    · exact h before s' hbefore

private theorem applyAll_concat (ss : List Splice) (s : Splice) (t : Text) :
    applyAll (ss ++ [s]) t = s.apply (applyAll ss t) := by
  rw [applyAll, List.foldl_append]
  rfl

private theorem Inside.move {s : Splice} {t : Text} {p q : Span} (h : s.Inside t)
    (hp : p.start ≤ p.stop) (hlen : p.stop ≤ t.length) (hq : s.move p = some q) :
    q.start ≤ q.stop ∧ q.stop ≤ (s.apply t).length := by
  have hle := h.le
  have hstop := h.stop_le
  rw [apply_length hle hstop]
  rw [Splice.move] at hq
  split at hq
  · obtain rfl := Option.some.inj hq
    rw [insertion]
    split
    · dsimp only
      omega
    · split
      · dsimp only
        omega
      · omega
  split at hq
  · obtain rfl := Option.some.inj hq
    omega
  split at hq
  · obtain rfl := Option.some.inj hq
    dsimp only
    omega
  split at hq
  · cases hq
  · obtain rfl := Option.some.inj hq
    dsimp only
    split <;> split <;> omega

theorem InsideAll.moveAll {t : Text} {ss : List Splice} {p q : Span} (h : InsideAll t ss)
    (hp : p.start ≤ p.stop) (hlen : p.stop ≤ t.length) (hq : moveAll ss p = some q) :
    q.start ≤ q.stop ∧ q.stop ≤ (applyAll ss t).length := by
  induction ss using List.reverseRecOn generalizing q with
  | nil =>
    obtain rfl := Option.some.inj hq
    exact ⟨hp, hlen⟩
  | append_singleton ss s ih =>
    obtain ⟨hinit, hs⟩ := insideAll_concat.mp h
    obtain ⟨r, hr, hq⟩ := moveAll_concat_eq_some hq
    obtain ⟨hle, hstop⟩ := ih hinit hr
    rw [applyAll_concat]
    exact hs.move hle hstop hq

/-- Non-empty ranges that are left by any splices are not empty and lie as they did: what was before
another range is before it, and what contained another range contains it. If each splice replaces a
range of the text that it is made on, what is left of a range of the first text is a range of the
last one. A range is lost exactly to a splice that covers what is left of it. -/
theorem moveAll_keeps_order {ss : List Splice} (hss : ∀ s ∈ ss, s.start ≤ s.stop) {p q : Span}
    (hp : p.start < p.stop) (hq : q.start < q.stop) :
    (∀ p' q', moveAll ss p = some p' → moveAll ss q = some q' →
      (p.stop ≤ q.start → p'.stop ≤ q'.start) ∧ (q.Within p → q'.Within p')) ∧
    (∀ p', moveAll ss p = some p' → p'.start < p'.stop ∧
      ∀ t, InsideAll t ss → p.stop ≤ t.length → p'.stop ≤ (applyAll ss t).length) ∧
    (moveAll ss p = none ↔
      ∃ before s r, before ++ [s] <+: ss ∧ moveAll before p = some r ∧ s.Covers r) := by
  refine ⟨fun p' q' hp' hq' => ⟨fun hpq => ?_, fun hqp => ?_⟩, fun p' hp' => ⟨?_, ?_⟩, ?_⟩
  · exact moveAll_apart hss hp hq hpq hp' hq'
  · exact moveAll_within hss hq hp hqp hq' hp'
  · exact moveAll_nonempty hss hp hp'
  · exact fun t ht hlen => (ht.moveAll (Nat.le_of_lt hp) hlen hp').2
  · exact moveAll_eq_none_iff hss hp

/-- An insertion at the boundary between two ranges, and a cut that reaches from the inside of the
first one over the boundary into the second. -/
theorem moveAll_keeps_order_boundary :
    let ss : List Splice := [⟨4, 4, [120, 121]⟩, ⟨3, 7, []⟩]
    moveAll ss ⟨0, 4⟩ = some ⟨0, 3⟩ ∧ moveAll ss ⟨4, 8⟩ = some ⟨3, 6⟩ ∧
      (⟨0, 3⟩ : Span).stop ≤ (⟨3, 6⟩ : Span).start := by
  intro ss
  have hss : ∀ s ∈ ss, s.start ≤ s.stop := by decide
  have hp : moveAll ss ⟨0, 4⟩ = some ⟨0, 3⟩ := by decide
  have hq : moveAll ss ⟨4, 8⟩ = some ⟨3, 6⟩ := by decide
  obtain ⟨horder, _⟩ := moveAll_keeps_order hss (p := ⟨0, 4⟩) (q := ⟨4, 8⟩) (by decide) (by decide)
  exact ⟨hp, hq, (horder _ _ hp hq).1 (by decide)⟩

end RepairSearch.Splice
