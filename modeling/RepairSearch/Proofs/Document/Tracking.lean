import RepairSearch.Proofs.Document.Place

/-!
# Tracking texts through edits

A statement keeps its text for as long as no edit in force takes it out and none aims inside of it.
The text then stands at the place that the document gives for the statement.
-/

namespace RepairSearch

namespace Splice

variable {s : Splice} {t : Text} {p : Span}

private theorem keeps_before (hp : p.start < p.stop) (hs : s.start ≤ s.stop)
    (ht : s.stop ≤ t.length) (h : p.stop ≤ s.start) :
    s.move p = some p ∧ (s.apply t).slice p.start p.stop = t.slice p.start p.stop := by
  refine ⟨?_, slice_apply_before h (Nat.le_trans hs ht)⟩
  have hkept : ¬ s.Covers p := by
    rintro ⟨_, hstart, _⟩
    omega
  rw [move_of_not_covers hs hp hkept, moveStart, moveStop, if_pos (by omega), if_pos h]

private theorem keeps_behind (hp : p.start < p.stop) (hs : s.start ≤ s.stop)
    (ht : s.stop ≤ t.length) (h : s.stop ≤ p.start) :
    ∃ q, s.move p = some q ∧ (s.apply t).slice q.start q.stop = t.slice p.start p.stop := by
  have hkept : ¬ s.Covers p := by
    rintro ⟨_, _, hstop⟩
    omega
  refine ⟨_, move_of_not_covers hs hp hkept, ?_⟩
  rw [moveStart, moveStop, if_neg (by omega), if_neg (by omega), if_neg (by omega),
    if_neg (by omega)]
  exact slice_apply_behind h hs (Nat.le_of_lt hp) (Nat.le_trans hs ht)

end Splice

namespace Document

/-- The requests leave a statement alone: none of them takes out the statement or one around it,
and none aims at another one inside of it. -/
structure LeavesAlone (d : Document) (rs : List Request) (u : Nat) (s : Syntax.Statement) :
    Prop where
  around : ∀ r ∈ rs, r.op.Removes → ∀ t, d.statements[r.target]? = some t →
    ¬ s.span.Within t.span
  inside : ∀ r ∈ rs, r.target ≠ u → ∀ t, d.statements[r.target]? = some t →
    ¬ t.span.Within s.span

/-- The original text of a statement stands at its place. -/
def Shows (d : Document) (u : Nat) (s : Syntax.Statement) : Prop :=
  ∃ p, d.currentSpan? u = some p ∧ p.stop ≤ d.current.length ∧
    d.current.slice p.start p.stop = d.original.slice s.start s.stop

private theorem Fresh.shows {d : Document} (h : d.Fresh) (hw : d.WellPlaced) {u : Nat}
    {s : Syntax.Statement} (hs : d.statements[u]? = some s) : d.Shows u s := by
  refine ⟨s.span, h.currentSpan? hs, ?_, ?_⟩
  · rw [h.current_eq]
    exact hw.inside s (List.mem_of_getElem? hs)
  · rw [h.current_eq]
    rfl

private theorem Shows.push {d : Document} (hin : d.InRange) {u : Nat} {s : Syntax.Statement}
    (h : d.Shows u s) {sp : Splice} (hle : sp.start ≤ sp.stop) (hlen : sp.stop ≤ d.current.length)
    (hout : ∀ p, d.currentSpan? u = some p → p.stop ≤ sp.start ∨ sp.stop ≤ p.start) :
    (d.push sp).Shows u s := by
  obtain ⟨p, hp, hstop, htext⟩ := h
  obtain ⟨hne, _⟩ := hin.spans u p hp
  have hkeeps : ∃ q, sp.move p = some q ∧
      (sp.apply d.current).slice q.start q.stop = d.current.slice p.start p.stop := by
    rcases hout p hp with hbefore | hbehind
    · exact ⟨p, Splice.keeps_before hne hle hlen hbefore⟩
    · exact Splice.keeps_behind hne hle hlen hbehind
  obtain ⟨q, hq, hslice⟩ := hkeeps
  have hspan : (d.push sp).currentSpan? u = some q := by
    rw [currentSpan?_push, hp, Option.bind_some, hq]
  exact ⟨q, hspan, ((hin.push hle hlen).spans u q hspan).2, hslice.trans htext⟩

private theorem splice?_out {d : Document} (hin : d.InRange) (hw : d.WellPlaced) {u i : Nat}
    {s t : Syntax.Statement} {op : Operation} {sp : Splice} {p : Span}
    (hs : d.statements[u]? = some s) (ht : d.statements[i]? = some t)
    (hsp : d.splice? i t op = .ok sp) (halone : d.LeavesAlone [⟨i, op⟩] u s)
    (hp : d.currentSpan? u = some p)
    (htext : d.current.slice p.start p.stop = d.original.slice s.start s.stop) :
    p.stop ≤ sp.start ∨ sp.stop ≤ p.start := by
  obtain ⟨q, _, hq, _⟩ := splice?_eq_ok hsp
  obtain ⟨hpne, hplen⟩ := hin.spans u p hp
  obtain ⟨hqne, hqlen⟩ := hin.spans i q hq
  have hnested := hw.nested s (List.mem_of_getElem? hs) t (List.mem_of_getElem? ht)
  have hsolid : (d.current.slice p.start p.stop).isSolid = true :=
    htext ▸ hw.solid s (List.mem_of_getElem? hs)
  by_cases hop : op.Removes
  · have hcut := splice?_removes hsp hop hq (Nat.le_of_lt hqne) hqlen
    have htrim := Text.trimmedEnd_le d.current q.start q.stop
    rcases hnested with hst | hts | hst | hts
    · exact absurd hst (halone.around _ (List.mem_singleton.mpr rfl) hop t ht)
    · by_cases hiu : i = u
      · -- the statement itself, which is around itself
        have hself : s = t := by
          rw [hiu, hs] at ht
          exact Option.some.inj ht
        exact absurd ⟨Nat.le_refl _, Nat.le_refl _⟩
          (halone.around _ (List.mem_singleton.mpr rfl) hop s (hself ▸ ht))
      · exact absurd hts (halone.inside _ (List.mem_singleton.mpr rfl) hiu t ht)
    · have hpq := hin.apart hw hs ht hp hq hst
      exact .inl (hcut.before_solid (by omega) hsolid hpne hpq)
    · have hqp := hin.apart hw ht hs hq hp hts
      exact .inr (hcut.behind_solid hsolid hpne hplen (Nat.le_trans htrim hqp))
  · obtain ⟨q', hq', hstart, hstop⟩ := splice?_insertBefore hsp hop
    rw [hq, Option.some.injEq] at hq'
    subst hq'
    rcases hnested with hst | hts | hst | hts
    · have hpq := hin.within hw hs ht hp hq hst
      exact .inr (hstop ▸ hpq.1)
    · by_cases hiu : i = u
      · rw [hiu, hp, Option.some.injEq] at hq
        subst hq
        exact .inr (Nat.le_of_eq hstop)
      · exact absurd hts (halone.inside _ (List.mem_singleton.mpr rfl) hiu t ht)
    · have hpq := hin.apart hw hs ht hp hq hst
      exact .inl (by omega)
    · have hqp := hin.apart hw ht hs hq hp hts
      exact .inr (by omega)

private theorem Shows.replay {d d' : Document} (hin : d.InRange) (hw : d.WellPlaced) {u : Nat}
    {s : Syntax.Statement} (hs : d.statements[u]? = some s) (h : d.Shows u s)
    {rs : List Request} (halone : d.LeavesAlone rs u s) (hr : d.replay? rs = some d') :
    d'.Shows u s := by
  induction rs using List.reverseRecOn generalizing d' with
  | nil =>
    rw [← Option.some.inj hr]
    exact h
  | append_singleton rs r ih =>
    obtain ⟨d₁, t, sp, hd₁, ht, hsp, rfl⟩ := replay?_concat_eq_some hr
    have hsrc := replay?_sameSource hd₁
    have hin₁ := hin.replay hd₁
    obtain ⟨hle, hlen⟩ := hin₁.splice hsp
    have hinit : d.LeavesAlone rs u s :=
      ⟨fun r hr => halone.around r (List.mem_append_left _ hr),
        fun r hr => halone.inside r (List.mem_append_left _ hr)⟩
    have hlast : d₁.LeavesAlone [r] u s := by
      refine ⟨?_, ?_⟩
      · intro r' hr'
        rw [hsrc.statements]
        exact halone.around r' (List.mem_append_right _ hr')
      · intro r' hr'
        rw [hsrc.statements]
        exact halone.inside r' (List.mem_append_right _ hr')
    have hshows := ih hinit hd₁
    refine hshows.push hin₁ hle hlen ?_
    intro p hp
    obtain ⟨p', hp', _, htext⟩ := hshows
    rw [hp, Option.some.injEq] at hp'
    subst hp'
    exact splice?_out hin₁ (hw.of_sameSource hsrc) (hsrc.statements ▸ hs) ht hsp hlast hp htext

end Document

namespace History

/-- After any calls, a statement that the active requests leave alone stands in the current text,
byte for byte, at the place that the document gives for it. -/
theorem run_shows_untouched {d₀ : Document} (h₀ : d₀.Fresh) (hw : d₀.WellPlaced)
    (calls : List Call) {u : Nat} {s : Syntax.Statement} (hs : d₀.statements[u]? = some s)
    (halone : d₀.LeavesAlone ((start d₀).run calls).active u s) :
    ∃ p, ((start d₀).run calls).document.currentSpan? u = some p ∧
      p.stop ≤ ((start d₀).run calls).document.current.length ∧
      ((start d₀).run calls).document.current.slice p.start p.stop =
        d₀.original.slice s.start s.stop := by
  obtain ⟨d, hd, halike⟩ := (h₀.replays calls).replay
  obtain ⟨p, hp, hstop, htext⟩ :=
    (h₀.shows hw hs).replay (h₀.inRange hw) hw hs halone hd
  refine ⟨p, (halike.currentSpan? u).trans hp, ?_, ?_⟩
  · rw [halike.current]
    exact hstop
  · rw [halike.current, htext, (Document.replay?_sameSource hd).original]

/-- The last statement keeps its text when the one before it is deleted and a donor is inserted
before it. -/
theorem run_shows_untouched_nested :
    let h := (start .nested).run [.apply 1 .delete, .apply 2 (.insertBefore ⟨[120], [], []⟩)]
    h.active = [⟨1, .delete⟩, ⟨2, .insertBefore ⟨[120], [], []⟩⟩] ∧
    h.document.current ≠ h.document.original ∧
    ∃ p, h.document.currentSpan? 2 = some p ∧ p.stop ≤ h.document.current.length ∧
      h.document.current.slice p.start p.stop = [98, 40, 41] := by
  have hs : Document.nested.statements[2]? =
      some ⟨"expression_statement", 11, 14, 3, 0, "", "module"⟩ := rfl
  have hactive : ((start .nested).run
      [.apply 1 .delete, .apply 2 (.insertBefore ⟨[120], [], []⟩)]).active =
        [⟨1, .delete⟩, ⟨2, .insertBefore ⟨[120], [], []⟩⟩] := by decide +kernel
  refine ⟨hactive, by decide +kernel, ?_⟩
  refine run_shows_untouched Document.nested_fresh Document.nested_wellPlaced _ hs ?_
  rw [hactive]
  refine ⟨?_, ?_⟩
  · intro r hr hop t ht
    simp only [List.mem_cons, List.not_mem_nil, or_false] at hr
    rcases hr with rfl | rfl
    · obtain rfl := Option.some.inj ht
      decide
    · exact hop.elim
  · intro r hr hne t ht
    simp only [List.mem_cons, List.not_mem_nil, or_false] at hr
    rcases hr with rfl | rfl
    · obtain rfl := Option.some.inj ht
      decide
    · exact absurd rfl hne

end History

end RepairSearch
