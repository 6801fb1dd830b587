import RepairSearch.Proofs.Document.Place

/-!
# Removed statements

What a removing edit cuts out begins at or before its target, but it need not reach the end of the
target: the target is cut without the blanks at its end. If it does reach that far, then the target
and all that lay inside of it are gone for as long as the edit is in force. If not, the target is
left with a place.
-/

namespace RepairSearch

namespace Document

private theorem replay?_append (d : Document) (rs more : List Request) :
    d.replay? (rs ++ more) = (d.replay? rs).bind (·.replay? more) := by
  simp only [replay?, List.foldlM_append, Option.bind_eq_bind]

private theorem replay?_cons (d : Document) (r : Request) (rs : List Request) :
    d.replay? (r :: rs) = (d.applied? r).bind (·.replay? rs) := by
  simp only [replay?, List.foldlM_cons, Option.bind_eq_bind]

private theorem gone_replay {d d' : Document} {i : Nat} (h : d.currentSpan? i = none)
    {rs : List Request} (hr : d.replay? rs = some d') : d'.currentSpan? i = none := by
  refine replay?_keeps (P := fun d => d.currentSpan? i = none) ?_ hr h
  intro d₁ r s sp hd _ _
  rw [currentSpan?_push, hd, Option.bind_none]

private theorem apply_gone {d : Document} {i : Nat} {s : Syntax.Statement}
    (hs : d.statements[i]? = some s) (h : d.currentSpan? i = none) (op : Operation) :
    d.apply i op = .ok (.skipped .targetRemoved, d) := by
  simp only [apply, hs, splice?, h]

/-- The edit that a request makes on a document: the place of its target and its splice. -/
structure Edits (d : Document) (r : Request) (p : Span) (sp : Splice) : Prop where
  place : d.currentSpan? r.target = some p
  splice : ∃ t, d.statements[r.target]? = some t ∧ d.splice? r.target t r.op = .ok sp

section Cut

variable {d : Document} {r : Request} {p : Span} {sp : Splice}

private theorem Edits.cutsAround (h : d.Edits r p sp) (hin : d.InRange) (hop : r.op.Removes) :
    sp.CutsAround d.current p.start (d.current.trimmedEnd p.start p.stop) := by
  obtain ⟨t, _, hsp⟩ := h.splice
  obtain ⟨hne, hstop⟩ := hin.spans r.target p h.place
  exact splice?_removes hsp hop h.place (Nat.le_of_lt hne) hstop

private theorem Edits.covers_iff (h : d.Edits r p sp) (hin : d.InRange) (hop : r.op.Removes) :
    sp.Covers p ↔ p.stop ≤ sp.stop := by
  have hcut := h.cutsAround hin hop
  obtain ⟨hne, _⟩ := hin.spans r.target p h.place
  constructor
  · exact fun hcov => hcov.2.2
  · intro hstop
    exact ⟨Nat.lt_of_le_of_lt hcut.start_le (Nat.lt_of_lt_of_le hne hstop), hcut.start_le, hstop⟩

private theorem Edits.reaches_of_not_endsBlank (h : d.Edits r p sp) (hin : d.InRange)
    (hop : r.op.Removes) (hend : (d.current.slice p.start p.stop).endsBlank = false) :
    p.stop ≤ sp.stop := by
  obtain ⟨hne, _⟩ := hin.spans r.target p h.place
  have htrim := (Text.trimmedEnd_eq_stop_iff hne).mpr hend
  exact htrim ▸ (h.cutsAround hin hop).le_stop

private theorem Edits.replace_reaches_iff (h : d.Edits r p sp) (hin : d.InRange) {donor : Donor}
    (hop : r.op = .replace donor) :
    p.stop ≤ sp.stop ↔ (d.current.slice p.start p.stop).endsBlank = false := by
  obtain ⟨t, _, hsp⟩ := h.splice
  obtain ⟨hne, _⟩ := hin.spans r.target p h.place
  obtain ⟨p', alone, hp', rfl⟩ := splice?_eq_ok hsp
  rw [h.place, Option.some.injEq] at hp'
  subst hp'
  rw [hop, ← Text.trimmedEnd_eq_stop_iff hne]
  have htrim := Text.trimmedEnd_le d.current p.start p.stop
  simp only [spliceOf]
  omega

private theorem Edits.gone_iff (h : d.Edits r p sp) (hin : d.InRange) (hop : r.op.Removes) :
    (d.push sp).currentSpan? r.target = none ↔ p.stop ≤ sp.stop := by
  obtain ⟨t, _, hsp⟩ := h.splice
  obtain ⟨hne, _⟩ := hin.spans r.target p h.place
  obtain ⟨hle, _⟩ := hin.splice hsp
  rw [currentSpan?_push, h.place, Option.bind_some, ← h.covers_iff hin hop]
  constructor
  · intro hgone
    by_contra hkept
    rw [Splice.move_of_not_covers hle hne hkept] at hgone
    simp at hgone
  · exact Splice.move_of_covers hne

private theorem Edits.gone_within (h : d.Edits r p sp) (hin : d.InRange) (hw : d.WellPlaced)
    (hop : r.op.Removes) (hreach : p.stop ≤ sp.stop) {i : Nat} {s t : Syntax.Statement}
    (hs : d.statements[i]? = some s) (ht : d.statements[r.target]? = some t)
    (hst : s.span.Within t.span) : (d.push sp).currentSpan? i = none := by
  rw [currentSpan?_push]
  cases hq : d.currentSpan? i with
  | none => rw [Option.bind_none]
  | some q =>
    have hqp := hin.within hw hs ht hq h.place hst
    obtain ⟨hne, _⟩ := hin.spans i q hq
    obtain ⟨hcut, hstart, hstop⟩ := (h.covers_iff hin hop).mpr hreach
    have hcov : sp.Covers q := ⟨hcut, Nat.le_trans hstart hqp.1, Nat.le_trans hqp.2 hstop⟩
    rw [Option.bind_some, Splice.move_of_covers hne hcov]

end Cut

private theorem replay?_edits {d d' : Document} {before after : List Request} {r : Request}
    (hr : d.replay? (before ++ r :: after) = some d') :
    ∃ d₁ p sp, d.replay? before = some d₁ ∧ d₁.Edits r p sp ∧
      (d₁.push sp).replay? after = some d' := by
  rw [replay?_append] at hr
  obtain ⟨d₁, hd₁, hr⟩ := Option.bind_eq_some_iff.mp hr
  rw [replay?_cons] at hr
  obtain ⟨d₂, hd₂, hr⟩ := Option.bind_eq_some_iff.mp hr
  obtain ⟨t, sp, ht, hsp, rfl⟩ := applied?_eq_some hd₂
  obtain ⟨p, _, hp, _⟩ := splice?_eq_ok hsp
  exact ⟨d₁, p, sp, hd₁, ⟨hp, t, ht, hsp⟩, hr⟩

/-- `if x:` with the calls `a()` and `b()` inside of it and `c()` behind it, as read from a file.
There are three blanks behind `a()`. -/
def blanksInside : Document :=
  ofText "a.py" "a" .python
    [105, 102, 32, 120, 58, 10, 32, 97, 40, 41, 32, 32, 32, 10, 32, 98, 40, 41, 10, 99, 40, 41, 10]

private theorem blanksInside_wellPlaced : blanksInside.WellPlaced where
  nonempty := by decide +kernel
  inside := by decide +kernel
  nested := by decide +kernel
  solid := by decide +kernel

end Document

namespace History

/-- A removing edit in force, made where the requests before it had led, takes its target out of the
text exactly if it cuts the target to its end. Then the target and all that lay inside of it are
gone for as long as the edit is in force, and edits on them are skipped. A text that does not end in
a blank is cut to its end; a replacement cuts no other text to its end. -/
theorem run_removed_iff_cut_to_end {d₀ : Document} (h₀ : d₀.Fresh) (hw : d₀.WellPlaced)
    (calls : List Call) :
    let h := (start d₀).run calls
    ∀ before r after, h.active = before ++ r :: after → r.op.Removes →
      ∃ d p sp, d₀.replay? before = some d ∧ d.Edits r p sp ∧
        d₀.replay? (before ++ [r]) = some (d.push sp) ∧
        ((d.push sp).currentSpan? r.target = none ↔ p.stop ≤ sp.stop) ∧
        (p.stop ≤ sp.stop → ∀ i s t, d₀.statements[i]? = some s →
          d₀.statements[r.target]? = some t → s.span.Within t.span →
          h.document.currentSpan? i = none ∧
          ∀ op, h.document.apply i op = .ok (.skipped .targetRemoved, h.document)) ∧
        ((d.current.slice p.start p.stop).endsBlank = false → p.stop ≤ sp.stop) ∧
        (∀ donor, r.op = .replace donor →
          (p.stop ≤ sp.stop ↔ (d.current.slice p.start p.stop).endsBlank = false)) := by
  intro h before r after hactive hop
  have hr := h₀.replays calls
  obtain ⟨d', hd', halike⟩ := hr.replay
  rw [hactive] at hd'
  obtain ⟨d, p, sp, hd, hedit, hafter⟩ := Document.replay?_edits hd'
  have hin := (h₀.inRange hw).replay hd
  have hsrc := Document.replay?_sameSource hd
  refine ⟨d, p, sp, hd, hedit, ?_, hedit.gone_iff hin hop, ?_,
    hedit.reaches_of_not_endsBlank hin hop, fun donor => hedit.replace_reaches_iff hin⟩
  · obtain ⟨t, ht, hsp⟩ := hedit.splice
    rw [Document.replay?_concat, hd, Option.bind_some]
    exact Document.applied?_of_splice? ht hsp
  · intro hreach i s t hs ht hst
    have hgone := hedit.gone_within hin (hw.of_sameSource hsrc) hop hreach (hsrc.statements ▸ hs)
      (hsrc.statements ▸ ht) hst
    have hgone' : h.document.currentSpan? i = none :=
      (halike.currentSpan? i).trans (Document.gone_replay hgone hafter)
    exact ⟨hgone', Document.apply_gone (hr.sameSource.statements ▸ hs) hgone'⟩

/-- The second call inside of `if x:` is deleted, and then the `if`, whose text now ends in blanks,
is replaced. The call is gone, and the `if` has the blanks for its place. -/
theorem run_removed_blanks :
    let donor : Donor := ⟨[99, 40, 41], [], []⟩
    let h := (start .blanksInside).run [.apply 2 .delete, .apply 0 (.replace donor)]
    h.active = [⟨2, .delete⟩, ⟨0, .replace donor⟩] ∧
      h.document.currentSpan? 2 = none ∧ h.document.currentSpan? 0 ≠ none := by
  intro donor h
  have hfresh : Document.blanksInside.Fresh := Document.fresh_ofText _ _ _ _
  have hactive : h.active = [⟨2, .delete⟩, ⟨0, .replace donor⟩] := by decide +kernel
  refine ⟨hactive, ?_, ?_⟩
  · obtain ⟨d, p, sp, hd, hedit, _, _, hgone, hcut, _⟩ := run_removed_iff_cut_to_end hfresh
      Document.blanksInside_wellPlaced _ [] _ _ hactive trivial
    obtain rfl := Option.some.inj hd
    have hplace : some p = some ⟨15, 18⟩ := hedit.place.symm.trans (by decide +kernel)
    obtain rfl := Option.some.inj hplace
    have hcall : Document.blanksInside.statements[2]? =
        some ⟨"expression_statement", 15, 18, 3, 1, "", "block"⟩ := by decide +kernel
    exact (hgone (hcut (by decide +kernel)) 2 _ _ hcall hcall (by decide)).1
  · obtain ⟨d, p, sp, hd, hedit, hafter, hgone, _, _, hreplace⟩ := run_removed_iff_cut_to_end
      hfresh Document.blanksInside_wellPlaced _ [_] _ [] hactive trivial
    have hblanks : ((Document.blanksInside.replay? [⟨2, .delete⟩]).map fun d =>
        (d.currentSpan? 0).map fun p => (d.current.slice p.start p.stop).endsBlank) =
          some (some true) := by decide +kernel
    rw [hd, Option.map_some, hedit.place, Option.map_some] at hblanks
    obtain ⟨d', hd', halike⟩ := (hfresh.replays _).replay
    rw [hactive] at hd'
    obtain rfl := Option.some.inj (hafter.symm.trans hd')
    rw [halike.currentSpan?, Ne, hgone, hreplace donor rfl,
      Option.some.inj (Option.some.inj hblanks)]
    decide

end History

end RepairSearch
