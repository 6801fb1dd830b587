import RepairSearch.Proofs.Document.History

/-!
# Undoing edits

Edits are numbered in the order in which they are made and no number comes twice. An undo therefore
names one edit, and it leads back to the document that this edit was made on, whatever happened
in between.
-/

namespace RepairSearch

namespace Document

/-- The numbers of the edits in force grow, and the next number is above them. -/
structure Numbered (d : Document) : Prop where
  increasing : d.edits.Pairwise fun e f => e.number < f.number
  below : ∀ e ∈ d.edits, e.number < d.nextEdit

theorem Numbered.push {d : Document} (h : d.Numbered) (s : Splice) : (d.push s).Numbered where
  increasing := by
    rw [Document.push, List.pairwise_append]
    refine ⟨h.increasing, List.pairwise_singleton _ _, ?_⟩
    intro e he f hf
    rw [List.mem_singleton.mp hf]
    exact h.below e he
  below := by
    intro e he
    rcases List.mem_append.mp he with he | he
    · exact Nat.lt_succ_of_lt (h.below e he)
    · rw [List.mem_singleton.mp he]
      exact Nat.lt_succ_self _

theorem Numbered.pop {d : Document} (h : d.Numbered) : d.pop.Numbered where
  increasing := h.increasing.sublist (List.dropLast_sublist _)
  below := fun e he => h.below e ((List.dropLast_sublist _).subset he)

private theorem undo_push (d : Document) (s : Splice) :
    (d.push s).undo d.nextEdit = .ok (d.push s).pop := by
  rw [undo, if_pos]
  rw [push, List.getLast?_concat]
  rfl

/-- An edit stands on certain others, or it is no longer in force and never will be. -/
structure Settled (d : Document) (under : List Edit) (e : Edit) : Prop where
  old : e.number < d.nextEdit
  place : under ++ [e] <+: d.edits ∨ ∀ f ∈ d.edits, f.number ≠ e.number

private theorem Settled.push {d : Document} {under : List Edit} {e : Edit} (h : d.Settled under e)
    (s : Splice) : (d.push s).Settled under e where
  old := Nat.lt_succ_of_lt h.old
  place := by
    rcases h.place with hp | hn
    · exact .inl (hp.trans (List.prefix_append _ _))
    · refine .inr ?_
      intro f hf
      rcases List.mem_append.mp hf with hf | hf
      · exact hn f hf
      · rw [List.mem_singleton.mp hf]
        exact Nat.ne_of_gt h.old

private theorem Settled.pop {d : Document} {under edits : List Edit} {e f : Edit}
    (h : d.Settled under e) (hn : d.Numbered) (hd : d.edits = edits ++ [f]) :
    d.pop.Settled under e where
  old := h.old
  place := by
    have hpop : d.pop.edits = edits := by
      change d.edits.dropLast = edits
      rw [hd, List.dropLast_concat]
    rw [hpop]
    rcases h.place with hp | hne
    · rw [hd] at hp
      rcases List.prefix_concat_iff.mp hp with heq | hp
      · refine .inr ?_
        obtain ⟨hunder, hef⟩ := List.append_inj' heq rfl
        have hinc := hn.increasing
        rw [hd, ← hunder, ← hef, List.pairwise_append] at hinc
        intro g hg
        exact Nat.ne_of_lt (hinc.2.2 g (hunder ▸ hg) e (List.mem_singleton.mpr rfl))
      · exact .inl hp
    · exact .inr fun g hg => hne g (by rw [hd]; exact List.mem_append_left _ hg)

private theorem Settled.undo {d d' : Document} {under : List Edit} {e : Edit}
    (h : d.Settled under e)
    (hn : d.Numbered) (hu : d.undo e.number = .ok d') : d' = d.pop ∧ d.edits = under ++ [e] := by
  obtain ⟨edits, f, hd, hf, rfl⟩ := undo_eq_ok hu
  refine ⟨rfl, ?_⟩
  rcases h.place with hp | hne
  · rw [hd] at hp
    rcases List.prefix_concat_iff.mp hp with heq | hp
    · rw [hd, heq]
    · have hmem : e ∈ edits := hp.subset (by simp)
      have hinc := hn.increasing
      rw [hd, List.pairwise_append] at hinc
      have hlt := hinc.2.2 e hmem f (List.mem_singleton.mpr rfl)
      omega
  · exact absurd hf (hne f (by rw [hd]; simp))

end Document

namespace History

private theorem numbered_run {h : History} (hn : h.document.Numbered) (calls : List Call) :
    (h.run calls).document.Numbered := by
  induction calls generalizing h with
  | nil => exact hn
  | cons c calls ih =>
    apply ih
    rcases step_cases h c with hc | ⟨_, _, _, sp, _, _, _, hc⟩ | ⟨_, _, _, hc⟩
    · rwa [hc]
    · rw [hc]
      exact hn.push sp
    · rw [hc]
      exact hn.pop

private theorem settled_run {h : History} {under : List Edit} {e : Edit} (hn : h.document.Numbered)
    (hs : h.document.Settled under e) (calls : List Call) :
    (h.run calls).document.Settled under e := by
  induction calls generalizing h with
  | nil => exact hs
  | cons c calls ih =>
    have hn' := numbered_run hn [c]
    rcases step_cases h c with hc | ⟨_, _, _, sp, _, _, _, hc⟩ | ⟨edits, f, hd, hc⟩
    · exact ih hn' (by rw [hc]; exact hs)
    · exact ih hn' (by rw [hc]; exact hs.push sp)
    · exact ih hn' (by rw [hc]; exact hs.pop hn hd)

private theorem settled_push (d : Document) (s : Splice) :
    (d.push s).Settled d.edits ⟨d.nextEdit, s⟩ :=
  ⟨Nat.lt_succ_self _, .inl (List.prefix_refl _)⟩

private theorem numbered_start {d₀ : Document} (h₀ : d₀.Fresh) : (start d₀).document.Numbered := by
  refine ⟨?_, ?_⟩
  · change d₀.edits.Pairwise _
    rw [h₀.edits]
    exact List.Pairwise.nil
  · intro e he
    change e ∈ d₀.edits at he
    rw [h₀.edits] at he
    exact absurd he List.not_mem_nil

private theorem undo_after_apply {d₀ : Document} (h₀ : d₀.Fresh) (calls more : List Call)
    {target n : Nat} {op : Operation} {d d' : Document}
    (ha : ((start d₀).run calls).document.apply target op = .ok (.applied n, d))
    (hu : ((start d₀).run (calls ++ .apply target op :: more)).document.undo n = .ok d') :
    d'.Alike ((start d₀).run calls).document := by
  have hbefore := h₀.replays calls
  have hafter := h₀.replays (calls ++ .apply target op :: more)
  have hnum := numbered_run (numbered_start h₀) calls
  obtain ⟨s, sp, hs, hsp, rfl, rfl⟩ := Document.apply_eq_applied ha
  have hstep : ((start d₀).run calls).step (.apply target op) =
      ⟨((start d₀).run calls).document.push sp,
        ((start d₀).run calls).active ++ [⟨target, op⟩]⟩ := by
    simp only [step, ha]
  have hsettled := settled_run (h := ((start d₀).run calls).step (.apply target op))
    (by rw [hstep]; exact hnum.push sp) (by rw [hstep]; exact settled_push _ sp) more
  have hnum' := numbered_run (numbered_start h₀) (calls ++ .apply target op :: more)
  have hrun : (((start d₀).run calls).step (.apply target op)).run more =
      (start d₀).run (calls ++ .apply target op :: more) := by
    rw [run_append]
    rfl
  rw [hrun] at hsettled
  obtain ⟨rfl, hedits⟩ := hsettled.undo hnum' hu
  have hsrc := (Document.sameSource_pop _).trans
    (hafter.sameSource.trans hbefore.sameSource.symm)
  refine Document.Alike.of_splices (Document.coherent_pop _) hbefore.coherent hsrc ?_
  rw [Document.splices_pop, Document.splices, hedits, List.map_append, List.map_singleton,
    List.dropLast_concat, Document.splices]

/-- After any calls, the text, the tree, the splices in force and all places are those that the
active requests alone lead to from a fresh document, and every one of these requests is an edit that
can be made there. An undo leads back to the document before its edit, and without edits in force
the text is the original. -/
theorem run_history_independent (path package : String) (language : Language) (text : Text)
    (calls : List Call) :
    let d₀ := Document.ofText path package language text
    let h := (start d₀).run calls
    (∃ d, d₀.replay? h.active = some d ∧ h.document.Alike d ∧
      ∀ i, h.document.currentSpan? i = d.currentSpan? i) ∧
    (∀ target op n d, h.document.apply target op = .ok (.applied n, d) →
      (∃ d', d.undo n = .ok d') ∧
      ∀ more d', ((start d₀).run (calls ++ .apply target op :: more)).document.undo n = .ok d' →
        d'.Alike h.document ∧ ∀ i, d'.currentSpan? i = h.document.currentSpan? i) ∧
    (h.document.edits = [] → h.document.current = text) := by
  have h₀ := Document.fresh_ofText path package language text
  have hr := h₀.replays calls
  obtain ⟨d, hd, halike⟩ := hr.replay
  refine ⟨⟨d, hd, halike, halike.currentSpan?⟩, ?_, ?_⟩
  · intro target op n d ha
    refine ⟨?_, ?_⟩
    · obtain ⟨s, sp, _, _, rfl, rfl⟩ := Document.apply_eq_applied ha
      exact ⟨_, Document.undo_push _ sp⟩
    · intro more d' hu
      have hback := undo_after_apply h₀ calls more ha hu
      exact ⟨hback, hback.currentSpan?⟩
  · intro hedits
    rw [hr.coherent.current, Document.splices, hedits, hr.sameSource.original]
    rfl

end History

end RepairSearch
