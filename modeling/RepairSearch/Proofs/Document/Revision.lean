import RepairSearch.Proofs.Document.Rollback

/-!
# Revisions

The revision of a document never falls, and it grows whenever the current text is made anew. So two
moments at which a document has the same revision show the same text.
-/

namespace RepairSearch

/-- A document after some calls: its revision tells whether its text may have changed. -/
structure Document.Advances (d d' : Document) : Prop where
  revision : d.revision ≤ d'.revision
  current : d'.revision = d.revision → d'.current = d.current

namespace Document.Advances

variable {d d' d'' : Document}

private theorem refl (d : Document) : d.Advances d := ⟨Nat.le_refl _, fun _ => rfl⟩

private theorem trans (h : d.Advances d') (h' : d'.Advances d'') : d.Advances d'' where
  revision := Nat.le_trans h.revision h'.revision
  current heq := by
    have hle := h.revision
    have hle' := h'.revision
    rw [h'.current (by omega), h.current (by omega)]

private theorem of_lt (h : d.revision < d'.revision) : d.Advances d' :=
  ⟨Nat.le_of_lt h, fun heq => absurd heq (Nat.ne_of_gt h)⟩

private theorem apply {index : Nat} {op : Operation} {o : Outcome}
    (h : d.apply index op = .ok (o, d')) :
    d.Advances d' := by
  cases o with
  | skipped reason => rw [apply_eq_skipped h]; exact refl d
  | applied n =>
    obtain ⟨s, sp, _, _, _, rfl⟩ := apply_eq_applied h
    exact of_lt (Nat.lt_succ_self _)

private theorem undo {n : Nat} (h : d.undo n = .ok d') : d.Advances d' := by
  obtain ⟨edits, e, _, _, rfl⟩ := undo_eq_ok h
  exact of_lt (Nat.lt_succ_self _)

end Document.Advances

/-- Document by document, the set after some calls. -/
structure DocumentSet.Advances (ds ds' : DocumentSet) : Prop where
  length : ds'.documents.length = ds.documents.length
  document : ∀ (i : Nat) (d' : Document), ds'.documents[i]? = some d' →
    ∃ d, ds.documents[i]? = some d ∧ d.Advances d'

namespace DocumentSet.Advances

variable {ds ds' ds'' : DocumentSet}

theorem refl (ds : DocumentSet) : ds.Advances ds :=
  ⟨rfl, fun _ d hd => ⟨d, hd, .refl d⟩⟩

theorem trans (h : ds.Advances ds') (h' : ds'.Advances ds'') : ds.Advances ds'' := by
  refine ⟨h'.length.trans h.length, fun i d'' hd'' => ?_⟩
  obtain ⟨d', hd', hadvances'⟩ := h'.document i d'' hd''
  obtain ⟨d, hd, hadvances⟩ := h.document i d' hd'
  exact ⟨d, hd, hadvances.trans hadvances'⟩

private theorem replace {n : Nat} {d d' : Document} (hd : ds.documents[n]? = some d)
    (h : d.Advances d') : ds.Advances (ds.replace n d') := by
  refine ⟨List.length_set, fun i e he => ?_⟩
  rw [DocumentSet.replace, List.getElem?_set] at he
  split at he
  · rename_i hi
    split at he
    · obtain rfl := Option.some.inj he
      exact ⟨d, hi ▸ hd, h⟩
    · cases he
  · exact ⟨e, he, .refl e⟩

theorem apply {r : StatementRef} {op : Operation} {o : Outcome}
    (h : ds.apply r op = .ok (o, ds')) : ds.Advances ds' := by
  obtain ⟨d, d', hd, ha, rfl⟩ := apply_eq_ok h
  exact replace hd (.apply ha)

theorem undo {n e : Nat} (h : ds.undo n e = .ok ds') : ds.Advances ds' := by
  rw [DocumentSet.undo] at h
  split at h
  · cases h
  · rename_i d hd
    split at h
    · cases h
    · rename_i d' hu
      rw [← Except.ok.inj h]
      exact replace (document_eq_ok.mp hd) (.undo hu)

end DocumentSet.Advances

end RepairSearch
