import Mathlib.Data.List.Forall2
import RepairSearch.Mutation
import RepairSearch.Proofs.Document.History

/-!
# Taking mutations back

Two documents with the same content differ in their counters only. A mutation that was made on a set
of documents can be undone on every set with the content that it left, and this gives back the
content from before it.
-/

namespace RepairSearch

namespace Document

/-- What calls can make of a text that was read. -/
def Reachable (d : Document) : Prop :=
  ∃ path package language text calls,
    ((History.start (ofText path package language text)).run calls).document = d

theorem reachable_ofText (path package : String) (language : Language) (text : Text) :
    (ofText path package language text).Reachable := ⟨path, package, language, text, [], rfl⟩

private theorem Reachable.coherent {d : Document} (h : d.Reachable) : d.Coherent := by
  obtain ⟨path, package, language, text, calls, rfl⟩ := h
  exact ((fresh_ofText path package language text).replays calls).coherent

private theorem Reachable.step {d : Document} (h : d.Reachable) (c : Call) :
    ∃ active, ((⟨d, active⟩ : History).step c).document.Reachable := by
  obtain ⟨path, package, language, text, calls, rfl⟩ := h
  refine ⟨((History.start (ofText path package language text)).run calls).active, path, package,
    language, text, calls ++ [c], ?_⟩
  rw [History.run_append]
  rfl

private theorem Reachable.apply {d d' : Document} (h : d.Reachable) {i : Nat} {op : Operation}
    {o : Outcome} (ha : d.apply i op = .ok (o, d')) : d'.Reachable := by
  obtain ⟨active, hr⟩ := h.step (.apply i op)
  cases o <;> simpa only [History.step, ha] using hr

private theorem Reachable.undo {d d' : Document} (h : d.Reachable) {n : Nat}
    (hu : d.undo n = .ok d') :
    d'.Reachable := by
  obtain ⟨active, hr⟩ := h.step (.undo n)
  simpa only [History.step, hu] using hr

/-- A document without its counters. -/
def content (d : Document) : Document := { d with nextEdit := 0, revision := 0 }

private theorem edits_of_content {d d' : Document} (h : d.content = d'.content) :
    d.edits = d'.edits :=
  congrArg (·.edits) h

private theorem content_pop {d d' : Document} (h : d.content = d'.content) :
    d.pop.content = d'.pop.content := by
  have hpop : d.content.pop.content = d'.content.pop.content := by rw [h]
  exact hpop

private theorem content_push_pop {d : Document} (h : d.Coherent) (s : Splice) :
    (d.push s).pop.content = d.content := by
  have hedits : (d.push s).edits.dropLast = d.edits := List.dropLast_concat
  have htext :
      Splice.applyAll ((d.push s).edits.dropLast.map (·.splice)) d.original = d.current := by
    rw [hedits]
    exact h.current.symm
  have htree : d.language.parse
      (Splice.applyAll ((d.push s).edits.dropLast.map (·.splice)) d.original) = d.parsed := by
    rw [htext, h.parsed]
  simp only [content, pop, withText]
  congr 1

private theorem undo_of_content {d d' : Document} {s : Splice}
    (h : d'.content = (d.push s).content) :
    d'.undo d.nextEdit = .ok d'.pop := by
  have hlast : d'.edits.getLast? = some ⟨d.nextEdit, s⟩ := by
    rw [edits_of_content h, push, List.getLast?_concat]
  rw [undo, hlast, Option.map_some, if_pos rfl]

end Document

namespace DocumentSet

/-- All documents of the set are reachable. -/
def Reachable (ds : DocumentSet) : Prop := ∀ d ∈ ds.documents, d.Reachable

/-- The documents of a set without their counters. -/
def content (ds : DocumentSet) : List Document := ds.documents.map Document.content

theorem document_eq_ok {ds : DocumentSet} {n : Nat} {d : Document} :
    ds.document n = .ok d ↔ ds.documents[n]? = some d := by
  rw [document]
  cases ds.documents[n]? <;> simp

private theorem Reachable.replace {ds : DocumentSet} (h : ds.Reachable) {d : Document}
    (hd : d.Reachable) (n : Nat) : (ds.replace n d).Reachable := by
  intro e he
  rcases List.mem_or_eq_of_mem_set he with he | rfl
  · exact h e he
  · exact hd

private theorem content_replace (ds : DocumentSet) (n : Nat) (d : Document) :
    (ds.replace n d).content = ds.content.set n d.content := List.map_set

private theorem set_self {α : Type} {l : List α} {n : Nat} {a : α} (h : l[n]? = some a) :
    l.set n a = l := by
  obtain ⟨hlt, rfl⟩ := List.getElem?_eq_some_iff.mp h
  exact List.set_getElem_self hlt

private theorem replace_self {ds : DocumentSet} {n : Nat} {d : Document}
    (h : ds.documents[n]? = some d) : ds.replace n d = ds := by
  rw [replace, set_self h]

private theorem content_set {ds : DocumentSet} {n : Nat} {d : Document}
    (h : ds.documents[n]? = some d) : ds.content.set n d.content = ds.content := by
  refine set_self ?_
  rw [content, List.getElem?_map, h, Option.map_some]

theorem apply_eq_ok {ds ds' : DocumentSet} {r : StatementRef} {op : Operation} {o : Outcome}
    (h : ds.apply r op = .ok (o, ds')) :
    ∃ d d', ds.documents[r.document]? = some d ∧ d.apply r.index op = .ok (o, d') ∧
      ds' = ds.replace r.document d' := by
  rw [apply] at h
  split at h
  · simp at h
  · rename_i d hd
    split at h
    · simp at h
    · rename_i o' d' ha
      simp only [Except.ok.injEq, Prod.mk.injEq] at h
      obtain ⟨rfl, rfl⟩ := h
      exact ⟨d, d', document_eq_ok.mp hd, ha, rfl⟩

/-- Document by document the same text, the same edits in force and the same places. -/
def Same (ds ds' : DocumentSet) : Prop :=
  List.Forall₂ (fun d d' => d.current = d'.current ∧ d.edits = d'.edits ∧
    ∀ i, d.currentSpan? i = d'.currentSpan? i) ds.documents ds'.documents

theorem same_of_content {ds ds' : DocumentSet} (h : ds.content = ds'.content) : ds.Same ds' := by
  have heq : List.Forall₂ (· = ·) ds.content ds'.content := by
    rw [h]
    exact List.forall₂_refl _
  rw [content, content, List.forall₂_map_left_iff, List.forall₂_map_right_iff] at heq
  refine heq.imp fun d d' hd => ⟨congrArg (·.current) hd, congrArg (·.edits) hd, ?_⟩
  intro i
  exact congrArg (·.currentSpan? i) hd

end DocumentSet

namespace Mutation

/-- The mutation can be undone on every set with the content of the second one, which then has the
content of the first one again. -/
def Undoes (m : Mutation) (ds ds' : DocumentSet) : Prop :=
  ∀ es : DocumentSet, es.Reachable → es.content = ds'.content →
    ∃ m' es', m.undo es = .ok (m', es') ∧ es'.Reachable ∧ es'.content = ds.content

private theorem undoes_nothing {m : Mutation} (hm : m.stage = .applied none) (ds : DocumentSet) :
    m.Undoes ds ds := by
  intro es hes hcontent
  exact ⟨{ m with stage := .undone }, es, by rw [undo, hm], hes, hcontent⟩

private theorem undoes_edit {m : Mutation} {ds : DocumentSet} {d : Document} {s : Splice}
    (hds : ds.Reachable) (hd : ds.documents[m.faulty.document]? = some d)
    (hm : m.stage = .applied (some d.nextEdit)) :
    m.Undoes ds (ds.replace m.faulty.document (d.push s)) := by
  intro es hes hcontent
  rw [DocumentSet.content_replace] at hcontent
  -- the document of the mutation has the content that its edit left
  have hlt : m.faulty.document < ds.content.length := by
    rw [DocumentSet.content, List.length_map]
    exact (List.getElem?_eq_some_iff.mp hd).1
  have hget : es.content[m.faulty.document]? = some (d.push s).content := by
    rw [hcontent, List.getElem?_set_self hlt]
  rw [DocumentSet.content, List.getElem?_map] at hget
  obtain ⟨e, he, hecontent⟩ := Option.map_eq_some_iff.mp hget
  have hundo := Document.undo_of_content hecontent
  have hereach := hes e (List.mem_of_getElem? he)
  refine ⟨{ m with stage := .undone }, es.replace m.faulty.document e.pop, ?_, ?_, ?_⟩
  · simp only [undo, hm, DocumentSet.undo, DocumentSet.document_eq_ok.mpr he, hundo]
    rfl
  · exact hes.replace (hereach.undo hundo) _
  · have hcoherent := (hds d (List.mem_of_getElem? hd)).coherent
    rw [DocumentSet.content_replace, hcontent, List.set_set, Document.content_pop hecontent,
      Document.content_push_pop hcoherent, DocumentSet.content_set hd]

private theorem map_some_ne_none {α : Type} (r : Except RepairError α) (f : α → Operation) :
    (r.map fun a => some (f a)) ≠ .ok none := by
  cases r <;> simp [Except.map]

private theorem operation_eq_none {m : Mutation} {ds : DocumentSet}
    (h : m.operation ds = .ok none) : m.kind = .null := by
  rw [operation] at h
  split at h
  · assumption
  · exact absurd h (map_some_ne_none _ _)
  · exact absurd h (map_some_ne_none _ _)
  · simp at h

theorem mutate_eq_ok {m m' : Mutation} {ds ds' : DocumentSet} (h : m.mutate ds = .ok (m', ds')) :
    m.stage = .pending ∧
    ((m.kind = .null ∧ m' = { m with stage := .applied none } ∧ ds' = ds) ∨
    (∃ reason, m.kind ≠ .null ∧
      m' = { m with stage := .applied none, skipped := some reason } ∧ ds' = ds) ∨
    (∃ d op sp, m.kind ≠ .null ∧ ds.documents[m.faulty.document]? = some d ∧
      d.apply m.faulty.index op = .ok (.applied d.nextEdit, d.push sp) ∧
      m' = { m with stage := .applied (some d.nextEdit) } ∧
      ds' = ds.replace m.faulty.document (d.push sp))) := by
  rw [mutate] at h
  split at h
  · simp at h
  · rename_i hstage
    refine ⟨not_not.mp hstage, ?_⟩
    cases hop : m.operation ds with
    | error e => simp [hop, bind, Except.bind] at h
    | ok op? =>
      cases op? with
      | none =>
        simp only [hop, bind, Except.bind, Except.ok.injEq, Prod.mk.injEq] at h
        exact .inl ⟨operation_eq_none hop, h.1.symm, h.2.symm⟩
      | some op =>
        have hkind : m.kind ≠ .null := by
          intro hnull
          simp [operation, hnull] at hop
        cases ha : ds.apply m.faulty op with
        | error e => simp [hop, ha, bind, Except.bind] at h
        | ok answer =>
          obtain ⟨o, ds₁⟩ := answer
          obtain ⟨d, d', hd, hd', rfl⟩ := DocumentSet.apply_eq_ok ha
          cases o with
          | skipped reason =>
            simp only [hop, ha, bind, Except.bind, Except.ok.injEq, Prod.mk.injEq] at h
            obtain ⟨rfl, rfl⟩ := h
            obtain rfl := Document.apply_eq_skipped hd'
            exact .inr (.inl ⟨reason, hkind, rfl, DocumentSet.replace_self hd⟩)
          | applied edit =>
            simp only [hop, ha, bind, Except.bind, Except.ok.injEq, Prod.mk.injEq] at h
            obtain ⟨rfl, rfl⟩ := h
            obtain ⟨s, sp, _, _, rfl, rfl⟩ := Document.apply_eq_applied hd'
            exact .inr (.inr ⟨d, op, sp, hkind, hd, hd', rfl, rfl⟩)

/-- A mutation that is made can be undone for as long as the content stays what it made it. -/
theorem undoes_of_mutate {m m' : Mutation} {ds ds' : DocumentSet} (hds : ds.Reachable)
    (h : m.mutate ds = .ok (m', ds')) : ds'.Reachable ∧ m'.Undoes ds ds' := by
  obtain ⟨_, ⟨_, rfl, rfl⟩ | ⟨_, _, rfl, rfl⟩ | ⟨d, op, sp, _, hd, ha, rfl, rfl⟩⟩ := mutate_eq_ok h
  · exact ⟨hds, undoes_nothing rfl _⟩
  · exact ⟨hds, undoes_nothing rfl _⟩
  · have hreach := (hds d (List.mem_of_getElem? hd)).apply ha
    exact ⟨hds.replace hreach _, undoes_edit (m := { m with stage := _ }) hds hd rfl⟩

end Mutation

end RepairSearch
