import Mathlib.Data.List.Induction
import RepairSearch.Document.Basic

/-!
# Histories of documents

A document takes calls one after the other: edits, some of which do nothing, and undos, some of
which are rejected. Whatever the calls were, the document is what the edits in force alone make of
the original text.
-/

namespace RepairSearch

/-- What can be asked of a document. -/
inductive Call where
  | apply (target : Nat) (op : Operation)
  | undo (edit : Nat)

/-- An edit as it was asked for. -/
structure Request where
  target : Nat
  op : Operation
deriving DecidableEq

namespace Document

theorem apply_cases (d : Document) (index : Nat) (op : Operation) :
    (d.statements[index]? = none ∧
      d.apply index op = .error (.unknownStatement d.path index)) ∨
    (∃ s reason, d.statements[index]? = some s ∧ d.splice? index s op = .error reason ∧
      d.apply index op = .ok (.skipped reason, d)) ∨
    (∃ s sp, d.statements[index]? = some s ∧ d.splice? index s op = .ok sp ∧
      d.apply index op = .ok (.applied d.nextEdit, d.push sp)) := by
  cases hs : d.statements[index]? with
  | none => exact .inl ⟨rfl, by simp only [apply, hs]⟩
  | some s =>
    cases hsp : d.splice? index s op with
    | error reason => exact .inr (.inl ⟨s, reason, rfl, hsp, by simp only [apply, hs, hsp]⟩)
    | ok sp => exact .inr (.inr ⟨s, sp, rfl, hsp, by simp only [apply, hs, hsp]⟩)

theorem apply_eq_applied {d d' : Document} {index n : Nat} {op : Operation}
    (h : d.apply index op = .ok (.applied n, d')) :
    ∃ s sp, d.statements[index]? = some s ∧ d.splice? index s op = .ok sp ∧ n = d.nextEdit ∧
      d' = d.push sp := by
  rcases apply_cases d index op with ⟨_, ha⟩ | ⟨s, reason, _, _, ha⟩ | ⟨s, sp, hs, hsp, ha⟩
  · rw [ha] at h
    simp at h
  · rw [ha] at h
    simp at h
  · rw [ha] at h
    simp only [Except.ok.injEq, Prod.mk.injEq, Outcome.applied.injEq] at h
    exact ⟨s, sp, hs, hsp, h.1.symm, h.2.symm⟩

theorem apply_eq_skipped {d d' : Document} {index : Nat} {op : Operation} {reason : Skip}
    (h : d.apply index op = .ok (.skipped reason, d')) : d' = d := by
  rcases apply_cases d index op with ⟨_, ha⟩ | ⟨_, _, _, _, ha⟩ | ⟨_, _, _, _, ha⟩
  · rw [ha] at h
    simp at h
  · rw [ha] at h
    simp only [Except.ok.injEq, Prod.mk.injEq] at h
    exact h.2.symm
  · rw [ha] at h
    simp at h

theorem undo_cases (d : Document) (n : Nat) :
    d.undo n = .error (.undoOutOfOrder n d.path) ∨
    ∃ edits e, d.edits = edits ++ [e] ∧ e.number = n ∧ d.undo n = .ok d.pop := by
  rw [undo]
  split
  · rename_i hlast
    obtain ⟨e, he, hn⟩ := Option.map_eq_some_iff.mp hlast
    obtain ⟨edits, hedits⟩ := List.getLast?_eq_some_iff.mp he
    exact .inr ⟨edits, e, hedits, hn, rfl⟩
  · exact .inl rfl

/-- An undo that is not rejected drops the latest edit, which is the one named. -/
theorem undo_eq_ok {d d' : Document} {n : Nat} (h : d.undo n = .ok d') :
    ∃ edits e, d.edits = edits ++ [e] ∧ e.number = n ∧ d' = d.pop := by
  rcases undo_cases d n with hu | ⟨edits, e, hedits, hn, hu⟩
  · rw [hu] at h
    simp at h
  · rw [hu, Except.ok.injEq] at h
    exact ⟨edits, e, hedits, hn, h.symm⟩

@[simp] theorem splices_push (d : Document) (s : Splice) :
    (d.push s).splices = d.splices ++ [s] := by
  simp [splices, push]

@[simp] theorem splices_pop (d : Document) : d.pop.splices = d.splices.dropLast := by
  simp [splices, pop, List.map_dropLast]

/-- The current text is what the splices in force make of the original, and the tree is its. -/
structure Coherent (d : Document) : Prop where
  current : d.current = Splice.applyAll d.splices d.original
  parsed : d.parsed = d.language.parse d.current

/-- A document as it is made, whatever its table of statements. -/
structure Fresh (d : Document) : Prop extends Coherent d where
  edits : d.edits = []

theorem fresh_ofText (path package : String) (language : Language) (text : Text) :
    (ofText path package language text).Fresh := ⟨⟨rfl, rfl⟩, rfl⟩

theorem Fresh.splices {d : Document} (h : d.Fresh) : d.splices = [] := by
  rw [Document.splices, h.edits, List.map_nil]

theorem Fresh.current_eq {d : Document} (h : d.Fresh) : d.current = d.original := by
  rw [h.current, h.splices]
  rfl

theorem Coherent.push {d : Document} (h : d.Coherent) (s : Splice) : (d.push s).Coherent := by
  refine ⟨?_, rfl⟩
  rw [splices_push, Splice.applyAll, List.foldl_append]
  change s.apply d.current = s.apply (Splice.applyAll d.splices d.original)
  rw [← h.current]

theorem coherent_pop (d : Document) : d.pop.Coherent := by
  refine ⟨?_, rfl⟩
  rw [splices_pop, splices, ← List.map_dropLast]
  rfl

/-- Documents of one original. No call changes what they share. -/
structure SameSource (d d' : Document) : Prop where
  path : d.path = d'.path
  package : d.package = d'.package
  language : d.language = d'.language
  original : d.original = d'.original
  originalTree : d.originalTree = d'.originalTree
  statements : d.statements = d'.statements

theorem SameSource.refl (d : Document) : d.SameSource d := ⟨rfl, rfl, rfl, rfl, rfl, rfl⟩

theorem SameSource.symm {d d' : Document} (h : d.SameSource d') : d'.SameSource d :=
  ⟨h.path.symm, h.package.symm, h.language.symm, h.original.symm, h.originalTree.symm,
    h.statements.symm⟩

theorem SameSource.trans {d d' d'' : Document} (h : d.SameSource d') (h' : d'.SameSource d'') :
    d.SameSource d'' :=
  ⟨h.path.trans h'.path, h.package.trans h'.package, h.language.trans h'.language,
    h.original.trans h'.original, h.originalTree.trans h'.originalTree,
    h.statements.trans h'.statements⟩

theorem sameSource_push (d : Document) (s : Splice) : (d.push s).SameSource d :=
  ⟨rfl, rfl, rfl, rfl, rfl, rfl⟩

theorem sameSource_pop (d : Document) : d.pop.SameSource d := ⟨rfl, rfl, rfl, rfl, rfl, rfl⟩

/-- Documents of one original with the same text, the same tree and the same splices in force.
Their edits may have other numbers. -/
structure Alike (d d' : Document) : Prop extends SameSource d d' where
  current : d.current = d'.current
  parsed : d.parsed = d'.parsed
  splices : d.splices = d'.splices

namespace Alike

variable {d d' : Document}

private theorem refl (d : Document) : d.Alike d := ⟨SameSource.refl d, rfl, rfl, rfl⟩

theorem currentSpan? (h : d.Alike d') (i : Nat) : d.currentSpan? i = d'.currentSpan? i := by
  rw [Document.currentSpan?, Document.currentSpan?, h.statements, h.splices]

private theorem profile (h : d.Alike d') :
    d.profile = d'.profile := congrArg Language.profile h.language

private theorem surroundings (h : d.Alike d') (s : Syntax.Statement) (place : Span) :
    d.surroundings s place = d'.surroundings s place := by
  rw [Document.surroundings, Document.surroundings, h.parsed, h.profile]

private theorem sharesLine (h : d.Alike d') (offset : Nat) :
    d.sharesLine offset = d'.sharesLine offset := by
  rw [Document.sharesLine, Document.sharesLine, h.current]

private theorem spliceOf (h : d.Alike d') (op : Operation) (place : Span) (alone : Bool) :
    d.spliceOf op place alone = d'.spliceOf op place alone := by
  cases op with
  | insertBefore donor => simp only [Document.spliceOf, h.sharesLine, h.current, h.profile]
  | replace donor => simp only [Document.spliceOf, h.current]
  | delete => simp only [Document.spliceOf, h.current, h.profile]

private theorem splice? (h : d.Alike d') (i : Nat) (s : Syntax.Statement) (op : Operation) :
    d.splice? i s op = d'.splice? i s op := by
  simp only [Document.splice?, h.currentSpan?, h.current, h.surroundings, h.spliceOf]

private theorem push (h : d.Alike d') (s : Splice) : (d.push s).Alike (d'.push s) := by
  have hsrc := (sameSource_push d s).trans (h.toSameSource.trans (sameSource_push d' s).symm)
  refine ⟨hsrc, ?_, ?_, ?_⟩
  · exact congrArg s.apply h.current
  · change d.language.parse (s.apply d.current) = d'.language.parse (s.apply d'.current)
    rw [h.language, h.current]
  · rw [splices_push, splices_push, h.splices]

/-- Coherent documents of one original are alike as soon as their splices are. -/
theorem of_splices (hd : d.Coherent) (hd' : d'.Coherent) (hsrc : d.SameSource d')
    (hsp : d.splices = d'.splices) : d.Alike d' := by
  have hcur : d.current = d'.current := by rw [hd.current, hd'.current, hsp, hsrc.original]
  exact ⟨hsrc, hcur, by rw [hd.parsed, hd'.parsed, hsrc.language, hcur], hsp⟩

end Alike

/-- The document after an edit, if it can be made. -/
def applied? (d : Document) (r : Request) : Option Document :=
  match d.apply r.target r.op with
  | .ok (.applied _, d') => some d'
  | _ => none

/-- The document after several edits, if all of them can be made. -/
def replay? (d : Document) (rs : List Request) : Option Document := rs.foldlM applied? d

theorem applied?_eq_some {d d' : Document} {r : Request} (h : d.applied? r = some d') :
    ∃ s sp, d.statements[r.target]? = some s ∧ d.splice? r.target s r.op = .ok sp ∧
      d' = d.push sp := by
  rw [applied?] at h
  split at h
  · rename_i n d'' ha
    obtain ⟨s, sp, hs, hsp, _, hd⟩ := apply_eq_applied ha
    exact ⟨s, sp, hs, hsp, by rw [← Option.some.inj h, hd]⟩
  · simp at h

theorem applied?_of_splice? {d : Document} {r : Request} {s : Syntax.Statement} {sp : Splice}
    (hs : d.statements[r.target]? = some s) (hsp : d.splice? r.target s r.op = .ok sp) :
    d.applied? r = some (d.push sp) := by
  simp only [applied?, apply, hs, hsp]

theorem replay?_concat (d : Document) (rs : List Request) (r : Request) :
    d.replay? (rs ++ [r]) = (d.replay? rs).bind (·.applied? r) := by
  simp only [replay?, List.foldlM_append, List.foldlM_cons, List.foldlM_nil, Option.bind_eq_bind,
    Option.pure_def, Option.bind_fun_some]

/-- The last edit of a replay is made where the others have led. -/
theorem replay?_concat_eq_some {d d' : Document} {rs : List Request} {r : Request}
    (h : d.replay? (rs ++ [r]) = some d') :
    ∃ d₁ s sp, d.replay? rs = some d₁ ∧ d₁.statements[r.target]? = some s ∧
      d₁.splice? r.target s r.op = .ok sp ∧ d' = d₁.push sp := by
  rw [replay?_concat] at h
  obtain ⟨d₁, hd₁, ha⟩ := Option.bind_eq_some_iff.mp h
  obtain ⟨s, sp, hs, hsp, rfl⟩ := applied?_eq_some ha
  exact ⟨d₁, s, sp, hd₁, hs, hsp, rfl⟩

/-- What every edit keeps that can be made, a replay keeps. -/
theorem replay?_keeps {P : Document → Prop}
    (hstep : ∀ (d : Document) (r : Request) (s : Syntax.Statement) (sp : Splice), P d →
      d.statements[r.target]? = some s → d.splice? r.target s r.op = .ok sp → P (d.push sp))
    {d d' : Document} {rs : List Request} (hr : d.replay? rs = some d') (h : P d) : P d' := by
  induction rs using List.reverseRecOn generalizing d' with
  | nil =>
    rw [← Option.some.inj hr]
    exact h
  | append_singleton rs r ih =>
    obtain ⟨d₁, s, sp, hd₁, hs, hsp, rfl⟩ := replay?_concat_eq_some hr
    exact hstep d₁ r s sp (ih hd₁) hs hsp

private theorem Coherent.replay {d d' : Document} (h : d.Coherent) {rs : List Request}
    (hr : d.replay? rs = some d') : d'.Coherent :=
  replay?_keeps (P := Coherent) (fun _ _ _ sp hd _ _ => hd.push sp) hr h

theorem replay?_sameSource {d d' : Document} {rs : List Request} (hr : d.replay? rs = some d') :
    d'.SameSource d :=
  replay?_keeps (P := (SameSource · d)) (fun d₁ _ _ sp hd _ _ => (sameSource_push d₁ sp).trans hd)
    hr (SameSource.refl d)

private theorem replay?_length {d d' : Document} {rs : List Request} (hr : d.replay? rs = some d') :
    d'.splices.length = d.splices.length + rs.length := by
  induction rs using List.reverseRecOn generalizing d' with
  | nil =>
    rw [← Option.some.inj hr]
    rfl
  | append_singleton rs r ih =>
    obtain ⟨d₁, s, sp, hd₁, _, _, rfl⟩ := replay?_concat_eq_some hr
    rw [splices_push, List.length_append, ih hd₁, List.length_append, Nat.add_assoc]
    rfl

end Document

/-- A document with the requests behind its edits in force, the earliest first. -/
structure History where
  document : Document
  active : List Request

namespace History

def start (d : Document) : History := ⟨d, []⟩

/-- One call. A call that fails or is skipped puts nothing in force and takes nothing back. -/
def step (h : History) : Call → History
  | .apply target op =>
    match h.document.apply target op with
    | .ok (.applied _, d) => ⟨d, h.active ++ [⟨target, op⟩]⟩
    | .ok (.skipped _, d) => ⟨d, h.active⟩
    | .error _ => h
  | .undo edit =>
    match h.document.undo edit with
    | .ok d => ⟨d, h.active.dropLast⟩
    | .error _ => h

def run (h : History) (calls : List Call) : History := calls.foldl step h

theorem run_append (h : History) (calls more : List Call) :
    h.run (calls ++ more) = (h.run calls).run more := List.foldl_append

theorem step_cases (h : History) (c : Call) :
    h.step c = h ∨
    (∃ target op s sp, c = .apply target op ∧ h.document.statements[target]? = some s ∧
      h.document.splice? target s op = .ok sp ∧
      h.step c = ⟨h.document.push sp, h.active ++ [⟨target, op⟩]⟩) ∨
    (∃ edits e, h.document.edits = edits ++ [e] ∧
      h.step c = ⟨h.document.pop, h.active.dropLast⟩) := by
  cases c with
  | apply target op =>
    rcases h.document.apply_cases target op with ⟨_, ha⟩ | ⟨_, _, _, _, ha⟩ | ⟨s, sp, hs, hsp, ha⟩
    · exact .inl (by simp only [step, ha])
    · exact .inl (by simp only [step, ha])
    · exact .inr (.inl ⟨target, op, s, sp, rfl, hs, hsp, by simp only [step, ha]⟩)
  | undo edit =>
    rcases h.document.undo_cases edit with hu | ⟨edits, e, hedits, _, hu⟩
    · exact .inl (by simp only [step, hu])
    · exact .inr (.inr ⟨edits, e, hedits, by simp only [step, hu]⟩)

/-- The document is what a replay of the active requests makes of another one. -/
structure Replays (d₀ : Document) (h : History) : Prop where
  coherent : h.document.Coherent
  replay : ∃ d, d₀.replay? h.active = some d ∧ h.document.Alike d

private theorem Replays.step {d₀ : Document} {h : History} (h₀ : d₀.Fresh)
    (hr : h.Replays d₀) (c : Call) : (h.step c).Replays d₀ := by
  obtain ⟨d, hd, halike⟩ := hr.replay
  rcases step_cases h c with hc | ⟨target, op, s, sp, _, hs, hsp, hc⟩ | ⟨edits, e, hedits, hc⟩
  · rwa [hc]
  · rw [hc]
    refine ⟨hr.coherent.push sp, d.push sp, ?_, halike.push sp⟩
    rw [Document.replay?_concat, hd, Option.bind_some]
    exact Document.applied?_of_splice? (halike.statements ▸ hs) (halike.splice? target s op ▸ hsp)
  · rw [hc]
    have hlen : h.active.length = edits.length + 1 := by
      have hl := Document.replay?_length hd
      rw [← halike.splices, Document.splices, Document.splices, h₀.edits, hedits] at hl
      simpa using hl.symm
    have hne : h.active ≠ [] := by
      intro hnil
      simp [hnil] at hlen
    obtain ⟨rs, r, hactive⟩ := h.active.eq_nil_or_concat.resolve_left hne
    rw [List.concat_eq_append] at hactive
    rw [hactive] at hd
    obtain ⟨d₁, s, sp, hd₁, _, _, rfl⟩ := Document.replay?_concat_eq_some hd
    refine ⟨Document.coherent_pop _, d₁, by rwa [hactive, List.dropLast_concat], ?_⟩
    have hsrc := (Document.sameSource_pop h.document).trans
      (halike.toSameSource.trans (Document.sameSource_push d₁ sp))
    refine Document.Alike.of_splices (Document.coherent_pop _) (h₀.toCoherent.replay hd₁) hsrc ?_
    rw [Document.splices_pop, halike.splices, Document.splices_push, List.dropLast_concat]

theorem Replays.sameSource {d₀ : Document} {h : History} (hr : h.Replays d₀) :
    h.document.SameSource d₀ := by
  obtain ⟨d, hd, halike⟩ := hr.replay
  exact halike.toSameSource.trans (Document.replay?_sameSource hd)

private theorem Replays.run {d₀ : Document} {h : History} (h₀ : d₀.Fresh)
    (hr : h.Replays d₀) (calls : List Call) : (h.run calls).Replays d₀ := by
  induction calls generalizing h with
  | nil => exact hr
  | cons c calls ih => exact ih (hr.step h₀ c)

end History

theorem Document.Fresh.replays {d₀ : Document} (h₀ : d₀.Fresh) (calls : List Call) :
    ((History.start d₀).run calls).Replays d₀ :=
  History.Replays.run h₀ ⟨h₀.toCoherent, d₀, rfl, Document.Alike.refl d₀⟩ calls

end RepairSearch
