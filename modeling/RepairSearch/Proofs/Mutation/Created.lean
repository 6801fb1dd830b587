import RepairSearch.Proofs.Document.Force

/-!
# Mutations as they are created

A mutation that was created on a set of documents names statements of that set, so it can be made
there and on all that edits make of the set. It is undone if its edit is the latest one of its
document, or if it has made none.
-/

namespace RepairSearch

/-- A document is what calls have made of another one. -/
structure Document.Continues (d₀ d : Document) : Prop where
  source : d.SameSource d₀
  numbers : d₀.nextEdit ≤ d.nextEdit

theorem Document.continues_push (d : Document) (s : Splice) : d.Continues (d.push s) :=
  ⟨sameSource_push d s, Nat.le_succ _⟩

theorem Document.continues_pop (d : Document) : d.Continues d.pop :=
  ⟨sameSource_pop d, Nat.le_refl _⟩

namespace DocumentSet

/-- The set has a statement of this name. -/
def Knows (ds : DocumentSet) (r : StatementRef) : Prop :=
  ∃ d s, ds.documents[r.document]? = some d ∧ d.statements[r.index]? = some s

/-- The documents are what calls have made of those of another set. -/
def Continues (ds₀ ds : DocumentSet) : Prop :=
  ∀ (n : Nat) (d₀ : Document), ds₀.documents[n]? = some d₀ →
    ∃ d, ds.documents[n]? = some d ∧ d₀.Continues d

variable {ds₀ ds : DocumentSet} {r : StatementRef} {d d' : Document} {n : Nat}

theorem Continues.refl (ds : DocumentSet) : ds.Continues ds :=
  fun _ d hd => ⟨d, hd, Document.SameSource.refl d, Nat.le_refl _⟩

theorem Continues.replace (h : ds₀.Continues ds) (hd : ds.documents[n]? = some d)
    (hd' : d.Continues d') : ds₀.Continues (ds.replace n d') := by
  intro k d₀ hd₀
  obtain ⟨e, he, hcontinues⟩ := h k d₀ hd₀
  by_cases hk : n = k
  · subst hk
    obtain rfl : d = e := Option.some.inj (hd.symm.trans he)
    have hlt := (List.getElem?_eq_some_iff.mp hd).1
    exact ⟨d', List.getElem?_set_self hlt, hd'.source.trans hcontinues.source,
      Nat.le_trans hcontinues.numbers hd'.numbers⟩
  · exact ⟨e, (List.getElem?_set_ne hk).trans he, hcontinues⟩

theorem Continues.knows (h : ds₀.Continues ds) (hr : ds₀.Knows r) : ds.Knows r := by
  obtain ⟨d₀, s, hd₀, hs⟩ := hr
  obtain ⟨d, hd, hcontinues⟩ := h _ d₀ hd₀
  exact ⟨d, s, hd, hcontinues.source.statements ▸ hs⟩

theorem ask_eq_ok {α : Type} {question : Document → Nat → Option α} {a : α} :
    ds.ask r question = .ok a ↔
      ∃ d, ds.documents[r.document]? = some d ∧ question d r.index = some a := by
  rw [ask]
  constructor
  · intro h
    split at h
    · cases h
    · rename_i d hd
      split at h
      · rename_i b hb
        exact ⟨d, document_eq_ok.mp hd, hb.trans (congrArg some (Except.ok.inj h))⟩
      · cases h
  · rintro ⟨d, hd, ha⟩
    simp only [document_eq_ok.mpr hd, ha]

private theorem Knows.ask {α : Type} {question : Document → Nat → Option α} (h : ds.Knows r)
    (hquestion : ∀ d s, d.statements[r.index]? = some s → ∃ a, question d r.index = some a) :
    ∃ a, ds.ask r question = .ok a := by
  obtain ⟨d, s, hd, hs⟩ := h
  obtain ⟨a, ha⟩ := hquestion d s hs
  exact ⟨a, ask_eq_ok.mpr ⟨d, hd, ha⟩⟩

private theorem Knows.donor (h : ds.Knows r) : ∃ donor, ds.donor r = .ok donor := by
  refine h.ask fun d s hs => ?_
  rw [Document.donor?, hs]
  exact ⟨_, rfl⟩

private theorem knows_of_location {place : String} (h : ds.location r = .ok place) :
    ds.Knows r := by
  obtain ⟨d, hd, hplace⟩ := ask_eq_ok.mp h
  obtain ⟨s, hs, _⟩ := Option.map_eq_some_iff.mp hplace
  exact ⟨d, s, hd, hs⟩

private theorem Knows.apply (h : ds.Knows r) (op : Operation) :
    ∃ answer, ds.apply r op = .ok answer := by
  obtain ⟨d, s, hd, hs⟩ := h
  simp only [DocumentSet.apply, document_eq_ok.mpr hd]
  rcases d.apply_cases r.index op with ⟨hnone, _⟩ | ⟨_, reason, _, _, ha⟩ | ⟨_, sp, _, _, ha⟩
  · rw [hnone] at hs
    cases hs
  · exact ⟨_, by rw [ha]⟩
  · exact ⟨_, by rw [ha]⟩

private theorem undo_eq_ok {e : Nat} {ds' : DocumentSet} (h : ds.undo n e = .ok ds') :
    ∃ d edits edit, ds.documents[n]? = some d ∧ d.edits = edits ++ [edit] ∧ edit.number = e ∧
      ds' = ds.replace n d.pop := by
  rw [undo] at h
  split at h
  · cases h
  · rename_i d hd
    rcases d.undo_cases e with hu | ⟨edits, edit, hedits, hnumber, hu⟩
    · simp only [hu] at h
      cases h
    · simp only [hu] at h
      exact ⟨d, edits, edit, document_eq_ok.mp hd, hedits, hnumber, (Except.ok.inj h).symm⟩

private theorem undo_of_last {e : Nat} (h : (ds.inForce n).getLast? = some e) :
    ∃ ds', ds.undo n e = .ok ds' := by
  cases hd : ds.documents[n]? with
  | none =>
    rw [inForce, hd] at h
    cases h
  | some d =>
    rw [inForce_eq hd, List.getLast?_map] at h
    simp only [undo, document_eq_ok.mpr hd, Document.undo, if_pos h]
    exact ⟨_, rfl⟩

private theorem undo_of_not_last {e : Nat} (hd : ds.documents[n]? = some d)
    (h : (ds.inForce n).getLast? ≠ some e) : ds.undo n e = .error (.undoOutOfOrder e d.path) := by
  rw [inForce_eq hd, List.getLast?_map] at h
  simp only [undo, document_eq_ok.mpr hd, Document.undo, if_neg h]

end DocumentSet

namespace Mutation

variable {ds ds' : DocumentSet} {kind : MutationKind} {faulty : StatementRef}
  {seed : Option StatementRef} {m m' : Mutation}

private theorem knows_of_describeStatement {role text : String} {r : StatementRef}
    (h : describeStatement role ds r = .ok text) : ds.Knows r := by
  rw [describeStatement] at h
  split at h
  · rename_i hplace _
    exact DocumentSet.knows_of_location hplace
  · cases h
  · cases h

/-- A created mutation is pending, and its description is about the statements that it names. -/
theorem describe_of_create (h : create kind faulty seed ds = .ok m) :
    (kind.needsSeed = true → ∃ r, seed = some r) ∧ ∃ first second,
      describeStatement "faulty" ds faulty = .ok first ∧
      (match seed with
        | some r => describeStatement "seed" ds r = .ok second
        | none => second = "") ∧
      m = ⟨kind, faulty, seed, .pending, none, kind.title ++ " mutation\n" ++ first ++ second⟩ := by
  rw [create] at h
  split at h
  · cases h
  rename_i hseed
  constructor
  · intro hneeds
    cases seed with
    | none => simp [hneeds] at hseed
    | some r => exact ⟨r, rfl⟩
  cases hd : describe kind faulty seed ds with
  | error e => simp [hd, bind, Except.bind] at h
  | ok description =>
    simp only [hd, bind, Except.bind, Except.ok.injEq] at h
    rw [describe] at hd
    cases hfirst : describeStatement "faulty" ds faulty with
    | error e => simp [hfirst, bind, Except.bind] at hd
    | ok first =>
      cases seed with
      | none =>
        simp only [hfirst, bind, Except.bind, Except.ok.injEq] at hd
        exact ⟨first, "", rfl, rfl, by rw [← h, ← hd]⟩
      | some r =>
        cases hsecond : describeStatement "seed" ds r with
        | error e => simp [hfirst, hsecond, bind, Except.bind] at hd
        | ok second =>
          simp only [hfirst, hsecond, bind, Except.bind, Except.ok.injEq] at hd
          exact ⟨first, second, rfl, hsecond, by rw [← h, ← hd]⟩

theorem create_eq_ok (h : create kind faulty seed ds = .ok m) :
    m.stage = .pending ∧ m.skipped = none ∧ ds.Knows m.faulty ∧
      (m.kind.needsSeed = true → ∃ r, m.seed = some r ∧ ds.Knows r) := by
  obtain ⟨hseed, first, second, hfirst, hsecond, rfl⟩ := describe_of_create h
  refine ⟨rfl, rfl, knows_of_describeStatement hfirst, fun hneeds => ?_⟩
  obtain ⟨r, rfl⟩ := hseed hneeds
  exact ⟨r, rfl, knows_of_describeStatement hsecond⟩

theorem aims_of_create (h : create kind faulty seed ds = .ok m) :
    m.kind = kind ∧ m.faulty = faulty := by
  obtain ⟨_, _, _, _, _, rfl⟩ := describe_of_create h
  exact ⟨rfl, rfl⟩

private theorem describeStatement_of_knows {r : StatementRef} (h : ds.Knows r) (role : String) :
    ∃ text, describeStatement role ds r = .ok text := by
  obtain ⟨place, hplace⟩ : ∃ place, ds.location r = .ok place :=
    h.ask fun d s hs => ⟨s!"{d.path}:{s.line}", by rw [hs, Option.map_some]⟩
  obtain ⟨text, htext⟩ : ∃ text, ds.statementText r = .ok text :=
    h.ask fun d s hs => ⟨d.original.slice s.start s.stop, by rw [Document.statementText?, hs]; rfl⟩
  rw [describeStatement, hplace, htext]
  exact ⟨_, rfl⟩

/-- A mutation of statements that the documents have can be created, and is pending. -/
theorem create_of_knows (hfaulty : ds.Knows faulty)
    (hseed : kind.needsSeed = true → ∃ r, seed = some r)
    (hknows : ∀ r, seed = some r → ds.Knows r) :
    ∃ m, create kind faulty seed ds = .ok m := by
  have hpresent : ¬ (kind.needsSeed && seed.isNone) = true := by
    intro h
    obtain ⟨hneeds, hnone⟩ := Bool.and_eq_true_iff.mp h
    obtain ⟨r, rfl⟩ := hseed hneeds
    cases hnone
  obtain ⟨first, hfirst⟩ := describeStatement_of_knows hfaulty "faulty"
  rw [create, if_neg hpresent, describe, hfirst]
  cases seed with
  | none => exact ⟨_, rfl⟩
  | some r =>
    obtain ⟨second, hsecond⟩ := describeStatement_of_knows (hknows r rfl) "seed"
    simp only [bind, Except.bind, hsecond]
    exact ⟨_, rfl⟩

/-- A pending mutation can be made on documents that know its statements. -/
theorem mutate_of_knows (hstage : m.stage = .pending) (hfaulty : ds.Knows m.faulty)
    (hseed : m.kind.needsSeed = true → ∃ r, m.seed = some r ∧ ds.Knows r) :
    ∃ made, m.mutate ds = .ok made := by
  have hoperation : ∃ op, m.operation ds = .ok op := by
    have hdonor (hneeds : m.kind.needsSeed = true) : ∃ donor, m.donor ds = .ok donor := by
      obtain ⟨r, hr, hknows⟩ := hseed hneeds
      rw [donor, hr]
      exact hknows.donor
    rw [operation]
    cases hkind : m.kind with
    | null | deletion => exact ⟨_, rfl⟩
    | addition | replacement =>
      obtain ⟨donor, hdonor⟩ := hdonor (by rw [hkind]; rfl)
      simp only [hdonor]
      exact ⟨_, rfl⟩
  obtain ⟨op, hop⟩ := hoperation
  rw [mutate, if_neg (not_not.mpr hstage), hop]
  cases op with
  | none => exact ⟨_, rfl⟩
  | some op =>
    obtain ⟨⟨outcome, ds'⟩, ha⟩ := hfaulty.apply op
    simp only [bind, Except.bind, ha]
    cases outcome with
    | applied edit => exact ⟨_, rfl⟩
    | skipped reason => exact ⟨_, rfl⟩

theorem mutate_of_not_pending (h : m.stage ≠ .pending) :
    m.mutate ds = .error (.mutationState .madeTwice) := by
  rw [mutate, if_pos h]

private theorem undo_eq_ok (h : m.undo ds = .ok (m', ds')) :
    m' = { m with stage := .undone } ∧ ((m.stage = .applied none ∧ ds' = ds) ∨
      ∃ e d edits edit, m.stage = .applied (some e) ∧ ds.documents[m.document]? = some d ∧
        d.edits = edits ++ [edit] ∧ edit.number = e ∧ ds' = ds.replace m.document d.pop) := by
  rw [undo] at h
  split at h
  · rename_i hstage
    simp only [Except.ok.injEq, Prod.mk.injEq] at h
    exact ⟨h.1.symm, .inl ⟨hstage, h.2.symm⟩⟩
  · rename_i e hstage
    cases hu : ds.undo m.faulty.document e with
    | error error => simp [hu, bind, Except.bind] at h
    | ok ds₁ =>
      simp only [hu, bind, Except.bind, Except.ok.injEq, Prod.mk.injEq] at h
      obtain ⟨d, edits, edit, hd, hedits, hnumber, rfl⟩ := DocumentSet.undo_eq_ok hu
      exact ⟨h.1.symm, .inr ⟨e, d, edits, edit, hstage, hd, hedits, hnumber, h.2.symm⟩⟩
  · cases h

/-- A mutation is undone if it has made no edit, or if its edit is the latest one. -/
theorem undo_isOk_iff : (∃ undone, m.undo ds = .ok undone) ↔
    m.stage = .applied none ∨
      ∃ e, m.stage = .applied (some e) ∧ (ds.inForce m.document).getLast? = some e := by
  constructor
  · rintro ⟨⟨m', ds'⟩, h⟩
    obtain ⟨_, ⟨hstage, _⟩ | ⟨e, d, edits, edit, hstage, hd, hedits, hnumber, _⟩⟩ := undo_eq_ok h
    · exact .inl hstage
    · refine .inr ⟨e, hstage, ?_⟩
      rw [DocumentSet.inForce_eq hd, hedits, List.map_append, List.map_singleton,
        List.getLast?_concat, hnumber]
  · rintro (hstage | ⟨e, hstage, hlast⟩)
    · exact ⟨_, by rw [undo, hstage]⟩
    · obtain ⟨ds', hu⟩ := DocumentSet.undo_of_last hlast
      refine ⟨({ m with stage := .undone }, ds'), ?_⟩
      change ds.undo m.faulty.document e = _ at hu
      simp only [undo, hstage, hu]
      rfl

theorem undo_of_not_last {e : Nat} {d : Document} (hstage : m.stage = .applied (some e))
    (hd : ds.documents[m.document]? = some d) (h : (ds.inForce m.document).getLast? ≠ some e) :
    m.undo ds = .error (.undoOutOfOrder e d.path) := by
  have hu : ds.undo m.faulty.document e = _ := DocumentSet.undo_of_not_last hd h
  simp only [undo, hstage, hu]
  rfl

theorem undo_of_not_applied (h : m.isApplied = false) :
    m.undo ds = .error (.mutationState .undoneUnmade) := by
  rw [isApplied] at h
  cases hstage : m.stage with
  | pending | undone => rw [undo, hstage]
  | applied edit => simp [hstage] at h

theorem stage_of_mutate (h : m.mutate ds = .ok (m', ds')) :
    m.stage = .pending ∧ m'.stage = .applied m'.edit? := by
  obtain ⟨hstage, ⟨_, rfl, _⟩ | ⟨_, _, rfl, _⟩ | ⟨_, _, _, _, _, _, rfl, _⟩⟩ := mutate_eq_ok h <;>
    exact ⟨hstage, rfl⟩

theorem stage_of_undo (h : m.undo ds = .ok (m', ds')) :
    m.stage = .applied m.edit? ∧ m'.stage = .undone := by
  obtain ⟨rfl, ⟨hstage, _⟩ | ⟨e, _, _, _, hstage, _⟩⟩ := undo_eq_ok h <;>
    exact ⟨by rw [edit?, hstage], rfl⟩

/-- Making a mutation changes one document at most, by its edit. -/
theorem documents_of_mutate (h : m.mutate ds = .ok (m', ds')) :
    (ds' = ds ∧ m'.edit? = none) ∨
    ∃ d sp, ds.documents[m'.document]? = some d ∧ ds' = ds.replace m'.document (d.push sp) ∧
      m'.edit? = some d.nextEdit := by
  obtain ⟨_, ⟨_, rfl, rfl⟩ | ⟨_, _, rfl, rfl⟩ | ⟨d, _, sp, _, hd, _, rfl, rfl⟩⟩ := mutate_eq_ok h
  · exact .inl ⟨rfl, rfl⟩
  · exact .inl ⟨rfl, rfl⟩
  · exact .inr ⟨d, sp, hd, rfl, rfl⟩

/-- Undoing a mutation changes one document at most, by taking its edit back. -/
theorem documents_of_undo (h : m.undo ds = .ok (m', ds')) :
    (ds' = ds ∧ m.edit? = none) ∨
    ∃ d edits edit, ds.documents[m.document]? = some d ∧ d.edits = edits ++ [edit] ∧
      ds' = ds.replace m.document d.pop ∧ m.edit? = some edit.number := by
  obtain ⟨_, ⟨hstage, rfl⟩ | ⟨e, d, edits, edit, hstage, hd, hedits, hnumber, rfl⟩⟩ :=
    undo_eq_ok h
  · exact .inl ⟨rfl, by rw [edit?, hstage]⟩
  · exact .inr ⟨d, edits, edit, hd, hedits, rfl, by rw [edit?, hstage, hnumber]⟩

/-- A mutation is what calls have made of another one. -/
structure Continues (m₀ m : Mutation) : Prop where
  kind : m.kind = m₀.kind
  faulty : m.faulty = m₀.faulty
  seed : m.seed = m₀.seed

theorem Continues.refl (m : Mutation) : m.Continues m := ⟨rfl, rfl, rfl⟩

theorem Continues.trans {m₀ : Mutation} (h : m₀.Continues m) (h' : m.Continues m') :
    m₀.Continues m' :=
  ⟨h'.kind.trans h.kind, h'.faulty.trans h.faulty, h'.seed.trans h.seed⟩

/-- A mutation that is made has an edit, unless it changes nothing or was skipped. -/
structure Consistent (m : Mutation) : Prop where
  pending : m.stage = .pending → m.skipped = none
  applied : ∀ edit, m.stage = .applied edit →
    (edit = none ↔ m.kind = .null ∨ m.skipped.isSome = true)

theorem continues_of_mutate (h : m.mutate ds = .ok (m', ds')) : m.Continues m' := by
  obtain ⟨_, ⟨_, rfl, _⟩ | ⟨_, _, rfl, _⟩ | ⟨_, _, _, _, _, _, rfl, _⟩⟩ := mutate_eq_ok h <;>
    exact ⟨rfl, rfl, rfl⟩

theorem continues_of_undo (h : m.undo ds = .ok (m', ds')) : m.Continues m' := by
  obtain ⟨rfl, _⟩ := undo_eq_ok h
  exact ⟨rfl, rfl, rfl⟩

theorem consistent_of_create (h : create kind faulty seed ds = .ok m) : m.Consistent := by
  obtain ⟨hstage, hskipped, _⟩ := create_eq_ok h
  refine ⟨fun _ => hskipped, fun edit hedit => ?_⟩
  rw [hstage] at hedit
  cases hedit

theorem Consistent.mutate (hm : m.Consistent) (h : m.mutate ds = .ok (m', ds')) :
    m'.Consistent := by
  obtain ⟨hstage, hmade⟩ := mutate_eq_ok h
  have hskipped := hm.pending hstage
  obtain ⟨hkind, rfl, _⟩ | ⟨_, hkind, rfl, _⟩ | ⟨_, _, _, hkind, _, _, rfl, _⟩ := hmade <;>
    refine ⟨fun hpending => (nomatch hpending), fun edit hedit => ?_⟩ <;>
    obtain rfl := Stage.applied.inj hedit
  · simp [hkind]
  · simp
  · simp [hkind, hskipped]

theorem consistent_of_undo (h : m.undo ds = .ok (m', ds')) : m'.Consistent := by
  obtain ⟨rfl, _⟩ := undo_eq_ok h
  exact ⟨fun hpending => (nomatch hpending), fun edit hedit => (nomatch hedit)⟩

end Mutation

end RepairSearch
