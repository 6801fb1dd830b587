import RepairSearch.Proofs.Document.Deletion
import RepairSearch.Proofs.Document.History
import RepairSearch.Proofs.Document.Move

/-!
# Places of statements

In every state of a document the statements that are left have non-empty places inside the current
text, which are nested and ordered as the statements were in the original. What an edit cuts out of
the text is the place of its target, without the blanks at its end, and white space around it.
-/

namespace RepairSearch

instance (p q : Span) : Decidable (p.Within q) :=
  inferInstanceAs (Decidable (q.start ≤ p.start ∧ p.stop ≤ q.stop))

/-- The range of a statement in the original. -/
def Syntax.Statement.span (s : Syntax.Statement) : Span := ⟨s.start, s.stop⟩

/-- Whether an operation takes its target out of the text. -/
def Operation.Removes : Operation → Prop
  | .insertBefore _ => False
  | .replace _ | .delete => True

namespace Document

/-- The statements have non-empty ranges of the original, which are nested or apart, and their texts
neither start nor end with white space. -/
structure WellPlaced (d : Document) : Prop where
  nonempty : ∀ s ∈ d.statements, s.start < s.stop
  inside : ∀ s ∈ d.statements, s.stop ≤ d.original.length
  nested : ∀ s ∈ d.statements, ∀ t ∈ d.statements,
    s.span.Within t.span ∨ t.span.Within s.span ∨ s.stop ≤ t.start ∨ t.stop ≤ s.start
  solid : ∀ s ∈ d.statements, (d.original.slice s.start s.stop).isSolid = true

theorem WellPlaced.of_sameSource {d d' : Document} (h : d.WellPlaced) (hsrc : d'.SameSource d) :
    d'.WellPlaced where
  nonempty := hsrc.statements ▸ h.nonempty
  inside := by
    rw [hsrc.statements, hsrc.original]
    exact h.inside
  nested := hsrc.statements ▸ h.nested
  solid := by
    rw [hsrc.statements, hsrc.original]
    exact h.solid

theorem currentSpan?_eq {d : Document} {i : Nat} {s : Syntax.Statement}
    (hs : d.statements[i]? = some s) : d.currentSpan? i = Splice.moveAll d.splices s.span := by
  simp only [currentSpan?, hs, Option.bind_eq_bind, Option.bind_some]
  rfl

theorem currentSpan?_eq_some {d : Document} {i : Nat} {p : Span} (h : d.currentSpan? i = some p) :
    ∃ s, d.statements[i]? = some s ∧ Splice.moveAll d.splices s.span = some p := by
  obtain ⟨s, hs, hp⟩ := Option.bind_eq_some_iff.mp h
  exact ⟨s, hs, hp⟩

theorem Fresh.currentSpan? {d : Document} (h : d.Fresh) {i : Nat} {s : Syntax.Statement}
    (hs : d.statements[i]? = some s) : d.currentSpan? i = some s.span := by
  rw [currentSpan?_eq hs, h.splices, Splice.moveAll_nil]

theorem currentSpan?_push (d : Document) (sp : Splice) (i : Nat) :
    (d.push sp).currentSpan? i = (d.currentSpan? i).bind sp.move := by
  cases hs : d.statements[i]? with
  | none => simp [Document.currentSpan?, push, withText, hs]
  | some s =>
    rw [currentSpan?_eq (d := d.push sp) hs, splices_push, Splice.moveAll_concat,
      currentSpan?_eq hs]

theorem splice?_eq_ok {d : Document} {i : Nat} {s : Syntax.Statement} {op : Operation}
    {sp : Splice} (h : d.splice? i s op = .ok sp) :
    ∃ span alone, d.currentSpan? i = some span ∧
      sp = d.spliceOf op ⟨span.start, d.current.trimmedEnd span.start span.stop⟩ alone := by
  rw [splice?] at h
  split at h
  · simp at h
  · rename_i span hspan
    simp only at h
    split at h
    · exact ⟨span, _, hspan, (Except.ok.inj h).symm⟩
    · simp at h

theorem splice?_insertBefore {d : Document} {i : Nat} {s : Syntax.Statement} {op : Operation}
    {sp : Splice} (h : d.splice? i s op = .ok sp) (hop : ¬ op.Removes) :
    ∃ span, d.currentSpan? i = some span ∧ sp.start = span.start ∧ sp.stop = span.start := by
  obtain ⟨span, alone, hspan, rfl⟩ := splice?_eq_ok h
  cases op with
  | insertBefore donor => exact ⟨span, hspan, rfl, rfl⟩
  | replace donor => exact absurd trivial hop
  | delete => exact absurd trivial hop

private theorem cutsAround_self {t text : Text} {start stop : Nat} (hstop : stop ≤ t.length) :
    Splice.CutsAround ⟨start, stop, text⟩ t start stop :=
  ⟨Nat.le_refl _, Nat.le_refl _, hstop, by simpa using Text.White.nil,
    by simpa using Text.White.nil⟩

private theorem spliceOf_cutsAround {d : Document} {op : Operation} {place : Span}
    (hop : op.Removes) (h : place.start ≤ place.stop) (hstop : place.stop ≤ d.current.length)
    (alone : Bool) :
    (d.spliceOf op place alone).CutsAround d.current place.start place.stop := by
  cases op with
  | insertBefore donor => exact hop.elim
  | replace donor => exact cutsAround_self hstop
  | delete =>
    simp only [spliceOf]
    split
    · split
      · exact cutsAround_self hstop
      · exact Splice.deletion_cutsAround h hstop
    · exact Splice.deletion_cutsAround h hstop

/-- The target goes out of the text without the blanks at its end, possibly with white space
around it. -/
theorem splice?_removes {d : Document} {i : Nat} {s : Syntax.Statement} {op : Operation}
    {sp : Splice} {span : Span} (h : d.splice? i s op = .ok sp) (hop : op.Removes)
    (hspan : d.currentSpan? i = some span) (hle : span.start ≤ span.stop)
    (hstop : span.stop ≤ d.current.length) :
    sp.CutsAround d.current span.start (d.current.trimmedEnd span.start span.stop) := by
  obtain ⟨span', alone, hspan', rfl⟩ := splice?_eq_ok h
  rw [hspan, Option.some.injEq] at hspan'
  subst hspan'
  have hend := Text.trimmedEnd_le d.current span.start span.stop
  exact spliceOf_cutsAround hop (Text.le_trimmedEnd _ hle) (Nat.le_trans hend hstop) alone

/-- All splices in force replace ranges, and the places of the statements that are left are
non-empty ranges of the current text. -/
structure InRange (d : Document) : Prop where
  splices : ∀ sp ∈ d.splices, sp.start ≤ sp.stop
  spans : ∀ i p, d.currentSpan? i = some p → p.start < p.stop ∧ p.stop ≤ d.current.length

theorem Fresh.inRange {d : Document} (h : d.Fresh) (hw : d.WellPlaced) : d.InRange where
  splices := by
    rw [h.splices]
    exact fun sp hsp => absurd hsp List.not_mem_nil
  spans := by
    intro i p hp
    obtain ⟨s, hs, _⟩ := currentSpan?_eq_some hp
    rw [h.currentSpan? hs, Option.some.injEq] at hp
    subst hp
    have hmem := List.mem_of_getElem? hs
    exact ⟨hw.nonempty s hmem, h.current_eq ▸ hw.inside s hmem⟩

theorem InRange.splice {d : Document} (h : d.InRange) {i : Nat} {s : Syntax.Statement}
    {op : Operation} {sp : Splice} (hsp : d.splice? i s op = .ok sp) :
    sp.start ≤ sp.stop ∧ sp.stop ≤ d.current.length := by
  by_cases hop : op.Removes
  · obtain ⟨span, _, hspan, _⟩ := splice?_eq_ok hsp
    obtain ⟨hne, hstop⟩ := h.spans i span hspan
    have hcut := splice?_removes hsp hop hspan (Nat.le_of_lt hne) hstop
    have hplace := Text.le_trimmedEnd d.current (Nat.le_of_lt hne)
    exact ⟨Nat.le_trans hcut.start_le (Nat.le_trans hplace hcut.le_stop), hcut.stop_le⟩
  · obtain ⟨span, hspan, hstart, hstop⟩ := splice?_insertBefore hsp hop
    obtain ⟨hne, hlen⟩ := h.spans i span hspan
    omega

theorem InRange.push {d : Document} (h : d.InRange) {sp : Splice} (hle : sp.start ≤ sp.stop)
    (hlen : sp.stop ≤ d.current.length) : (d.push sp).InRange where
  splices := by
    intro sp' hsp'
    rw [splices_push, List.mem_append, List.mem_singleton] at hsp'
    rcases hsp' with hsp' | rfl
    · exact h.splices sp' hsp'
    · exact hle
  spans := by
    intro i q hq
    rw [currentSpan?_push] at hq
    obtain ⟨p, hp, hm⟩ := Option.bind_eq_some_iff.mp hq
    obtain ⟨hne, hstop⟩ := h.spans i p hp
    obtain ⟨hkept, rfl⟩ := Splice.move_eq_some hle hne hm
    exact ⟨Splice.moveStart_lt_moveStop hle hne hkept, Splice.moveStop_le_length hle hlen hstop⟩

theorem InRange.replay {d d' : Document} (h : d.InRange) {rs : List Request}
    (hr : d.replay? rs = some d') : d'.InRange := by
  refine replay?_keeps (P := InRange) ?_ hr h
  intro d₁ r s sp hd _ hsp
  obtain ⟨hle, hlen⟩ := hd.splice hsp
  exact hd.push hle hlen

section Order

variable {d : Document} {i j : Nat} {s t : Syntax.Statement} {p q : Span}

theorem InRange.apart (h : d.InRange) (hw : d.WellPlaced) (hs : d.statements[i]? = some s)
    (ht : d.statements[j]? = some t) (hp : d.currentSpan? i = some p)
    (hq : d.currentSpan? j = some q) (hst : s.stop ≤ t.start) : p.stop ≤ q.start := by
  rw [currentSpan?_eq hs] at hp
  rw [currentSpan?_eq ht] at hq
  exact Splice.moveAll_apart h.splices (hw.nonempty s (List.mem_of_getElem? hs))
    (hw.nonempty t (List.mem_of_getElem? ht)) hst hp hq

theorem InRange.within (h : d.InRange) (hw : d.WellPlaced) (hs : d.statements[i]? = some s)
    (ht : d.statements[j]? = some t) (hp : d.currentSpan? i = some p)
    (hq : d.currentSpan? j = some q) (hst : s.span.Within t.span) : p.Within q := by
  rw [currentSpan?_eq hs] at hp
  rw [currentSpan?_eq ht] at hq
  exact Splice.moveAll_within h.splices (hw.nonempty s (List.mem_of_getElem? hs))
    (hw.nonempty t (List.mem_of_getElem? ht)) hst hp hq

end Order

/-- The bytes of `if x:`, `a()` inside of it and `b()` behind it, on three lines. -/
def nestedText : Text := [105, 102, 32, 120, 58, 10, 32, 97, 40, 41, 10, 98, 40, 41, 10]

def nested : Document where
  path := "a.py"
  package := "a"
  language := .python
  original := nestedText
  originalTree := (Language.python.parse nestedText).tree
  statements := [⟨"if_statement", 0, 10, 1, 0, "", "module"⟩,
    ⟨"expression_statement", 7, 10, 2, 1, "", "block"⟩,
    ⟨"expression_statement", 11, 14, 3, 0, "", "module"⟩]
  current := nestedText
  parsed := Language.python.parse nestedText
  edits := []
  nextEdit := 0
  revision := 0

theorem nested_fresh : nested.Fresh := ⟨⟨rfl, rfl⟩, rfl⟩

theorem nested_wellPlaced : nested.WellPlaced where
  nonempty := by decide
  inside := by decide
  nested := by decide
  solid := by decide

end Document

end RepairSearch
