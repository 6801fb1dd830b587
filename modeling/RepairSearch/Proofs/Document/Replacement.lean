import Mathlib.Data.List.TakeWhile
import RepairSearch.Proofs.Document.Order
import RepairSearch.Proofs.Document.Place
import RepairSearch.Proofs.Document.WholeLines

/-!
# Replacing in two steps

A donor that is inserted before a statement on lines of its own leaves the statement alone on its
lines, so deleting the statement then takes out the line break and the indentation that the
insertion has added. What is left is what replacing the statement makes at once.
-/

namespace RepairSearch

namespace Text

/-- A range has only spaces and tabs before it on its first line, and nothing behind it on its last
line. -/
structure StandsAlone (t : Text) (start stop : Nat) : Prop where
  before : ∀ l ∈ (lines (t.take start)).getLast?, ∀ b ∈ l, b = 32 ∨ b = 9
  behind : ∀ l ∈ (lines (t.drop stop)).head?, l = []

private theorem StandsAlone.indentAt {t : Text} {start stop : Nat} (h : t.StandsAlone start stop)
    (hstart : start ≤ t.length) :
    t.indentAt start = t.slice (t.lineStart start) start ∧
      ∀ b ∈ t.indentAt start, b = 32 ∨ b = 9 := by
  have hline := h.before _ (getLast?_lines_take hstart)
  have hall : t.indentAt start = t.slice (t.lineStart start) start := by
    rw [Text.indentAt, List.takeWhile_eq_self_iff]
    intro b hb
    simpa using hline b hb
  exact ⟨hall, hall ▸ hline⟩

end Text

namespace Splice

open Text

private theorem move_insertion_start {s : Splice} {p : Span} (hs : s.start = s.stop)
    (hp : s.start = p.start) :
    s.move p = some ⟨p.start + s.text.length, p.stop + s.text.length⟩ := by
  rw [move, if_pos hs, insertion, if_pos (Nat.le_of_eq hp)]

private theorem slice_insertion_start {s : Splice} {t : Text} {p : Span} (hs : s.start = s.stop)
    (hp : s.start = p.start) (hle : p.start ≤ p.stop) (hstart : p.start ≤ t.length) :
    (s.apply t).slice (p.start + s.text.length) (p.stop + s.text.length) =
      t.slice p.start p.stop := by
  have h := slice_apply_behind (s := s) (t := t) (i := p.start) (by omega) (by omega) hle (by omega)
  rwa [hs, Nat.sub_self, Nat.sub_zero, Nat.sub_zero] at h

private theorem length_insertion {s : Splice} {t : Text} (hs : s.start = s.stop)
    (hstart : s.start ≤ t.length) : (s.apply t).length = t.length + s.text.length := by
  rw [apply_length (Nat.le_of_eq hs) (hs ▸ hstart), hs, Nat.sub_self, Nat.sub_zero]

private theorem deletion_behind_break (front mid : Text) {indent back : Text}
    (hindent : ∀ b ∈ indent, b = 32 ∨ b = 9) (hback : ∀ l ∈ back.lines.head?, l = []) :
    let t := front ++ newline :: indent ++ mid ++ back
    let start := front.length + 1 + indent.length
    (deletion t start (start + mid.length)).apply t = front ++ back := by
  intro t start
  have hnl : newline ∉ indent := newline_not_mem_indent hindent
  have hfirst : (front ++ newline :: indent).length = start := by
    simp only [List.length_append, List.length_cons, start]
    omega
  have hmid : (front ++ newline :: indent ++ mid).length = start + mid.length := by
    rw [List.length_append, hfirst]
  have hlen : start + mid.length ≤ t.length := by
    rw [← hmid]
    simp only [t, List.length_append]
    omega
  have htake : t.take start = front ++ newline :: indent := by
    simp only [← hfirst, t, List.append_assoc]
    rw [← List.append_assoc, List.take_left]
  have hdrop : t.drop (start + mid.length) = back := by
    rw [← hmid, List.drop_left]
  have hbefore : (lines (t.take start)).getLast? = some indent := by
    rw [htake, lines_append_newline, lines_of_not_mem hnl, List.getLast?_concat]
  have hbehind : (lines (t.drop (start + mid.length))).head? = some [] := by
    obtain ⟨l, ls, hls⟩ := List.exists_cons_of_ne_nil (lines_ne_nil back)
    rw [hdrop, hls, List.head?_cons, hback l (by rw [hls, List.head?_cons]; rfl)]
  have hown : t.HasOwnLines start (start + mid.length) := by
    refine ⟨fun l hl => ?_, fun l hl => ?_⟩
    · rw [hbefore] at hl
      exact Option.some.inj hl ▸ isWhite_of_indent hindent
    · rw [hbehind] at hl
      exact Option.some.inj hl ▸ by decide
  have hline : t.lineStart start = front.length + 1 := by
    rw [lineStart_of_getLast? (by omega) hbefore]
    omega
  have hend : t.lineEnd (start + mid.length) = start + mid.length := lineEnd_of_head? hlen hbehind
  rw [deletion_of_hasOwnLines (Nat.le_add_right _ _) hlen hown, hline, hend,
    if_pos (Nat.succ_pos _), apply, hdrop, List.append_nil, Nat.add_sub_cancel]
  congr 1
  simp only [t, List.append_assoc]
  exact List.take_left

end Splice

namespace Document

/-- Whether deleting a statement now puts the placeholder of the language in its place. -/
def LeavesPlaceholder (d : Document) (i : Nat) : Prop :=
  ∃ s ∈ d.statements[i]?, ∃ p ∈ d.currentSpan? i, d.profile.placeholder.isSome = true ∧
    (d.surroundings s ⟨p.start, d.current.trimmedEnd p.start p.stop⟩).2 = true

instance (d : Document) (i : Nat) : Decidable (d.LeavesPlaceholder i) :=
  inferInstanceAs (Decidable (∃ s ∈ d.statements[i]?, ∃ p ∈ d.currentSpan? i,
    d.profile.placeholder.isSome = true ∧
      (d.surroundings s ⟨p.start, d.current.trimmedEnd p.start p.stop⟩).2 = true))

private theorem splice?_inside {d : Document} {i : Nat} {s : Syntax.Statement} {op : Operation}
    {sp : Splice} {p : Span} (h : d.splice? i s op = .ok sp) (hp : d.currentSpan? i = some p)
    (hle : p.start ≤ p.stop) (hstop : p.stop ≤ d.current.length) : sp.Inside d.current := by
  by_cases hop : op.Removes
  · have hcut := splice?_removes h hop hp hle hstop
    have htrim := Text.le_trimmedEnd d.current hle
    exact ⟨Nat.le_trans hcut.start_le (Nat.le_trans htrim hcut.le_stop), hcut.stop_le⟩
  · obtain ⟨q, hq, hs, ht⟩ := splice?_insertBefore h hop
    rw [hp, Option.some.injEq] at hq
    subst hq
    exact ⟨by omega, by omega⟩

/-- The statements are ranges of the original, which may be empty, and each splice in force replaces
a range of the text that it was made on. -/
structure Ranged (d : Document) : Prop extends Coherent d where
  statements : ∀ s ∈ d.statements, s.start ≤ s.stop ∧ s.stop ≤ d.original.length
  splices : Splice.InsideAll d.original d.splices

private theorem Ranged.currentSpan? {d : Document} (h : d.Ranged) {i : Nat} {p : Span}
    (hp : d.currentSpan? i = some p) : p.start ≤ p.stop ∧ p.stop ≤ d.current.length := by
  obtain ⟨s, hs, hmove⟩ := currentSpan?_eq_some hp
  obtain ⟨hle, hstop⟩ := h.statements s (List.mem_of_getElem? hs)
  rw [h.current]
  exact h.splices.moveAll hle hstop hmove

private theorem Ranged.push {d : Document} (h : d.Ranged) {sp : Splice}
    (hsp : sp.Inside d.current) :
    (d.push sp).Ranged where
  toCoherent := h.toCoherent.push sp
  statements := h.statements
  splices := by
    rw [splices_push]
    exact Splice.insideAll_concat.mpr ⟨h.splices, h.current ▸ hsp⟩

private theorem Ranged.replay {d d' : Document} (h : d.Ranged) {rs : List Request}
    (hr : d.replay? rs = some d') : d'.Ranged := by
  refine replay?_keeps (P := Ranged) ?_ hr h
  intro d₁ r s sp hd _ hsp
  obtain ⟨p, _, hp, _⟩ := splice?_eq_ok hsp
  obtain ⟨hle, hstop⟩ := hd.currentSpan? hp
  exact hd.push (splice?_inside hsp hp hle hstop)

private theorem Ranged.of_alike {d d' : Document} (h : d.Ranged) (halike : d'.Alike d)
    (hc : d'.Coherent) : d'.Ranged where
  toCoherent := hc
  statements := by
    rw [halike.statements, halike.original]
    exact h.statements
  splices := by
    rw [halike.splices, halike.original]
    exact h.splices

private theorem Fresh.ranged_run {d₀ : Document} (h₀ : d₀.Fresh)
    (hin : ∀ s ∈ d₀.statements, s.start ≤ s.stop ∧ s.stop ≤ d₀.original.length)
    (calls : List Call) : ((History.start d₀).run calls).document.Ranged := by
  have hr := h₀.replays calls
  obtain ⟨d', hd', halike⟩ := hr.replay
  have hranged : d₀.Ranged := ⟨h₀.toCoherent, hin, h₀.splices ▸ Splice.insideAll_nil _⟩
  exact (hranged.replay hd').of_alike halike hr.coherent

section Alone

variable {d : Document} {i : Nat} {p : Span}

private theorem sharesLine_of_standsAlone (hstart : p.start ≤ d.current.length)
    (h : d.current.StandsAlone p.start p.stop) : d.sharesLine p.start = false := by
  obtain ⟨hindent, hblank⟩ := h.indentAt hstart
  rw [sharesLine, ← hindent, Text.isWhite_of_indent hblank]
  rfl

private theorem current_of_replace {d' : Document} {n : Nat} {donor : Donor}
    (hp : d.currentSpan? i = some p) (htrim : d.current.trimmedEnd p.start p.stop = p.stop)
    (h : d.apply i (.replace donor) = .ok (.applied n, d')) :
    d'.current = d.current.take p.start ++ donor.rebase (d.current.indentAt p.start) ++
      d.current.drop p.stop := by
  obtain ⟨s, sp, _, hsp, _, rfl⟩ := apply_eq_applied h
  obtain ⟨p', _, hp', rfl⟩ := splice?_eq_ok hsp
  rw [hp, Option.some.injEq] at hp'
  subst hp'
  rw [htrim]
  rfl

/-- The splice of a donor that goes on lines of its own. -/
def lineInsertion (d : Document) (donor : Donor) (offset : Nat) : Splice :=
  let indent := d.current.indentAt offset
  ⟨offset, offset, donor.rebase indent ++ Text.newline :: indent⟩

private theorem eq_push_of_insertBefore {d' : Document} {n : Nat} {donor : Donor}
    (hp : d.currentSpan? i = some p) (hshares : d.sharesLine p.start = false)
    (h : d.apply i (.insertBefore donor) = .ok (.applied n, d')) :
    d' = d.push (d.lineInsertion donor p.start) := by
  obtain ⟨s, sp, _, hsp, _, rfl⟩ := apply_eq_applied h
  obtain ⟨p', _, hp', rfl⟩ := splice?_eq_ok hsp
  rw [hp, Option.some.injEq] at hp'
  subst hp'
  simp only [spliceOf, hshares, lineInsertion]
  rfl

private theorem current_of_delete {d' : Document} {n : Nat} (hp : d.currentSpan? i = some p)
    (htrim : d.current.trimmedEnd p.start p.stop = p.stop) (hplaceholder : ¬ d.LeavesPlaceholder i)
    (h : d.apply i .delete = .ok (.applied n, d')) :
    d'.current = (Splice.deletion d.current p.start p.stop).apply d.current := by
  obtain ⟨s, sp, hs, hsp, _, rfl⟩ := apply_eq_applied h
  change sp.apply d.current = _
  congr 1
  simp only [splice?, hp, htrim] at hsp
  split at hsp
  · rw [← Except.ok.inj hsp]
    simp only [spliceOf]
    split
    · rename_i text htext
      refine if_neg fun halone => hplaceholder ⟨s, hs, p, hp, ?_, ?_⟩
      · rw [htext]
        rfl
      · rw [htrim]
        exact halone
    · rfl
  · cases hsp

private theorem current_lineInsertion (d : Document) (donor : Donor) {start stop : Nat}
    (h : start ≤ stop) :
    (d.push (d.lineInsertion donor start)).current =
      d.current.take start ++ donor.rebase (d.current.indentAt start) ++
        Text.newline :: d.current.indentAt start ++ d.current.slice start stop ++
          d.current.drop stop := by
  have hrest := Text.slice_append_drop (t := d.current) h
  change d.current.take start ++ (_ ++ Text.newline :: _) ++ d.current.drop start = _
  rw [← hrest]
  simp only [List.append_assoc]

private theorem currentSpan?_lineInsertion (hp : d.currentSpan? i = some p) (donor : Donor) :
    let added := (d.lineInsertion donor p.start).text.length
    (d.push (d.lineInsertion donor p.start)).currentSpan? i =
      some ⟨p.start + added, p.stop + added⟩ := by
  rw [currentSpan?_push, hp, Option.bind_some]
  exact Splice.move_insertion_start rfl rfl

private theorem current_delete_lineInsertion {donor : Donor} {d' : Document} {n : Nat}
    (hp : d.currentSpan? i = some p) (hle : p.start ≤ p.stop) (hstop : p.stop ≤ d.current.length)
    (hsolid : (d.current.slice p.start p.stop).isSolid = true)
    (halone : d.current.StandsAlone p.start p.stop)
    (hplaceholder : ¬ (d.push (d.lineInsertion donor p.start)).LeavesPlaceholder i)
    (h : (d.push (d.lineInsertion donor p.start)).apply i .delete = .ok (.applied n, d')) :
    d'.current = d.current.take p.start ++ donor.rebase (d.current.indentAt p.start) ++
      d.current.drop p.stop := by
  have hstart : p.start ≤ d.current.length := Nat.le_trans hle hstop
  have hspan := currentSpan?_lineInsertion hp donor
  have hslice : ((d.lineInsertion donor p.start).apply d.current).slice _ _ = _ :=
    Splice.slice_insertion_start rfl rfl hle hstart
  have hlength : ((d.lineInsertion donor p.start).apply d.current).length = _ :=
    Splice.length_insertion rfl hstart
  have hinside := Nat.add_le_add_right hstop (d.lineInsertion donor p.start).text.length
  have htrim := Text.trimmedEnd_of_isSolid (Nat.add_le_add_right hle _) (hlength ▸ hinside)
    (hslice ▸ hsolid)
  have hcut := Splice.deletion_behind_break
    (d.current.take p.start ++ donor.rebase (d.current.indentAt p.start))
    (d.current.slice p.start p.stop) (halone.indentAt hstart).2 halone.behind
  have hfirst : (d.current.take p.start ++ donor.rebase (d.current.indentAt p.start)).length + 1 +
      (d.current.indentAt p.start).length =
        p.start + (d.lineInsertion donor p.start).text.length := by
    simp only [lineInsertion, List.length_append, List.length_cons, List.length_take_of_le hstart]
    omega
  have hlast : p.start + (d.lineInsertion donor p.start).text.length +
      (d.current.slice p.start p.stop).length =
        p.stop + (d.lineInsertion donor p.start).text.length := by
    rw [Text.slice_length hstop]
    omega
  rw [current_of_delete hspan htrim hplaceholder h, current_lineInsertion d donor hle]
  simp only [hfirst, hlast] at hcut
  exact hcut

end Alone

private theorem exists_applied (d : Document) (i n : Nat) (op : Operation)
    (h : (d.apply i op).toOption.map (·.1) = some (.applied n)) :
    ∃ d', d.apply i op = .ok (.applied n, d') := by
  cases ha : d.apply i op with
  | error e => simp [ha, Except.toOption] at h
  | ok result =>
    obtain ⟨outcome, d'⟩ := result
    simp only [ha, Except.toOption, Option.map_some, Option.some.injEq] at h
    exact ⟨d', h ▸ rfl⟩

/-- `if x:` and two calls inside of it, as read from a file. -/
def twoCalls : Document :=
  ofText "a.py" "a" .python [105, 102, 32, 120, 58, 10, 32, 97, 40, 41, 10, 32, 98, 40, 41, 10]

end Document

namespace History

/-- Replacing a statement that stands alone on its lines, and inserting the same donor before it and
then deleting it, give the same text. The deletion must not leave a placeholder. -/
theorem run_replace_eq_insert_delete {d₀ : Document} (h₀ : d₀.Fresh)
    (hin : ∀ s ∈ d₀.statements, s.start ≤ s.stop ∧ s.stop ≤ d₀.original.length)
    (calls : List Call) {d₁ d₂ d₃ : Document} {i n₁ n₂ n₃ : Nat} {donor : Donor} {p : Span} :
    let d := ((start d₀).run calls).document
    d.currentSpan? i = some p → (d.current.slice p.start p.stop).isSolid = true →
      d.current.StandsAlone p.start p.stop →
      d.apply i (.replace donor) = .ok (.applied n₁, d₁) →
      d.apply i (.insertBefore donor) = .ok (.applied n₂, d₂) →
      d₂.apply i .delete = .ok (.applied n₃, d₃) → ¬ d₂.LeavesPlaceholder i →
      d₃.current = d₁.current := by
  intro d hp hsolid halone hreplace hinsert hdelete hplaceholder
  have hd : d.Ranged := h₀.ranged_run hin calls
  obtain ⟨hle, hstop⟩ := hd.currentSpan? hp
  have htrim := Text.trimmedEnd_of_isSolid hle hstop hsolid
  have hshares := Document.sharesLine_of_standsAlone (Nat.le_trans hle hstop) halone
  obtain rfl := Document.eq_push_of_insertBefore hp hshares hinsert
  rw [Document.current_of_replace hp htrim hreplace]
  exact Document.current_delete_lineInsertion hp hle hstop hsolid halone hplaceholder hdelete

/-- The second call inside of `if x:` gives way to `if y:` with a call inside, on two lines. -/
theorem run_replace_eq_insert_delete_twoCalls :
    let donor : Donor := ⟨[105, 102, 32, 121, 58, 10, 32, 99, 40, 41], [], []⟩
    ∃ d₁ d₂ d₃, Document.twoCalls.apply 2 (.replace donor) = .ok (.applied 0, d₁) ∧
      Document.twoCalls.apply 2 (.insertBefore donor) = .ok (.applied 0, d₂) ∧
      d₂.apply 2 .delete = .ok (.applied 1, d₃) ∧ d₃.current = d₁.current := by
  intro donor
  have hp : Document.twoCalls.currentSpan? 2 = some ⟨12, 15⟩ := by decide +kernel
  have halone : Document.twoCalls.current.StandsAlone 12 15 := by
    constructor
    · decide +kernel
    · decide +kernel
  obtain ⟨d₁, h₁⟩ :=
    Document.exists_applied Document.twoCalls 2 0 (.replace donor) (by decide +kernel)
  obtain ⟨d₂, h₂⟩ :=
    Document.exists_applied Document.twoCalls 2 0 (.insertBefore donor) (by decide +kernel)
  have hpush : d₂ = Document.twoCalls.push (Document.twoCalls.lineInsertion donor 12) :=
    Document.eq_push_of_insertBefore hp (by decide +kernel) h₂
  obtain ⟨d₃, h₃⟩ := Document.exists_applied
    (Document.twoCalls.push (Document.twoCalls.lineInsertion donor 12)) 2 1 .delete
    (by decide +kernel)
  have hplaceholder : ¬ d₂.LeavesPlaceholder 2 := by
    rw [hpush]
    decide +kernel
  rw [← hpush] at h₃
  refine ⟨d₁, d₂, d₃, h₁, h₂, h₃, ?_⟩
  exact run_replace_eq_insert_delete (Document.fresh_ofText _ _ _ _) (by decide +kernel) [] hp
    (by decide +kernel) halone h₁ h₂ h₃ hplaceholder

end History

end RepairSearch
