import RepairSearch.Proofs.Document.Place
import RepairSearch.Proofs.Text.Boundary

/-!
# Splices that fit

A splice fits a text if it replaces whole characters of it by whole characters. What was a boundary
before or behind the splice is one after it, so ranges of whole characters stay such ranges, and the
splices of edits fit one after the other.
-/

namespace RepairSearch

/-- A range of whole characters of a text. -/
structure Span.Fits (p : Span) (t : Text) : Prop where
  le : p.start ≤ p.stop
  start : t.isBoundary p.start = true
  stop : t.isBoundary p.stop = true

theorem Span.Fits.stop_le {t : Text} {p : Span} (h : p.Fits t) : p.stop ≤ t.length :=
  Text.le_length_of_isBoundary h.stop

theorem Span.Fits.trimmed {t : Text} {p : Span} (h : p.Fits t) (ht : t.Encoded) :
    Span.Fits ⟨p.start, t.trimmedEnd p.start p.stop⟩ t :=
  ⟨Text.le_trimmedEnd t h.le, h.start, Text.isBoundary_trimmedEnd ht h.le h.stop⟩

namespace Splice

/-- A splice that replaces whole characters by whole characters. -/
structure Fits (s : Splice) (t : Text) : Prop where
  le : s.start ≤ s.stop
  start : t.isBoundary s.start = true
  stop : t.isBoundary s.stop = true
  text : s.text.Encoded

section

variable {s : Splice} {t : Text} {p q : Span} {x : Nat}

private theorem encoded_front (h : s.Fits t) (ht : t.Encoded) :
    Text.Encoded (t.take s.start ++ s.text) := (Text.encoded_take ht h.start).append h.text

private theorem length_front (h : s.Fits t) :
    (t.take s.start ++ s.text).length = s.start + s.text.length := by
  have hle := Text.le_length_of_isBoundary h.start
  rw [List.length_append, List.length_take]
  omega

theorem Fits.encoded_apply (h : s.Fits t) (ht : t.Encoded) : (s.apply t).Encoded :=
  (encoded_front h ht).append (Text.encoded_drop ht h.stop)

private theorem Fits.isBoundary_before (h : s.Fits t) (ht : t.Encoded) (hx : t.isBoundary x = true)
    (hle : x ≤ s.start) : (s.apply t).isBoundary x = true := by
  have hfront := length_front h
  have hlen := Text.le_length_of_isBoundary h.start
  have htake : (s.apply t).take x = t.take x := by
    rw [apply, List.append_assoc, List.take_append_of_le_length, List.take_take,
      Nat.min_eq_left hle]
    rw [List.length_take]
    omega
  rw [Text.isBoundary_iff (h.encoded_apply ht), htake]
  refine ⟨?_, Text.encoded_take ht hx⟩
  rw [apply, List.length_append, hfront]
  omega

theorem Fits.isBoundary_text (h : s.Fits t) (ht : t.Encoded) :
    (s.apply t).isBoundary (s.start + s.text.length) = true := by
  have hbehind := Text.isBoundary_append (encoded_front h ht) (Text.encoded_drop ht h.stop)
    (Text.isBoundary_zero _)
  rwa [length_front h, Nat.add_zero] at hbehind

private theorem Fits.isBoundary_behind (h : s.Fits t) (ht : t.Encoded) (hx : t.isBoundary x = true)
    (hle : s.stop ≤ x) :
    (s.apply t).isBoundary (x - (s.stop - s.start) + s.text.length) = true := by
  have hbehind := Text.isBoundary_append (encoded_front h ht) (Text.encoded_drop ht h.stop)
    (Text.isBoundary_drop ht h.stop hx hle)
  have hsum : (t.take s.start ++ s.text).length + (x - s.stop) =
      x - (s.stop - s.start) + s.text.length := by
    have hs := h.le
    rw [length_front h]
    omega
  rwa [hsum] at hbehind

private theorem Fits.insertion (h : s.Fits t) (ht : t.Encoded) (hp : p.Fits t)
    (heq : s.start = s.stop) : (insertion p s.start s.text.length).Fits (s.apply t) := by
  have hle := hp.le
  -- nothing is cut out, so what lies behind the new text is shifted by its length
  have hshift {x : Nat} (hx : t.isBoundary x = true) (hafter : s.start ≤ x) :
      (s.apply t).isBoundary (x + s.text.length) = true := by
    have hbehind := h.isBoundary_behind ht hx (heq ▸ hafter)
    rwa [heq, Nat.sub_self, Nat.sub_zero] at hbehind
  rw [Splice.insertion]
  split
  · rename_i hbefore
    exact ⟨Nat.add_le_add_right hle _, hshift hp.start hbefore,
      hshift hp.stop (Nat.le_trans hbefore hle)⟩
  · rename_i hbefore
    have hstart := h.isBoundary_before ht hp.start (Nat.le_of_not_le hbefore)
    split
    · rename_i hinside
      exact ⟨Nat.le_trans hle (Nat.le_add_right _ _), hstart,
        hshift hp.stop (Nat.le_of_lt hinside)⟩
    · rename_i hinside
      exact ⟨hle, hstart, h.isBoundary_before ht hp.stop (Nat.le_of_not_lt hinside)⟩

private theorem Fits.overlap (h : s.Fits t) (ht : t.Encoded) (hp : p.Fits t) :
    Span.Fits
      ⟨if p.start < s.start then p.start else s.start + s.text.length,
        if s.stop < p.stop then p.stop - (s.stop - s.start) + s.text.length
        else s.start + s.text.length⟩ (s.apply t) := by
  have hs := h.le
  have hle := hp.le
  refine ⟨?_, ?_, ?_⟩ <;> dsimp only
  · split <;> split <;> omega
  · split
    · rename_i hbefore
      exact h.isBoundary_before ht hp.start (Nat.le_of_lt hbefore)
    · exact h.isBoundary_text ht
  · split
    · rename_i hbehind
      exact h.isBoundary_behind ht hp.stop (Nat.le_of_lt hbehind)
    · exact h.isBoundary_text ht

theorem Fits.move (h : s.Fits t) (ht : t.Encoded) (hp : p.Fits t) (hq : s.move p = some q) :
    q.Fits (s.apply t) := by
  have hle := hp.le
  rw [Splice.move] at hq
  split at hq
  · rename_i heq
    exact Option.some.inj hq ▸ h.insertion ht hp heq
  split at hq
  · rename_i hleft
    exact Option.some.inj hq ▸ ⟨hle, h.isBoundary_before ht hp.start (Nat.le_trans hle hleft),
      h.isBoundary_before ht hp.stop hleft⟩
  split at hq
  · rename_i hright
    obtain rfl := Option.some.inj hq
    have hshift : p.start - (s.stop - s.start) + s.text.length ≤
        p.stop - (s.stop - s.start) + s.text.length :=
      Nat.add_le_add_right (Nat.sub_le_sub_right hle _) _
    exact ⟨hshift, h.isBoundary_behind ht hp.start hright,
      h.isBoundary_behind ht hp.stop (Nat.le_trans hright hle)⟩
  split at hq
  · cases hq
  · exact Option.some.inj hq ▸ h.overlap ht hp

end

/-- Every splice fits the text that the ones before it have made. -/
def FitAll (t : Text) : List Splice → Prop
  | [] => True
  | s :: ss => s.Fits t ∧ FitAll (s.apply t) ss

private theorem fitAll_concat {t : Text} {ss : List Splice} {s : Splice} :
    FitAll t (ss ++ [s]) ↔ FitAll t ss ∧ s.Fits (applyAll ss t) := by
  induction ss generalizing t with
  | nil => exact and_comm
  | cons r ss ih =>
    change _ ∧ FitAll (r.apply t) (ss ++ [s]) ↔ (_ ∧ _) ∧ _
    rw [ih, and_assoc]
    rfl

theorem FitAll.dropLast {t : Text} {ss : List Splice} (h : FitAll t ss) : FitAll t ss.dropLast := by
  rcases ss.eq_nil_or_concat with rfl | ⟨front, s, rfl⟩
  · exact h
  · rw [List.concat_eq_append] at h ⊢
    rw [List.dropLast_concat]
    exact (fitAll_concat.mp h).1

private theorem FitAll.encoded {t : Text} {ss : List Splice} (h : FitAll t ss) (ht : t.Encoded) :
    (applyAll ss t).Encoded := by
  induction ss generalizing t with
  | nil => exact ht
  | cons s ss ih => exact ih h.2 (h.1.encoded_apply ht)

theorem moveAll_cons (s : Splice) (ss : List Splice) (p : Span) :
    moveAll (s :: ss) p = (s.move p).bind (moveAll ss) := rfl

private theorem FitAll.moveAll {t : Text} {ss : List Splice} {p q : Span} (h : FitAll t ss)
    (ht : t.Encoded) (hp : p.Fits t) (hq : moveAll ss p = some q) : q.Fits (applyAll ss t) := by
  induction ss generalizing t p with
  | nil =>
    rw [moveAll_nil, Option.some.injEq] at hq
    exact hq ▸ hp
  | cons s ss ih =>
    rw [moveAll_cons] at hq
    obtain ⟨r, hr, hq⟩ := Option.bind_eq_some_iff.mp hq
    exact ih h.2 (h.1.encoded_apply ht) (h.1.move ht hp hr) hq

private theorem deletion_fits {t : Text} {start stop : Nat} (ht : t.Encoded) (hle : start ≤ stop)
    (hstart : t.isBoundary start = true) (hstop : t.isBoundary stop = true) :
    (deletion t start stop).Fits t := by
  have hlen := Text.le_length_of_isBoundary hstop
  have hcut := deletion_cutsAround hle hlen
  obtain ⟨hls, hbreak⟩ := Text.isBoundary_lineStart ht (Nat.le_trans hle hlen)
  obtain ⟨hend, hnext⟩ := Text.isBoundary_lineEnd ht hlen
  refine ⟨Nat.le_trans hcut.start_le (Nat.le_trans hle hcut.le_stop), ?_, ?_, ?_⟩ <;>
    simp only [deletion] <;> (repeat' split) <;> first | assumption | exact .nil | skip
  · rename_i hpos
    exact hbreak hpos
  · rename_i hlt
    exact hnext hlt

end Splice

/-- A donor cut out of an encoded text. -/
structure Donor.Encoded (donor : Donor) : Prop where
  text : donor.text.Encoded
  indent : donor.indent.Encoded

private theorem Donor.encoded_rebaseLine {donor : Donor} (h : donor.Encoded) {indent line : Text}
    (hindent : indent.Encoded) (hline : line.Encoded) (n : Nat) :
    (donor.rebaseLine indent line n).Encoded := by
  rw [rebaseLine]
  split
  · exact hline
  split
  · exact .nil
  split
  · rename_i hprefix
    obtain ⟨body, rfl⟩ := List.isPrefixOf_iff_prefix.mp hprefix
    rw [List.drop_left]
    exact hindent.append (hline.of_append h.indent)
  · exact hline

private theorem Donor.Encoded.rebase {donor : Donor} (h : donor.Encoded) {indent : Text}
    (hindent : indent.Encoded) : (donor.rebase indent).Encoded := by
  have hlines := Text.encoded_lines h.text
  rw [Donor.rebase]
  split
  · exact .nil
  · rename_i first rest heq
    rw [heq] at hlines
    apply Text.encoded_unlines
    intro l hl
    rcases List.mem_cons.mp hl with rfl | hl
    · exact hlines _ List.mem_cons_self
    · obtain ⟨⟨line, n⟩, hmem, rfl⟩ := List.mem_map.mp hl
      have hline := List.fst_mem_of_mem_zipIdx hmem
      exact encoded_rebaseLine h hindent (hlines line (List.mem_cons_of_mem _ hline)) n

def Operation.Encoded : Operation → Prop
  | .insertBefore donor | .replace donor => donor.Encoded
  | .delete => True

def Call.Encoded : Call → Prop
  | .apply _ op => op.Encoded
  | .undo _ => True

namespace Document

/-- The original text is encoded, its statements are ranges of whole characters, which may overlap
in any way, and the splices in force fit one after the other. -/
structure Fitting (d : Document) : Prop extends Coherent d where
  original : d.original.Encoded
  statements : ∀ s ∈ d.statements, s.span.Fits d.original
  splices : Splice.FitAll d.original d.splices

theorem Fresh.fitting {d : Document} (h : d.Fresh) (horig : d.original.Encoded)
    (hs : ∀ s ∈ d.statements, s.span.Fits d.original) : d.Fitting where
  toCoherent := h.toCoherent
  original := horig
  statements := hs
  splices := h.splices ▸ trivial

namespace Fitting

variable {d : Document}

theorem encoded (h : d.Fitting) : d.current.Encoded := by
  rw [h.current]
  exact h.splices.encoded h.original

theorem currentSpan? (h : d.Fitting) {i : Nat} {p : Span} (hp : d.currentSpan? i = some p) :
    p.Fits d.current := by
  obtain ⟨s, hs, hmove⟩ := currentSpan?_eq_some hp
  rw [h.current]
  exact h.splices.moveAll h.original (h.statements s (List.mem_of_getElem? hs)) hmove

private theorem spliceOf (h : d.Fitting) {op : Operation} (hop : op.Encoded) {place : Span}
    (hplace : place.Fits d.current) (alone : Bool) :
    (d.spliceOf op place alone).Fits d.current := by
  have hindent := Text.encoded_indentAt d.current place.start
  have hdeletion := Splice.deletion_fits h.encoded hplace.le hplace.start hplace.stop
  cases op with
  | insertBefore donor =>
    refine ⟨Nat.le_refl _, hplace.start, hplace.start, (hop.rebase hindent).append ?_⟩
    split
    · exact Text.encoded_ofString _
    · exact Text.Encoded.newline.append hindent
  | replace donor => exact ⟨hplace.le, hplace.start, hplace.stop, hop.rebase hindent⟩
  | delete =>
    rw [Document.spliceOf]
    split
    · split
      · exact ⟨hplace.le, hplace.start, hplace.stop, Text.encoded_ofString _⟩
      · exact hdeletion
    · exact hdeletion

theorem splice? (h : d.Fitting) {i : Nat} {s : Syntax.Statement} {op : Operation} {sp : Splice}
    (hop : op.Encoded) (hsp : d.splice? i s op = .ok sp) : sp.Fits d.current := by
  obtain ⟨span, alone, hspan, rfl⟩ := splice?_eq_ok hsp
  exact h.spliceOf hop ((h.currentSpan? hspan).trimmed h.encoded) alone

theorem push (h : d.Fitting) {sp : Splice} (hsp : sp.Fits d.current) : (d.push sp).Fitting where
  toCoherent := h.toCoherent.push sp
  original := h.original
  statements := h.statements
  splices := by
    rw [splices_push]
    exact Splice.fitAll_concat.mpr ⟨h.splices, h.current ▸ hsp⟩

theorem pop (h : d.Fitting) : d.pop.Fitting where
  toCoherent := coherent_pop d
  original := h.original
  statements := h.statements
  splices := by
    rw [splices_pop]
    exact h.splices.dropLast

end Fitting

end Document

end RepairSearch
