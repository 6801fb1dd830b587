import RepairSearch.Proofs.Document.Rebase
import RepairSearch.Proofs.Text.Visible

/-!
# Offsets at another depth

At another depth a donor is still made of what was before an offset and what was behind it, if
something other than white space is right behind the offset: the line there is not blank, and its
indentation is before the offset. A range in which all lines begin inside a literal stays as it is.
-/

namespace RepairSearch

namespace Text

/-- Texts are made of lines that line breaks end, and of a last line. -/
@[elab_as_elim]
theorem induction_lines {motive : Text → Prop} (last : ∀ l, newline ∉ l → motive l)
    (next : ∀ l t, newline ∉ l → motive t → motive (l ++ newline :: t)) (t : Text) : motive t := by
  induction hn : t.length using Nat.strongRecOn generalizing t with
  | ind n ih =>
    obtain ⟨l, ls, hlines, hrest⟩ := lines_eq_cons t
    have hl : newline ∉ l := newline_not_mem_of_mem_lines (hlines ▸ List.mem_cons_self)
    rcases hrest with ⟨_, rfl⟩ | ⟨u, rfl, _⟩
    · exact last t hl
    · refine next l u hl (ih u.length ?_ u rfl)
      rw [← hn, List.length_append, List.length_cons]
      omega

private theorem lines_append_of_not_mem {x t first : Text} {rest : List Text} (hx : newline ∉ x)
    (h : t.lines = first :: rest) : lines (x ++ t) = (x ++ first) :: rest := by
  induction x with
  | nil => exact h
  | cons b x ih =>
    rw [List.mem_cons, not_or] at hx
    rw [List.cons_append, lines, ih hx.2, if_neg (by simpa using Ne.symm hx.1)]
    rfl

private theorem count_break {l : Text} (hl : newline ∉ l) (t : Text) :
    (l ++ newline :: t).count newline = t.count newline + 1 := by
  rw [List.count_append, List.count_eq_zero.mpr hl, List.count_cons_self, Nat.zero_add]

private theorem unlines_cons (l : Text) {ls : List Text} (h : ls ≠ []) :
    unlines (l :: ls) = l ++ newline :: unlines ls := by
  obtain ⟨k, ks, rfl⟩ := List.exists_cons_of_ne_nil h
  rw [unlines, List.intercalate_cons_cons, List.append_assoc, List.singleton_append, unlines]

private theorem unlines_append_cons (x l : Text) (ls : List Text) :
    unlines ((x ++ l) :: ls) = x ++ unlines (l :: ls) := by
  cases ls with
  | nil => simp [unlines]
  | cons k ks =>
    rw [unlines_cons _ (List.cons_ne_nil k ks), unlines_cons _ (List.cons_ne_nil k ks),
      List.append_assoc]

end Text

namespace Donor

open Text

/-- A text at another depth, the first line of which has the number `n` in a donor. -/
def rebaseText (donor : Donor) (indent : Text) (n : Nat) (t : Text) : Text :=
  unlines (donor.rebaseLines indent n t.lines)

/-- What a text becomes at another depth that begins within the line `n` of a donor. -/
def rebaseRest (donor : Donor) (indent : Text) (n : Nat) (t : Text) : Text :=
  match t.lines with
  | [] => []
  | first :: rest => unlines (first :: donor.rebaseLines indent (n + 1) rest)

variable {donor : Donor} {indent : Text} {n : Nat}

private theorem rebaseRest_of_lines {t first : Text} {rest : List Text}
    (h : t.lines = first :: rest) :
    donor.rebaseRest indent n t = unlines (first :: donor.rebaseLines indent (n + 1) rest) := by
  rw [rebaseRest, h]

private theorem rebaseText_of_lines {t first : Text} {rest : List Text}
    (h : t.lines = first :: rest) :
    donor.rebaseText indent n t =
      unlines (donor.rebaseLine indent first n :: donor.rebaseLines indent (n + 1) rest) := by
  rw [rebaseText, h, rebaseLines_cons]

private theorem rebaseRest_append {x : Text} (hx : newline ∉ x) (t : Text) :
    donor.rebaseRest indent n (x ++ t) = x ++ donor.rebaseRest indent n t := by
  obtain ⟨first, rest, hlines⟩ := List.exists_cons_of_ne_nil (lines_ne_nil t)
  rw [rebaseRest_of_lines (lines_append_of_not_mem hx hlines), rebaseRest_of_lines hlines,
    unlines_append_cons]

private theorem lines_break {l : Text} (hl : newline ∉ l) (t : Text) :
    lines (l ++ newline :: t) = l :: t.lines := by
  rw [lines_append_newline, lines_of_not_mem hl, List.singleton_append]

private theorem rebaseLines_ne_nil (t : Text) : donor.rebaseLines indent n t.lines ≠ [] := by
  obtain ⟨first, rest, hlines⟩ := List.exists_cons_of_ne_nil (lines_ne_nil t)
  rw [hlines]
  exact List.cons_ne_nil _ _

private theorem rebaseRest_break {l : Text} (hl : newline ∉ l) (t : Text) :
    donor.rebaseRest indent n (l ++ newline :: t) =
      l ++ newline :: donor.rebaseText indent (n + 1) t := by
  rw [rebaseRest_of_lines (lines_break hl t), unlines_cons _ (rebaseLines_ne_nil t), rebaseText]

private theorem rebaseText_break {l : Text} (hl : newline ∉ l) (t : Text) :
    donor.rebaseText indent n (l ++ newline :: t) =
      donor.rebaseLine indent l n ++ newline :: donor.rebaseText indent (n + 1) t := by
  rw [rebaseText_of_lines (lines_break hl t), unlines_cons _ (rebaseLines_ne_nil t), rebaseText]

private theorem rebaseText_of_literal (h : n ∈ donor.literalLines) (t : Text) :
    donor.rebaseText indent n t = donor.rebaseRest indent n t := by
  obtain ⟨first, rest, hlines⟩ := List.exists_cons_of_ne_nil (lines_ne_nil t)
  rw [rebaseText_of_lines hlines, rebaseRest_of_lines hlines, rebaseLine_literal h]

private theorem rebaseRest_literal {x : Text}
    (hx : ∀ p q, x = p ++ newline :: q → n + p.count newline + 1 ∈ donor.literalLines) (t : Text) :
    donor.rebaseRest indent n (x ++ t) = x ++ donor.rebaseRest indent (n + x.count newline) t := by
  induction x using induction_lines generalizing n with
  | last l hl => rw [rebaseRest_append hl, List.count_eq_zero.mpr hl, Nat.add_zero]
  | next l x hl ih =>
    have hnext : n + 1 ∈ donor.literalLines := by
      have h := hx l x rfl
      rwa [List.count_eq_zero.mpr hl] at h
    have hrest (p q : Text) (hpq : x = p ++ newline :: q) :
        n + 1 + p.count newline + 1 ∈ donor.literalLines := by
      have h := hx (l ++ newline :: p) q (by rw [hpq]; simp)
      rwa [count_break hl, ← Nat.add_assoc, Nat.add_right_comm n] at h
    rw [List.append_assoc, List.cons_append, rebaseRest_break hl, rebaseText_of_literal hnext,
      ih hrest, count_break hl, List.append_assoc, List.cons_append, Nat.add_right_comm,
      Nat.add_assoc]

section

variable (hdonor : ∀ b ∈ donor.indent, b = 32 ∨ b = 9) (hindent : ∀ b ∈ indent, b = 32 ∨ b = 9)
include hdonor hindent

private theorem exists_rebaseText_of_not_mem {x t : Text} (hx : newline ∉ x)
    (ht : t.StartsVisibly) :
    ∃ front, newline ∉ front ∧
      donor.rebaseText indent n (x ++ t) = front ++ donor.rebaseRest indent n t := by
  obtain ⟨first, rest, hlines, hfirst⟩ := ht.lines_eq_cons
  have hwhite : (x ++ first).isWhite = false := hfirst.isWhite_append x
  have hline : ∃ front, newline ∉ front ∧
      donor.rebaseLine indent (x ++ first) n = front ++ first := by
    by_cases hliteral : n ∈ donor.literalLines
    · exact ⟨x, hx, rebaseLine_literal hliteral⟩
    by_cases hprefix : donor.indent <+: x ++ first
    · -- the line is not blank, so the indentation cannot reach into what is visible
      obtain ⟨body, rfl⟩ :=
        hfirst.prefix_of_white hprefix (white_of_isBlank (isBlank_of_indent hdonor))
      rw [List.append_assoc] at hwhite
      refine ⟨indent ++ body, ?_, ?_⟩
      · intro hmem
        rcases List.mem_append.mp hmem with hmem | hmem
        · exact newline_not_mem_indent hindent hmem
        · exact hx (List.mem_append_right _ hmem)
      · rw [List.append_assoc, rebaseLine_indented hliteral hwhite, List.append_assoc]
    · exact ⟨x, hx, rebaseLine_shallow hliteral hwhite hprefix⟩
  obtain ⟨front, hfront, hline⟩ := hline
  refine ⟨front, hfront, ?_⟩
  rw [rebaseText_of_lines (lines_append_of_not_mem hx hlines), rebaseRest_of_lines hlines, hline,
    unlines_append_cons]

private theorem exists_rebaseText {x t : Text} (ht : t.StartsVisibly) :
    ∃ front : Text, front.count newline = x.count newline ∧
      donor.rebaseText indent n (x ++ t) =
        front ++ donor.rebaseRest indent (n + x.count newline) t := by
  induction x using induction_lines generalizing n with
  | last l hl =>
    obtain ⟨front, hfront, htext⟩ := exists_rebaseText_of_not_mem hdonor hindent hl ht
    refine ⟨front, ?_, ?_⟩
    · rw [List.count_eq_zero.mpr hfront, List.count_eq_zero.mpr hl]
    · rw [htext, List.count_eq_zero.mpr hl, Nat.add_zero]
  | next l x hl ih =>
    obtain ⟨front, hcount, htext⟩ := ih (n := n + 1)
    have hmoved : newline ∉ donor.rebaseLine indent l n :=
      newline_not_mem_rebaseLine (newline_not_mem_indent hindent) hl
    refine ⟨donor.rebaseLine indent l n ++ newline :: front, ?_, ?_⟩
    · rw [count_break hmoved, count_break hl, hcount]
    · rw [List.append_assoc, List.cons_append, rebaseText_break hl, htext, count_break hl,
        List.append_assoc, List.cons_append, Nat.add_right_comm, Nat.add_assoc]

private theorem exists_rebaseRest {x t : Text} (ht : t.StartsVisibly) :
    ∃ front : Text, front.count newline = x.count newline ∧ (x ≠ [] → front ≠ []) ∧
      donor.rebaseRest indent n (x ++ t) =
        front ++ donor.rebaseRest indent (n + x.count newline) t := by
  induction x using induction_lines with
  | last l hl =>
    refine ⟨l, rfl, id, ?_⟩
    rw [rebaseRest_append hl, List.count_eq_zero.mpr hl, Nat.add_zero]
  | next l x hl _ =>
    obtain ⟨front, hcount, htext⟩ := exists_rebaseText (n := n + 1) (x := x) hdonor hindent ht
    refine ⟨l ++ newline :: front, ?_, fun _ => by simp, ?_⟩
    · rw [count_break hl, count_break hl, hcount]
    · rw [List.append_assoc, List.cons_append, rebaseRest_break hl, htext, count_break hl,
        List.append_assoc, List.cons_append, Nat.add_right_comm, Nat.add_assoc]

end

/-- What a donor becomes at another depth from an offset on. -/
def restAt (donor : Donor) (indent : Text) (offset : Nat) : Text :=
  donor.rebaseRest indent ((donor.text.take offset).count newline) (donor.text.drop offset)

/-- Where an offset of a donor is at another depth. -/
def placeOf (donor : Donor) (indent : Text) (offset : Nat) : Nat :=
  (donor.rebase indent).length - (donor.restAt indent offset).length

private theorem restAt_zero : donor.restAt indent 0 = donor.rebase indent := rfl

/-- All line breaks of a range are followed by lines that begin inside a literal. -/
def KeepsLines (donor : Donor) (start stop : Nat) : Prop :=
  ∀ p q, donor.text.slice start stop = p ++ newline :: q →
    (donor.text.take start).count newline + p.count newline + 1 ∈ donor.literalLines

private theorem restAt_of_keepsLines {start stop : Nat} (h : donor.KeepsLines start stop)
    (hle : start ≤ stop) :
    donor.restAt indent start = donor.text.slice start stop ++ donor.restAt indent stop := by
  rw [restAt, ← slice_append_drop hle, rebaseRest_literal h, ← List.count_append,
    take_append_slice hle, restAt]

section

variable (hdonor : ∀ b ∈ donor.indent, b = 32 ∨ b = 9) (hindent : ∀ b ∈ indent, b = 32 ∨ b = 9)
include hdonor hindent

private theorem exists_restAt {start stop : Nat} (hle : start ≤ stop)
    (hvisible : StartsVisibly (donor.text.drop stop)) :
    ∃ front, front.count newline = (donor.text.slice start stop).count newline ∧
      (start < stop → front ≠ []) ∧
        donor.restAt indent start = front ++ donor.restAt indent stop := by
  obtain ⟨front, hcount, hne, hrest⟩ :=
    exists_rebaseRest (n := (donor.text.take start).count newline)
      (x := donor.text.slice start stop) hdonor hindent hvisible
  refine ⟨front, hcount, fun hlt => hne fun hnil => ?_, ?_⟩
  · have hdrop := List.length_pos_iff.mpr hvisible.ne_nil
    have hlen := slice_length (t := donor.text) (i := start) (j := stop)
      (by rw [List.length_drop] at hdrop; omega)
    rw [hnil, List.length_nil] at hlen
    omega
  · rw [restAt, ← slice_append_drop hle, hrest, ← List.count_append, take_append_slice hle, restAt]

/-- The place of a visible offset has the line of the offset, and what is behind it there is what
the donor becomes from the offset on. -/
theorem rebase_placeOf {offset : Nat} (hvisible : StartsVisibly (donor.text.drop offset)) :
    (donor.rebase indent).drop (donor.placeOf indent offset) = donor.restAt indent offset ∧
      (donor.rebase indent).lineAt (donor.placeOf indent offset) = donor.text.lineAt offset := by
  obtain ⟨front, hcount, _, hrest⟩ := exists_restAt hdonor hindent (Nat.zero_le offset) hvisible
  rw [restAt_zero] at hrest
  have hplace : donor.placeOf indent offset = front.length := by
    rw [placeOf, hrest, List.length_append, Nat.add_sub_cancel]
  rw [slice, List.drop_zero, Nat.sub_zero] at hcount
  rw [hplace, hrest, List.drop_left, lineAt, lineAt, List.take_left, hcount]
  exact ⟨rfl, rfl⟩

private theorem length_restAt_le {offset : Nat}
    (hvisible : StartsVisibly (donor.text.drop offset)) :
    (donor.restAt indent offset).length ≤ (donor.rebase indent).length := by
  rw [← (rebase_placeOf hdonor hindent hvisible).1, List.length_drop]
  exact Nat.sub_le _ _

theorem placeOf_lt_placeOf {start stop : Nat} (hlt : start < stop)
    (hstart : StartsVisibly (donor.text.drop start))
    (hstop : StartsVisibly (donor.text.drop stop)) :
    donor.placeOf indent start < donor.placeOf indent stop := by
  obtain ⟨front, _, hne, hrest⟩ := exists_restAt hdonor hindent (Nat.le_of_lt hlt) hstop
  have hfront := List.length_pos_iff.mpr (hne hlt)
  have hle := length_restAt_le hdonor hindent hstart
  rw [hrest, List.length_append] at hle
  rw [placeOf, placeOf, hrest, List.length_append]
  omega

section Literal

variable {start stop : Nat} (h : donor.KeepsLines start stop) (hle : start ≤ stop)
  (hstart : StartsVisibly (donor.text.drop start))
include h hle hstart

theorem slice_placeOf :
    (donor.rebase indent).slice (donor.placeOf indent start)
      (donor.placeOf indent start + (donor.text.slice start stop).length) =
        donor.text.slice start stop := by
  rw [slice, Nat.add_sub_cancel_left, (rebase_placeOf hdonor hindent hstart).1,
    restAt_of_keepsLines h hle, List.take_left]

theorem placeOf_add_le {behind : Nat} (hbehind : stop ≤ behind)
    (hvisible : StartsVisibly (donor.text.drop behind)) :
    donor.placeOf indent start + (donor.text.slice start stop).length ≤
      donor.placeOf indent behind := by
  obtain ⟨front, _, _, hrest⟩ := exists_restAt hdonor hindent hbehind hvisible
  have hlen := length_restAt_le hdonor hindent hstart
  rw [restAt_of_keepsLines h hle, hrest, List.length_append, List.length_append] at hlen
  rw [placeOf, placeOf, restAt_of_keepsLines h hle, hrest, List.length_append, List.length_append]
  omega

end Literal

end

end Donor

end RepairSearch
