import RepairSearch.Proofs.Document.Deletion
import RepairSearch.Proofs.Text.Lines

/-!
# Deletions of whole lines

A range that has its lines to itself is deleted with them: of the list of lines the lines of the
range are gone and all others stay as they were. The line break behind the last of them stays
wherever there is a line before them.
-/

namespace RepairSearch

namespace Text

/-- Whether a range shares its first and its last line with white space only. -/
def HasOwnLines (t : Text) (start stop : Nat) : Prop :=
  (∀ l ∈ (lines (t.take start)).getLast?, l.isWhite = true) ∧
    ∀ l ∈ (lines (t.drop stop)).head?, l.isWhite = true

/-- The lines of a text without those that a range of it is on. -/
def linesAround (t : Text) (start stop : Nat) : List Text :=
  t.lines.take (t.lineAt start - 1) ++ t.lines.drop (t.lineAt (stop - 1))

private theorem hasOwnLines_iff {t : Text} {start stop : Nat} (h : start ≤ stop)
    (hstop : stop ≤ t.length) :
    t.HasOwnLines start stop ↔ (t.slice (t.lineStart start) start).isWhite = true ∧
      (t.slice stop (t.lineEnd stop)).isWhite = true := by
  rw [HasOwnLines, getLast?_lines_take (Nat.le_trans h hstop), head?_lines_drop hstop]
  simp

private theorem lineAt_pred_of_isSolid {t : Text} {start stop : Nat} (h : start < stop)
    (hstop : stop ≤ t.length) (hsolid : (t.slice start stop).isSolid = true) :
    t.lineAt (stop - 1) = t.lineAt stop := by
  apply lineAt_eq_of_slice (Nat.sub_le stop 1)
  intro hmem
  obtain ⟨b, hb⟩ : ∃ b, t[stop - 1]? = some b := ⟨_, List.getElem?_eq_getElem (by omega)⟩
  have hlast := slice_one hb
  rw [Nat.sub_add_cancel (by omega)] at hlast
  rw [hlast, List.mem_singleton] at hmem
  have hwhite : White (t.slice (stop - 1) stop) := by
    rw [hlast, ← hmem]
    exact White.newline
  have hle := solid_le_white hsolid h (Nat.le_refl stop) hstop hwhite
  omega

end Text

namespace Splice

open Text

private theorem deletion_of_not_hasOwnLines {t : Text} {start stop : Nat} (h : start ≤ stop)
    (hstop : stop ≤ t.length) (hown : ¬ t.HasOwnLines start stop) :
    deletion t start stop = ⟨start, stop, []⟩ := by
  rw [hasOwnLines_iff h hstop, ← Bool.and_eq_true, Bool.not_eq_true] at hown
  simp only [deletion]
  rw [hown, Bool.not_false, if_pos rfl]

/-- The three ways in which whole lines are cut: with the line break before them, with the one
behind them if they are the first, or all of the text. -/
theorem deletion_of_hasOwnLines {t : Text} {start stop : Nat} (h : start ≤ stop)
    (hstop : stop ≤ t.length) (hown : t.HasOwnLines start stop) :
    deletion t start stop =
      if 0 < t.lineStart start then ⟨t.lineStart start - 1, t.lineEnd stop, []⟩
      else if t.lineEnd stop < t.length then ⟨t.lineStart start, t.lineEnd stop + 1, []⟩
      else ⟨t.lineStart start, t.lineEnd stop, []⟩ := by
  rw [hasOwnLines_iff h hstop, ← Bool.and_eq_true] at hown
  simp only [deletion]
  rw [hown, if_neg (by decide)]

private theorem lines_apply_deletion {t : Text} {start stop : Nat} (h : start < stop)
    (hstop : stop ≤ t.length) (hsolid : (t.slice start stop).isSolid = true)
    (hown : t.HasOwnLines start stop) :
    ((deletion t start stop).apply t).lines =
      if t.linesAround start stop = [] then [[]] else t.linesAround start stop := by
  rw [linesAround, lineAt_pred_of_isSolid h hstop hsolid, lines_drop_lineAt,
    lines_take_lineAt (by omega), deletion_of_hasOwnLines (Nat.le_of_lt h) hstop hown]
  by_cases hfirst : 0 < t.lineStart start
  · -- The lines before them are over at the line break that is cut.
    rw [if_pos hfirst, if_pos hfirst, if_neg (by simp [lines_ne_nil])]
    change lines (t.take (t.lineStart start - 1) ++ [] ++ t.drop (t.lineEnd stop)) = _
    rw [List.append_nil]
    split
    · rename_i hlast
      rw [drop_lineEnd hlast, lines_append_newline]
    · rename_i hlast
      rw [List.drop_eq_nil_of_le (Nat.le_of_not_lt hlast), List.append_nil, List.append_nil]
  · have hzero : t.lineStart start = 0 := Nat.eq_zero_of_not_pos hfirst
    rw [if_neg hfirst, if_neg hfirst, hzero, List.nil_append]
    split
    · rw [if_neg (lines_ne_nil _)]
      rfl
    · rename_i hlast
      rw [if_pos rfl]
      change lines (t.take 0 ++ [] ++ t.drop (t.lineEnd stop)) = _
      rw [List.drop_eq_nil_of_le (Nat.le_of_not_lt hlast)]
      rfl

private theorem deletion_keeps_break {t : Text} {start stop : Nat} (h : start ≤ stop)
    (hstop : stop ≤ t.length) (hown : t.HasOwnLines start stop) :
    ¬ ((deletion t start stop).start < t.lineStart start ∧
      t.lineEnd stop < (deletion t start stop).stop) := by
  rw [deletion_of_hasOwnLines h hstop hown]
  split
  · exact fun hboth => Nat.lt_irrefl _ hboth.2
  · split <;> exact fun hboth => Nat.lt_irrefl _ hboth.1

private theorem deletion_keeps_last_break {t : Text} {start stop : Nat} (h : start ≤ stop)
    (hstop : stop ≤ t.length) (hown : t.HasOwnLines start stop) (hfirst : 1 < t.lineAt start) :
    (deletion t start stop).stop = t.lineEnd stop ∧
      (t.lineEnd stop < t.length →
        ((deletion t start stop).apply t)[(deletion t start stop).start]? = some newline) := by
  have hpos : 0 < t.lineStart start := by
    apply Nat.pos_of_ne_zero
    intro hzero
    have hline := lineAt_eq_of_slice (lineStart_le t start)
      (newline_not_mem_before (Nat.le_trans h hstop))
    rw [hzero] at hline
    change 1 = t.lineAt start at hline
    omega
  rw [deletion_of_hasOwnLines h hstop hown, if_pos hpos]
  refine ⟨rfl, fun hlast => ?_⟩
  have hlen : (t.take (t.lineStart start - 1)).length = t.lineStart start - 1 := by
    have hls := lineStart_le t start
    rw [List.length_take]
    omega
  change (t.take (t.lineStart start - 1) ++ [] ++ t.drop (t.lineEnd stop))[_]? = _
  rw [List.append_nil, drop_lineEnd hlast, List.getElem?_append_right (Nat.le_of_eq hlen), hlen,
    Nat.sub_self, List.getElem?_cons_zero]

/-- The deletion of a range that neither starts nor ends with white space. If it has its lines to
itself, exactly these lines go, with at most one of the line breaks around them, which is the one
before them if there is one. Otherwise exactly the range goes. -/
theorem deletion_lines {t : Text} {start stop : Nat} (h : start < stop) (hstop : stop ≤ t.length)
    (hsolid : (t.slice start stop).isSolid = true) :
    let cut := deletion t start stop
    (t.HasOwnLines start stop →
      (cut.apply t).lines =
        (if t.linesAround start stop = [] then [[]] else t.linesAround start stop) ∧
      ¬ (cut.start < t.lineStart start ∧ t.lineEnd stop < cut.stop) ∧
      (1 < t.lineAt start → cut.stop = t.lineEnd stop ∧
        (t.lineEnd stop < t.length → (cut.apply t)[cut.start]? = some newline))) ∧
    (¬ t.HasOwnLines start stop → cut = ⟨start, stop, []⟩) := by
  have hle := Nat.le_of_lt h
  refine ⟨fun hown => ⟨lines_apply_deletion h hstop hsolid hown, ?_, ?_⟩,
    deletion_of_not_hasOwnLines hle hstop⟩
  · exact deletion_keeps_break hle hstop hown
  · exact deletion_keeps_last_break hle hstop hown

/-- Of the lines `a`, ` b` and `c` the one in the middle is deleted with the break before it. -/
theorem deletion_lines_middle :
    let t : Text := [97, 10, 32, 98, 10, 99]
    ((deletion t 3 4).apply t).lines = [[97], [99]] ∧ (deletion t 3 4).stop = 4 := by
  intro t
  have hown : t.HasOwnLines 3 4 := by
    rw [hasOwnLines_iff (by decide) (by decide)]
    decide
  obtain ⟨hlines, _, hbreak⟩ :=
    (deletion_lines (show 3 < 4 by decide) (show 4 ≤ t.length by decide) (by decide)).1 hown
  exact ⟨hlines.trans (by decide), (hbreak (by decide)).1⟩

end Splice

end RepairSearch
