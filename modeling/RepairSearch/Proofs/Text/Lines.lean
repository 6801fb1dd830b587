import RepairSearch.Proofs.Text.Line

/-!
# The list of lines

The lines of two texts with a line break between them are those of the first and then those of the
second. So the lines that are over before an offset, and those that begin behind it, are the lines
of the text as far as the line of the offset starts and of the text from where that line has ended.
-/

namespace RepairSearch.Text

private theorem lines_eq_splitOn (t : Text) : t.lines = t.splitOn newline := by
  induction t with
  | nil => rw [lines, List.splitOn_nil]
  | cons b t ih =>
    rw [lines, List.splitOn_cons_eq_if_modifyHead, ih]
    split
    · rfl
    · obtain ⟨l, ls, hls⟩ := List.exists_cons_of_ne_nil (List.splitOn_ne_nil newline t)
      rw [hls, List.modifyHead_cons]

@[simp] theorem lines_nil : lines [] = [[]] := rfl

theorem lines_ne_nil (t : Text) : t.lines ≠ [] := by
  rw [lines_eq_splitOn]
  exact List.splitOn_ne_nil newline t

theorem lines_append_newline (t u : Text) : lines (t ++ newline :: u) = t.lines ++ u.lines := by
  rw [lines_eq_splitOn, List.splitOn_append_cons_self, ← lines_eq_splitOn, ← lines_eq_splitOn]

theorem lines_of_not_mem {t : Text} (h : newline ∉ t) : t.lines = [t] := by
  rw [lines_eq_splitOn, List.splitOn_eq_singleton h]

private theorem length_lines (t : Text) : t.lines.length = t.count newline + 1 := by
  induction t with
  | nil => rfl
  | cons b t ih =>
    rw [lines]
    split
    · rename_i hb
      rw [List.length_cons, ih, List.count_cons, if_pos hb]
    · rename_i hb
      obtain ⟨l, ls, hls⟩ := List.exists_cons_of_ne_nil (lines_ne_nil t)
      rw [hls, List.length_cons] at ih
      rw [hls, List.length_cons, ih, List.count_cons, if_neg hb]

theorem newline_not_mem_of_mem_lines {t l : Text} (h : l ∈ t.lines) : newline ∉ l := by
  induction t generalizing l with
  | nil =>
    rw [List.mem_singleton.mp h]
    exact List.not_mem_nil
  | cons b t ih =>
    obtain ⟨k, ks, hlines⟩ := List.exists_cons_of_ne_nil (lines_ne_nil t)
    rw [hlines] at ih
    rw [lines, hlines] at h
    split at h
    · rcases List.mem_cons.mp h with rfl | h
      · exact List.not_mem_nil
      · exact ih h
    · rename_i hb
      rcases List.mem_cons.mp h with rfl | h
      · have hk := ih List.mem_cons_self
        intro hmem
        rcases List.mem_cons.mp hmem with he | hmem
        · exact hb (beq_iff_eq.mpr he.symm)
        · exact hk hmem
      · exact ih (List.mem_cons_of_mem k h)

theorem lines_unlines {ls : List Text} (hne : ls ≠ []) (h : ∀ l ∈ ls, newline ∉ l) :
    lines (unlines ls) = ls := by
  rw [lines_eq_splitOn, unlines, List.splitOn_intercalate newline h hne]

private theorem slice_eq_drop_take (t : Text) (i j : Nat) : t.slice i j = (t.take j).drop i := by
  rw [slice, List.drop_take]

private theorem newline_not_mem_run (t : Text) : newline ∉ t.takeWhile (· != newline) := by
  intro hmem
  have h := List.all_eq_true.mp (List.all_takeWhile (l := t) (p := (· != newline))) newline hmem
  simp at h

/-- No line break stands between the start of a line and an offset on it. -/
theorem newline_not_mem_before {t : Text} {i : Nat} (hi : i ≤ t.length) :
    newline ∉ t.slice (t.lineStart i) i := by
  have hsplit : t.take i = ((t.take i).reverse.dropWhile (· != newline)).reverse ++
      ((t.take i).reverse.takeWhile (· != newline)).reverse := by
    rw [← List.reverse_append, List.takeWhile_append_dropWhile, List.reverse_reverse]
  have hlen : ((t.take i).reverse.dropWhile (· != newline)).reverse.length = t.lineStart i := by
    have hrun : ((t.take i).reverse.takeWhile (· != newline)).reverse.length = t.columnAt i :=
      List.length_reverse
    have h := congrArg List.length hsplit
    rw [List.length_append, hrun, List.length_take_of_le hi] at h
    rw [lineStart]
    omega
  rw [slice_eq_drop_take, hsplit, ← hlen, List.drop_left, List.mem_reverse]
  exact newline_not_mem_run _

private theorem newline_not_mem_behind (t : Text) (i : Nat) :
    newline ∉ t.slice i (t.lineEnd i) := by
  have hrun := List.takeWhile_prefix (· != newline) (l := t.drop i)
  rw [slice, lineEnd, Nat.add_sub_cancel_left, ← List.prefix_iff_eq_take.mp hrun]
  exact newline_not_mem_run _

private theorem take_lineStart {t : Text} {i : Nat} (hi : i ≤ t.length) (hpos : 0 < t.lineStart i) :
    t.take (t.lineStart i) = t.take (t.lineStart i - 1) ++ [newline] := by
  rw [← slice_lineStart hi hpos, take_append_slice (Nat.sub_le _ _)]

/-- A text from the end of a line that is not the last: a line break, what is behind it. -/
theorem drop_lineEnd {t : Text} {i : Nat} (h : t.lineEnd i < t.length) :
    t.drop (t.lineEnd i) = newline :: t.drop (t.lineEnd i + 1) := by
  rw [← slice_append_drop (Nat.le_succ _), slice_lineEnd h, List.singleton_append]

/-- The last line of a text as far as an offset. -/
theorem getLast?_lines_take {t : Text} {i : Nat} (hi : i ≤ t.length) :
    (lines (t.take i)).getLast? = some (t.slice (t.lineStart i) i) := by
  have hline := lines_of_not_mem (newline_not_mem_before hi)
  rw [← take_append_slice (lineStart_le t i)]
  rcases Nat.eq_zero_or_pos (t.lineStart i) with hzero | hpos
  · rw [hzero, List.take_zero, List.nil_append, ← hzero, hline, List.getLast?_singleton]
  · rw [take_lineStart hi hpos, List.append_assoc, List.singleton_append, lines_append_newline,
      hline, List.getLast?_concat]

/-- The first line of a text from an offset on. -/
theorem head?_lines_drop {t : Text} {i : Nat} (hi : i ≤ t.length) :
    (lines (t.drop i)).head? = some (t.slice i (t.lineEnd i)) := by
  have hline := lines_of_not_mem (newline_not_mem_behind t i)
  rw [← slice_append_drop (le_lineEnd t i)]
  rcases Nat.lt_or_eq_of_le (lineEnd_le hi) with hlt | heq
  · rw [drop_lineEnd hlt, lines_append_newline, hline, List.singleton_append, List.head?_cons]
  · rw [heq, List.drop_length, List.append_nil, ← heq, hline, List.head?_cons]

theorem lineStart_of_getLast? {t line : Text} {i : Nat} (hi : i ≤ t.length)
    (h : (lines (t.take i)).getLast? = some line) : t.lineStart i = i - line.length := by
  rw [getLast?_lines_take hi] at h
  have hle := lineStart_le t i
  have hlen := slice_length (i := t.lineStart i) hi
  rw [Option.some.inj h] at hlen
  omega

theorem lineEnd_of_head? {t line : Text} {i : Nat} (hi : i ≤ t.length)
    (h : (lines (t.drop i)).head? = some line) : t.lineEnd i = i + line.length := by
  rw [head?_lines_drop hi] at h
  have hle := le_lineEnd t i
  have hlen := slice_length (i := i) (lineEnd_le hi)
  rw [Option.some.inj h] at hlen
  omega

theorem lineAt_eq_of_slice {t : Text} {i j : Nat} (h : i ≤ j) (hmem : newline ∉ t.slice i j) :
    t.lineAt i = t.lineAt j := by
  rw [lineAt, lineAt, ← take_append_slice h, List.count_append, List.count_eq_zero.mpr hmem]

theorem lines_take_lineAt {t : Text} {i : Nat} (hi : i ≤ t.length) :
    t.lines.take (t.lineAt i - 1) =
      if 0 < t.lineStart i then lines (t.take (t.lineStart i - 1)) else [] := by
  rw [← lineAt_eq_of_slice (lineStart_le t i) (newline_not_mem_before hi), lineAt,
    Nat.add_sub_cancel]
  split
  · rename_i hpos
    have hlines :
        t.lines = lines (t.take (t.lineStart i - 1)) ++ lines (t.drop (t.lineStart i)) := by
      rw [← lines_append_newline, ← List.singleton_append, ← List.append_assoc,
        ← take_lineStart hi hpos, List.take_append_drop]
    rw [hlines, take_lineStart hi hpos, List.count_append, List.count_singleton_self,
      ← length_lines, List.take_left]
  · rename_i hzero
    rw [Nat.eq_zero_of_not_pos hzero, List.take_zero, List.count_nil, List.take_zero]

theorem lines_drop_lineAt (t : Text) (i : Nat) :
    t.lines.drop (t.lineAt i) =
      if t.lineEnd i < t.length then lines (t.drop (t.lineEnd i + 1)) else [] := by
  rw [lineAt_eq_of_slice (le_lineEnd t i) (newline_not_mem_behind t i), lineAt, ← length_lines]
  split
  · rename_i hlt
    have hlines : t.lines = lines (t.take (t.lineEnd i)) ++ lines (t.drop (t.lineEnd i + 1)) := by
      rw [← lines_append_newline, ← drop_lineEnd hlt, List.take_append_drop]
    rw [hlines, List.drop_left]
  · rename_i hlt
    rw [List.take_of_length_le (Nat.le_of_not_lt hlt), List.drop_length]

theorem white_of_isBlank {t : Text} (h : ∀ b ∈ t, isBlank b = true) : White t := by
  have hone : ∀ c : Char, isSpace c = true → White (ofChars [c]) := by
    intro c hc
    refine ⟨[c], fun c' hc' => ?_, rfl⟩
    rwa [List.mem_singleton.mp hc']
  induction t with
  | nil => exact White.nil
  | cons b t ih =>
    have hb : White [b] := by
      have hbyte : b = 32 ∨ b = 9 ∨ b = 10 ∨ b = 12 ∨ b = 13 := by
        simpa [isBlank, or_assoc] using h b List.mem_cons_self
      rcases hbyte with rfl | rfl | rfl | rfl | rfl
      · exact hone ' ' rfl
      · exact hone '\t' rfl
      · exact hone '\n' rfl
      · exact hone '\x0c' rfl
      · exact hone '\r' rfl
    exact hb.append (ih fun b hb => h b (List.mem_cons_of_mem _ hb))

private theorem isWhite_iff {t : Text} : t.isWhite = true ↔ White t := by
  constructor
  · exact white_of_isWhite
  · rintro ⟨cs, hcs, rfl⟩
    have hread := toString?_ofChars (String.ofList cs)
    rw [String.toList_ofList] at hread
    rw [isWhite, hread]
    simpa [isBlankString] using hcs

private theorem isWhite_of_isBlank {t : Text} (h : ∀ b ∈ t, isBlank b = true) : t.isWhite = true :=
  isWhite_iff.mpr (white_of_isBlank h)

private theorem White.of_append {t u : Text} (ht : White t) (h : White (t ++ u)) : White u := by
  obtain ⟨cs, _, rfl⟩ := ht
  obtain ⟨ds, hds, hsplit⟩ := h
  obtain ⟨es, rfl⟩ := ofChars_prefix hsplit.symm
  rw [ofChars_append] at hsplit
  exact ⟨es, fun c hc => hds c (List.mem_append_right _ hc), List.append_cancel_left hsplit⟩

/-- A range that does not end in white space has nothing at its end to trim. -/
theorem trimmedEnd_of_isSolid {t : Text} {start stop : Nat} (h : start ≤ stop)
    (hstop : stop ≤ t.length) (hsolid : (t.slice start stop).isSolid = true) :
    t.trimmedEnd start stop = stop := by
  rcases Nat.lt_or_eq_of_le h with hlt | rfl
  · have hwhite := white_of_isBlank (slice_trimmedEnd h hstop)
    exact Nat.le_antisymm (trimmedEnd_le t start stop)
      (solid_le_white hsolid hlt (Nat.le_refl stop) hstop hwhite)
  · rw [trimmedEnd, slice_self]
    rfl

theorem isBlank_of_indent {indent : Text} (h : ∀ b ∈ indent, b = 32 ∨ b = 9) :
    ∀ b ∈ indent, isBlank b = true := by
  intro b hb
  rcases h b hb with rfl | rfl <;> decide

theorem newline_not_mem_indent {indent : Text} (h : ∀ b ∈ indent, b = 32 ∨ b = 9) :
    newline ∉ indent := by
  intro hmem
  rcases h _ hmem with h | h <;> exact absurd h (by decide)

theorem isWhite_of_indent {indent : Text} (h : ∀ b ∈ indent, b = 32 ∨ b = 9) :
    indent.isWhite = true :=
  isWhite_of_isBlank (isBlank_of_indent h)

theorem isWhite_indent_append {indent : Text} (h : ∀ b ∈ indent, b = 32 ∨ b = 9) (t : Text) :
    (indent ++ t).isWhite = t.isWhite := by
  have hwhite := white_of_isBlank (isBlank_of_indent h)
  rw [Bool.eq_iff_iff, isWhite_iff, isWhite_iff]
  exact ⟨hwhite.of_append, hwhite.append⟩

end RepairSearch.Text
