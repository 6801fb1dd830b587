import RepairSearch.Document.Donor
import RepairSearch.Proofs.Text.Lines

/-!
# Indenting anew

A donor whose lines begin with its indentation can be moved to one depth and from there to another
as if it had been moved at once. Moved back, it is the donor again, but for its blank lines.
-/

namespace RepairSearch

namespace Donor

open Text

/-- Some of the lines of a donor at another depth, the first of them with the number `n`. -/
def rebaseLines (donor : Donor) (indent : Text) (n : Nat) (ls : List Text) : List Text :=
  (ls.zipIdx n).map fun (line, k) => donor.rebaseLine indent line k

section

variable {donor : Donor} {indent line : Text} {n : Nat}

theorem rebaseLines_cons {ls : List Text} :
    donor.rebaseLines indent n (line :: ls) =
      donor.rebaseLine indent line n :: donor.rebaseLines indent (n + 1) ls := rfl

private theorem rebase_of_lines {first : Text} {rest : List Text}
    (h : donor.text.lines = first :: rest) :
    donor.rebase indent = unlines (first :: donor.rebaseLines indent 1 rest) := by
  rw [rebase, h]
  rfl

theorem rebaseLine_literal (h : n ∈ donor.literalLines) :
    donor.rebaseLine indent line n = line := by
  rw [rebaseLine, if_pos (List.contains_iff_mem.mpr h)]

private theorem rebaseLine_white (h : n ∉ donor.literalLines) (hline : line.isWhite = true) :
    donor.rebaseLine indent line n = [] := by
  rw [rebaseLine, if_neg (by simpa using h), if_pos hline]

theorem rebaseLine_indented (h : n ∉ donor.literalLines)
    (hline : (donor.indent ++ line).isWhite = false) :
    donor.rebaseLine indent (donor.indent ++ line) n = indent ++ line := by
  rw [rebaseLine, if_neg (by simpa using h), if_neg (by simp [hline]),
    if_pos (List.isPrefixOf_iff_prefix.mpr (List.prefix_append _ _)), List.drop_left]

theorem rebaseLine_shallow (h : n ∉ donor.literalLines) (hwhite : line.isWhite = false)
    (hline : ¬ donor.indent <+: line) : donor.rebaseLine indent line n = line := by
  rw [rebaseLine, if_neg (by simpa using h), if_neg (by simp [hwhite]),
    if_neg (by rwa [List.isPrefixOf_iff_prefix])]

theorem newline_not_mem_rebaseLine (hindent : newline ∉ indent) (hline : newline ∉ line) :
    newline ∉ donor.rebaseLine indent line n := by
  rw [rebaseLine]
  split
  · exact hline
  split
  · exact List.not_mem_nil
  split
  · rw [List.mem_append, not_or]
    exact ⟨hindent, fun hmem => hline (List.mem_of_mem_drop hmem)⟩
  · exact hline

private theorem newline_not_mem_rebaseLines (hindent : newline ∉ indent) {ls : List Text}
    (hls : ∀ l ∈ ls, newline ∉ l) : ∀ l ∈ donor.rebaseLines indent n ls, newline ∉ l := by
  intro l hl
  obtain ⟨⟨line, k⟩, hline, rfl⟩ := List.mem_map.mp hl
  exact newline_not_mem_rebaseLine hindent (hls line (List.fst_mem_of_mem_zipIdx hline))

private theorem lines_rebase (hindent : newline ∉ indent) {first : Text} {rest : List Text}
    (h : donor.text.lines = first :: rest) :
    (donor.rebase indent).lines = first :: donor.rebaseLines indent 1 rest := by
  have hlines : ∀ l ∈ first :: rest, newline ∉ l := by
    intro l hl
    exact newline_not_mem_of_mem_lines (h ▸ hl)
  rw [rebase_of_lines h]
  refine lines_unlines (List.cons_ne_nil _ _) fun l hl => ?_
  rcases List.mem_cons.mp hl with rfl | hl
  · exact hlines l List.mem_cons_self
  · exact newline_not_mem_rebaseLines hindent
      (fun k hk => hlines k (List.mem_cons_of_mem _ hk)) l hl

end

/-- All lines behind the first begin with the indentation of the donor, except blank ones and those
that begin inside a literal. -/
structure WellIndented (donor : Donor) : Prop where
  indent : ∀ b ∈ donor.indent, b = 32 ∨ b = 9
  lines : ∀ p ∈ donor.text.lines.tail.zipIdx 1, p.2 ∉ donor.literalLines →
    p.1.isWhite = false → donor.indent <+: p.1

instance (donor : Donor) : Decidable donor.WellIndented :=
  -- over the bytes of the list, not over all bytes
  have : Decidable (∀ b ∈ donor.indent, b = 32 ∨ b = 9) := List.decidableBAll _ _
  decidable_of_iff ((∀ b ∈ donor.indent, b = 32 ∨ b = 9) ∧
      ∀ p ∈ donor.text.lines.tail.zipIdx 1, p.2 ∉ donor.literalLines →
        p.1.isWhite = false → donor.indent <+: p.1)
    ⟨fun ⟨hindent, hlines⟩ => ⟨hindent, hlines⟩, fun h => ⟨h.indent, h.lines⟩⟩

/-- The donor that a donor has become at another depth. -/
def moved (donor : Donor) (indent : Text) : Donor :=
  { donor with text := donor.rebase indent, indent }

/-- A line with nothing on it if it is blank, unless it begins inside a literal. -/
def tidyLine (donor : Donor) (line : Text) (n : Nat) : Text :=
  if n ∉ donor.literalLines ∧ line.isWhite = true then [] else line

/-- The text of a donor with nothing on its blank lines. -/
def tidied (donor : Donor) : Text :=
  match donor.text.lines with
  | [] => []
  | first :: rest => unlines (first :: (rest.zipIdx 1).map fun (line, n) => donor.tidyLine line n)

variable {donor : Donor}

private theorem rebaseLine_moved {line j k : Text} {n : Nat}
    (hindent : ∀ b ∈ donor.indent, b = 32 ∨ b = 9) (hj : ∀ b ∈ j, b = 32 ∨ b = 9)
    (hline : n ∉ donor.literalLines → line.isWhite = false → donor.indent <+: line) :
    (donor.moved j).rebaseLine k (donor.rebaseLine j line n) n = donor.rebaseLine k line n := by
  by_cases hliteral : n ∈ donor.literalLines
  · have hmoved : n ∈ (donor.moved j).literalLines := hliteral
    rw [rebaseLine_literal hliteral, rebaseLine_literal hmoved, rebaseLine_literal hliteral]
  · have hmoved : n ∉ (donor.moved j).literalLines := hliteral
    by_cases hwhite : line.isWhite = true
    · rw [rebaseLine_white hliteral hwhite, rebaseLine_white hliteral hwhite,
        rebaseLine_white hmoved rfl]
    · obtain ⟨body, rfl⟩ := hline hliteral (by simpa using hwhite)
      rw [Bool.not_eq_true] at hwhite
      have hbody : (j ++ body).isWhite = false := by
        rwa [isWhite_indent_append hj, ← isWhite_indent_append hindent]
      rw [rebaseLine_indented hliteral hwhite, rebaseLine_indented hliteral hwhite]
      exact rebaseLine_indented hmoved hbody

private theorem rebaseLines_moved {ls : List Text} {j k : Text} {n : Nat}
    (hindent : ∀ b ∈ donor.indent, b = 32 ∨ b = 9) (hj : ∀ b ∈ j, b = 32 ∨ b = 9)
    (hls : ∀ p ∈ ls.zipIdx n, p.2 ∉ donor.literalLines → p.1.isWhite = false →
      donor.indent <+: p.1) :
    (donor.moved j).rebaseLines k n (donor.rebaseLines j n ls) = donor.rebaseLines k n ls := by
  induction ls generalizing n with
  | nil => rfl
  | cons line ls ih =>
    rw [List.zipIdx_cons, List.forall_mem_cons] at hls
    rw [rebaseLines_cons, rebaseLines_cons, rebaseLines_cons, ih hls.2,
      rebaseLine_moved hindent hj hls.1]

private theorem rebaseLine_indent {line : Text} {n : Nat}
    (hline : n ∉ donor.literalLines → line.isWhite = false → donor.indent <+: line) :
    donor.rebaseLine donor.indent line n = donor.tidyLine line n := by
  rw [tidyLine]
  by_cases hliteral : n ∈ donor.literalLines
  · rw [rebaseLine_literal hliteral, if_neg (fun h => h.1 hliteral)]
  by_cases hwhite : line.isWhite = true
  · rw [rebaseLine_white hliteral hwhite, if_pos ⟨hliteral, hwhite⟩]
  · rw [if_neg (fun h => hwhite h.2)]
    obtain ⟨body, rfl⟩ := hline hliteral (by simpa using hwhite)
    exact rebaseLine_indented hliteral (by simpa using hwhite)

/-- A well indented donor that is moved twice is where it would be if it had been moved at once; and
moved back to its own depth it has only lost what was on its blank lines. -/
theorem rebase_moved (h : donor.WellIndented) {j : Text} (hj : ∀ b ∈ j, b = 32 ∨ b = 9) :
    (∀ k, (donor.moved j).rebase k = donor.rebase k) ∧
      (donor.moved j).rebase donor.indent = donor.tidied := by
  obtain ⟨first, rest, hlines⟩ := List.exists_cons_of_ne_nil (lines_ne_nil donor.text)
  have hrest := h.lines
  rw [hlines, List.tail_cons] at hrest
  have hmoved : (donor.moved j).text.lines = first :: donor.rebaseLines j 1 rest :=
    lines_rebase (newline_not_mem_indent hj) hlines
  have hcompose (k : Text) : (donor.moved j).rebase k = donor.rebase k := by
    rw [rebase_of_lines hmoved, rebase_of_lines hlines, rebaseLines_moved h.indent hj hrest]
  have htidy : donor.rebaseLines donor.indent 1 rest =
      (rest.zipIdx 1).map fun (line, n) => donor.tidyLine line n :=
    List.map_congr_left fun p hp => rebaseLine_indent (hrest p hp)
  refine ⟨hcompose, ?_⟩
  rw [hcompose, rebase_of_lines hlines, htidy, tidied, hlines]

/-- The second line begins inside a literal and stays, the third one of a single space is emptied,
and the last one is moved from two spaces to a tab and back. -/
theorem rebase_moved_literal :
    let donor : Donor :=
      { text := Text.ofString "x\ny\n \n  z", indent := [32, 32], literalLines := [1] }
    (donor.moved [9]).text = Text.ofString "x\ny\n\n\tz" ∧
      (donor.moved [9]).rebase [32, 32] = Text.ofString "x\ny\n\n  z" := by
  intro donor
  have h : donor.WellIndented := by decide +kernel
  have hback := (rebase_moved h (j := [9]) (by simp)).2
  exact ⟨by decide +kernel, hback.trans (by decide +kernel)⟩

end Donor

end RepairSearch
