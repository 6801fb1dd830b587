import RepairSearch.Document.Splice
import RepairSearch.Proofs.Text.Line

/-!
# Deletions

A deletion may cut more than its range, but only white space on either side. It therefore never
reaches a neighbour that neither starts nor ends with white space.
-/

namespace RepairSearch.Splice

open Text

/-- A splice that cuts at least a range of a text, and beyond it white space only. -/
structure CutsAround (s : Splice) (t : Text) (start stop : Nat) : Prop where
  start_le : s.start ≤ start
  le_stop : stop ≤ s.stop
  stop_le : s.stop ≤ t.length
  before : White (t.slice s.start start)
  behind : White (t.slice stop s.stop)

private theorem white_before_line {t : Text} {start : Nat} (hstart : start ≤ t.length)
    (hwhite : (t.slice (t.lineStart start) start).isWhite = true)
    (hpos : 0 < t.lineStart start) : White (t.slice (t.lineStart start - 1) start) := by
  have hsplit := slice_append (t := t) (Nat.sub_le (t.lineStart start) 1) (lineStart_le t start)
  rw [← hsplit, slice_lineStart hstart hpos]
  exact White.newline.append (white_of_isWhite hwhite)

private theorem white_behind_line {t : Text} {stop : Nat}
    (hwhite : (t.slice stop (t.lineEnd stop)).isWhite = true)
    (hend : t.lineEnd stop < t.length) : White (t.slice stop (t.lineEnd stop + 1)) := by
  have hsplit := slice_append (t := t) (le_lineEnd t stop) (Nat.le_succ (t.lineEnd stop))
  rw [← hsplit, slice_lineEnd hend]
  exact (white_of_isWhite hwhite).append White.newline

theorem deletion_cutsAround {t : Text} {start stop : Nat} (h : start ≤ stop)
    (hstop : stop ≤ t.length) : (deletion t start stop).CutsAround t start stop := by
  have hls := lineStart_le t start
  have hle := le_lineEnd t stop
  have hlen := lineEnd_le hstop
  simp only [deletion]
  split
  · exact ⟨Nat.le_refl _, Nat.le_refl _, hstop, by simpa using White.nil, by simpa using White.nil⟩
  · rename_i halone
    simp only [Bool.not_eq_true', Bool.and_eq_false_iff, not_or, Bool.not_eq_false] at halone
    obtain ⟨hbefore, hbehind⟩ := halone
    split
    · rename_i hpos
      refine ⟨?_, hle, hlen, ?_, white_of_isWhite hbehind⟩
      · change t.lineStart start - 1 ≤ start
        omega
      · exact white_before_line (by omega) hbefore hpos
    · split
      · rename_i hend
        refine ⟨hls, ?_, ?_, white_of_isWhite hbefore, white_behind_line hbehind hend⟩
        · exact Nat.le_succ_of_le hle
        · exact hend
      · exact ⟨hls, hle, hlen, white_of_isWhite hbefore, white_of_isWhite hbehind⟩

/-- A solid range before the deleted one stays before all that is cut. -/
theorem CutsAround.before_solid {s : Splice} {t : Text} {start stop k l : Nat}
    (h : s.CutsAround t start stop) (hle : start ≤ t.length)
    (hsolid : (t.slice k l).isSolid = true) (hkl : k < l) (hl : l ≤ start) : l ≤ s.start :=
  solid_le_white hsolid hkl hl hle h.before

/-- A solid range behind the deleted one stays behind all that is cut. -/
theorem CutsAround.behind_solid {s : Splice} {t : Text} {start stop k l : Nat}
    (h : s.CutsAround t start stop) (hsolid : (t.slice k l).isSolid = true) (hkl : k < l)
    (hl : l ≤ t.length) (hk : stop ≤ k) : s.stop ≤ k :=
  white_le_solid hsolid hkl hl h.stop_le hk h.behind

end RepairSearch.Splice
