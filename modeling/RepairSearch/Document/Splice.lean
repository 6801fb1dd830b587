import RepairSearch.Text.Line

/-!
# Splices

A splice puts a text in the place of a range of another text. A range of the text before it has a
place in the text after it, unless the splice removes or overwrites the whole range.
-/

namespace RepairSearch

/-- A range of bytes. -/
structure Span where
  start : Nat
  stop : Nat
deriving DecidableEq, Repr, Inhabited

structure Splice where
  start : Nat
  stop : Nat
  text : Text
deriving DecidableEq, Repr, Inhabited

namespace Splice

/-- The text after the splice. -/
def apply (s : Splice) (t : Text) : Text := t.take s.start ++ s.text ++ t.drop s.stop

/-- The text after several splices, the first one first. -/
def applyAll (ss : List Splice) (t : Text) : Text := ss.foldl (fun t s => s.apply t) t

/-- An insertion at the start of a range moves the range, an insertion inside widens it. -/
def insertion (p : Span) (offset length : Nat) : Span :=
  if offset ≤ p.start then ⟨p.start + length, p.stop + length⟩
  else if offset < p.stop then ⟨p.start, p.stop + length⟩
  else p

/-- The place of a range after the splice. A range that overlaps the spliced range in part keeps
what lies outside of it together with the new text. -/
def move (s : Splice) (p : Span) : Option Span :=
  if s.start = s.stop then some (insertion p s.start s.text.length)
  else if p.stop ≤ s.start then some p
  else if s.stop ≤ p.start then
    some ⟨p.start - (s.stop - s.start) + s.text.length, p.stop - (s.stop - s.start) + s.text.length⟩
  else if s.start ≤ p.start ∧ p.stop ≤ s.stop then none
  else some
    ⟨if p.start < s.start then p.start else s.start + s.text.length,
      if s.stop < p.stop then p.stop - (s.stop - s.start) + s.text.length
      else s.start + s.text.length⟩

/-- The place of a range after several splices. -/
def moveAll (ss : List Splice) (p : Span) : Option Span :=
  ss.foldlM (fun p s => s.move p) p

/-- Cuts a range, and the whole of its lines if nothing else stands on them. The lines go with
the line break before them, so that the last line of a block keeps the break after it. -/
def deletion (t : Text) (start stop : Nat) : Splice :=
  let lineStart := t.lineStart start
  let lineEnd := t.lineEnd stop
  let alone := (t.slice lineStart start).isWhite && (t.slice stop lineEnd).isWhite
  if !alone then ⟨start, stop, []⟩
  else if 0 < lineStart then ⟨lineStart - 1, lineEnd, []⟩
  else if lineEnd < t.length then ⟨lineStart, lineEnd + 1, []⟩
  else ⟨lineStart, lineEnd, []⟩

end Splice

end RepairSearch
