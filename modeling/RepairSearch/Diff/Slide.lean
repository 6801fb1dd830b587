import RepairSearch.Diff.Run

/-!
# Moving changes together

A change can often stand in several places: an insertion next to an equal run may slide over the
lines that the run shares with it. Every change is moved up as far as it goes and then down as far
as it goes, and changes that meet are joined.
-/

namespace RepairSearch.Diff

namespace Run

def longer (r : Run) (n : Nat) : Run :=
  match r.kind with
  | .delete => { r with oldLength := r.oldLength + n }
  | .insert => { r with newLength := r.newLength + n }
  | _ => { r with oldLength := r.oldLength + n, newLength := r.newLength + n }

def shorter (r : Run) (n : Nat) : Run :=
  { r with oldLength := r.oldLength - n, newLength := r.newLength - n }

def earlier (r : Run) (n : Nat) : Run := { r with old := r.old - n, new := r.new - n }

def later (r : Run) (n : Nat) : Run := { r with old := r.old + n, new := r.new + n }

def oldRange (r : Run) : Range := ⟨r.old, r.oldEnd⟩

def newRange (r : Run) : Range := ⟨r.new, r.newEnd⟩

/-- How much longer a run becomes that takes in another run of its kind. -/
def changed (r : Run) : Nat :=
  match r.kind with
  | .delete => r.oldLength
  | _ => r.newLength

/-- The runs below an equal run, with it on top or in the first one. -/
def onTop (r : Run) (below : List Run) : List Run :=
  match below with
  | b :: bs =>
    if b.kind = .equal then (b.longer r.oldLength).earlier r.oldLength :: bs else r :: b :: bs
  | [] => [r]

/-- The runs above an equal run, nearest first, with it underneath or in the nearest one. -/
def underneath (r : Run) (above : List Run) : List Run :=
  match above with
  | a :: as => if a.kind = .equal then a.longer r.oldLength :: as else r :: a :: as
  | [] => [r]

end Run

/-- What is left to pass: every run with its lines. -/
def remaining : List Run → Nat
  | [] => 0
  | r :: rs => r.oldLength + 1 + remaining rs

section

variable {α : Type} [BEq α] (old new : Array α)

/-- The runs above a change, nearest first, the change and the runs below it. -/
structure Site where
  above : List Run
  change : Run
  below : List Run

/-- Moves a change up over the runs above it. -/
def up (above : List Run) (change : Run) (below : List Run) : Site :=
  match above with
  | [] => ⟨[], change, below⟩
  | r :: rest =>
    if r.kind = .equal then
      let n := commonSuffix old new r.oldRange change.newRange
      if 0 < n ∧ 0 < r.oldLength then
        let passed := Run.equal (r.oldEnd - n) (change.newEnd - n) n
        up (r.shorter n :: rest) (change.earlier n) (passed.onTop below)
      else if r.oldLength = 0 then up rest change below
      else ⟨r :: rest, change, below⟩
    else if r.kind = change.kind then up rest (r.longer change.changed) below
    else up rest change (r :: below)
termination_by remaining above
decreasing_by all_goals simp [remaining, Run.shorter]; try omega

/-- Moves a change down over the runs below it. -/
def down (above : List Run) (change : Run) (below : List Run) : Site :=
  match below with
  | [] => ⟨above, change, []⟩
  | r :: rest =>
    if r.kind = .equal then
      let n := commonPrefix old new r.oldRange change.newRange
      if 0 < n ∧ 0 < r.oldLength then
        let passed := Run.equal r.old change.new n
        down (passed.underneath above) (change.later n) ((r.shorter n).later n :: rest)
      else if r.oldLength = 0 then down above change rest
      else ⟨above, change, r :: rest⟩
    else if r.kind = change.kind then down above (change.longer r.changed) rest
    else down (r :: above) change rest
termination_by remaining below
decreasing_by all_goals simp [remaining, Run.shorter, Run.later]; try omega

/-- Moves every change of a kind, from the first run on. -/
def slideKind (kind : Kind) : Nat → List Run → List Run → List Run
  | 0, above, below => above.reverse ++ below
  | _ + 1, above, [] => above.reverse
  | steps + 1, above, r :: below =>
    if r.kind = kind then
      let s := up old new above r below
      let s := down old new s.above s.change s.below
      slideKind kind steps (s.change :: s.above) s.below
    else slideKind kind steps (r :: above) below

/-- Moves the deletions and then the insertions. No run is met more often than there are runs
and lines. -/
def slide (rs : List Run) : List Run :=
  let steps := fun (rs : List Run) => rs.length + old.size + new.size + 1
  let rs := slideKind old new .delete (steps rs) [] rs
  slideKind old new .insert (steps rs) [] rs

end

/-- Joins neighbouring runs: equal ones, and the changes between two equal ones. -/
def join : List Run → List Run
  | [] => []
  | r :: rs =>
    match join rs with
    | [] => [r]
    | s :: ss =>
      match r.kind, s.kind with
      | .equal, .equal => Run.equal r.old r.new (r.oldLength + s.oldLength) :: ss
      | .delete, .delete => Run.delete r.old (r.oldLength + s.oldLength) r.new :: ss
      | .insert, .insert => Run.insert r.old r.new (r.newLength + s.newLength) :: ss
      | .delete, .insert => ⟨.replace, r.old, r.oldLength, s.new, s.newLength⟩ :: ss
      | .insert, .delete => ⟨.replace, s.old, s.oldLength, r.new, r.newLength⟩ :: ss
      | .delete, .replace => ⟨.replace, r.old, r.oldLength + s.oldLength, s.new, s.newLength⟩ :: ss
      | .insert, .replace => ⟨.replace, s.old, s.oldLength, r.new, r.newLength + s.newLength⟩ :: ss
      | _, _ => r :: s :: ss

end RepairSearch.Diff
