import RepairSearch.Diff.Run

/-!
# Shortest edit scripts

Two sequences are compared by a search from both ends at once. Where the two searches meet, the
problem falls into two smaller ones of the same kind. Diagonal `k` holds the points `(x, y)` with
`x - y = k`; a search remembers how far it has come on every diagonal, also from one part of the
problem to the next.
-/

namespace RepairSearch.Diff

/-- How far the two searches have come on every diagonal. -/
structure Reach where
  /-- The place of diagonal zero. -/
  origin : Nat
  forward : Array Nat
  backward : Array Nat
deriving Repr

namespace Reach

def initial (limit : Nat) : Reach :=
  ⟨limit, Array.replicate (2 * limit + 2) 0, Array.replicate (2 * limit + 2) 0⟩

private def place (r : Reach) (k : Int) : Nat := (k + r.origin).toNat

def forwardAt (r : Reach) (k : Int) : Nat := r.forward.getD (r.place k) 0

def backwardAt (r : Reach) (k : Int) : Nat := r.backward.getD (r.place k) 0

def setForward (r : Reach) (k : Int) (x : Nat) : Reach :=
  { r with forward := r.forward.setIfInBounds (r.place k) x }

def setBackward (r : Reach) (k : Int) (x : Nat) : Reach :=
  { r with backward := r.backward.setIfInBounds (r.place k) x }

end Reach

/-- How many rounds the search between sequences of two lengths can take. -/
def rounds (n m : Nat) : Nat := (n + m + 1) / 2 + 1

/-- The diagonals that a round visits, from the highest down in steps of two. -/
def diagonals (d : Nat) : List Int :=
  (List.range (d + 1)).map fun (i : Nat) => (d : Int) - 2 * (i : Int)

/-- Where a search enters a diagonal: from the diagonal above or below, whichever is ahead. -/
private def entry (reach : Int → Nat) (d : Nat) (k : Int) : Nat :=
  if k = -d ∨ (k ≠ d ∧ reach (k - 1) < reach (k + 1)) then reach (k + 1) else reach (k - 1) + 1

section

variable {α : Type} [BEq α] (old new : Array α)

/-- One round of the search from the starts. The searches meet where the start of a diagonal run
is the answer. -/
private def forwardRound (p q : Range) (d : Nat) :
    List Int → Reach → Option (Nat × Nat) × Reach
  | [], r => (none, r)
  | k :: ks, r =>
    let n := p.length
    let delta : Int := n - q.length
    let x := entry r.forwardAt d k
    let y : Int := x - k
    let slide :=
      if x < n ∧ 0 ≤ y ∧ y < q.length then
        commonPrefix old new ⟨p.start + x, p.stop⟩ ⟨q.start + y.toNat, q.stop⟩
      else 0
    let r := r.setForward k (x + slide)
    if delta % 2 ≠ 0 ∧ (k - delta).natAbs < d ∧ n ≤ x + slide + r.backwardAt (delta - k) then
      (some (p.start + x, q.start + y.toNat), r)
    else forwardRound p q d ks r

/-- One round of the search from the ends. -/
private def backwardRound (p q : Range) (d : Nat) :
    List Int → Reach → Option (Nat × Nat) × Reach
  | [], r => (none, r)
  | k :: ks, r =>
    let n := p.length
    let m := q.length
    let delta : Int := n - m
    let x := entry r.backwardAt d k
    let y : Int := x - k
    let slide :=
      if x < n ∧ 0 ≤ y ∧ y < m then
        commonSuffix old new ⟨p.start, p.stop - x⟩ ⟨q.start, q.stop - y.toNat⟩
      else 0
    let r := r.setBackward k (x + slide)
    if delta % 2 = 0 ∧ (k - delta).natAbs ≤ d ∧ n ≤ x + slide + r.forwardAt (delta - k) then
      (some (p.start + n - (x + slide), q.start + m - (y + slide).toNat), r)
    else backwardRound p q d ks r

private def middleFrom (p q : Range) : Nat → Nat → Reach → Option (Nat × Nat) × Reach
  | 0, _, r => (none, r)
  | left + 1, d, r =>
    match forwardRound old new p q d (diagonals d) r with
    | (some point, r) => (some point, r)
    | (none, r) =>
      match backwardRound old new p q d (diagonals d) r with
      | (some point, r) => (some point, r)
      | (none, r) => middleFrom p q left (d + 1) r

/-- A point on a shortest way through two ranges. -/
def middle? (p q : Range) (r : Reach) : Option (Nat × Nat) × Reach :=
  middleFrom old new p q (rounds p.length q.length) 0 ((r.setForward 1 0).setBackward 1 0)

/-- The runs of two ranges of which nothing is common. -/
def changes (p q : Range) : List Run :=
  (if p.isEmpty then [] else [.delete p.start p.length q.start]) ++
    (if q.isEmpty then [] else [.insert p.start q.start q.length])

/-- The runs of two ranges. Each part of a problem is smaller than the whole, so their lengths
together bound the depth. -/
def compareRanges : Nat → Range → Range → Reach → List Run × Reach
  | 0, p, q, r => (changes p q, r)
  | depth + 1, p, q, r =>
    let head := commonPrefix old new p q
    let before := if 0 < head then [Run.equal p.start q.start head] else []
    let p : Range := ⟨p.start + head, p.stop⟩
    let q : Range := ⟨q.start + head, q.stop⟩
    let tail := commonSuffix old new p q
    let after := if 0 < tail then [Run.equal (p.stop - tail) (q.stop - tail) tail] else []
    let p : Range := ⟨p.start, p.stop - tail⟩
    let q : Range := ⟨q.start, q.stop - tail⟩
    let (inner, r) :=
      if p.isEmpty || q.isEmpty then (changes p q, r)
      else
        match middle? old new p q r with
        | (some (x, y), r) =>
          if p.partsAt x && q.partsAt y then
            let (first, r) := compareRanges depth ⟨p.start, x⟩ ⟨q.start, y⟩ r
            let (second, r) := compareRanges depth ⟨x, p.stop⟩ ⟨y, q.stop⟩ r
            (first ++ second, r)
          else (changes p q, r)
        | (none, r) => (changes p q, r)
    (before ++ inner ++ after, r)

/-- The runs of two sequences. -/
def script : List Run :=
  let n := old.size
  let m := new.size
  (compareRanges old new (n + m + 1) ⟨0, n⟩ ⟨0, m⟩ (Reach.initial (rounds n m))).1

end

end RepairSearch.Diff
