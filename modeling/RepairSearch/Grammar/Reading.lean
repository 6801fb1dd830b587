import Std.Data.TreeMap
import RepairSearch.Grammar.Rule
import RepairSearch.Syntax.Tree

/-!
# Reading a text by a grammar

`Grammar.read` matches the start symbol of a grammar against a whole text and gives its tree, or
nothing when the text does not match. Results are remembered for each symbol, place and
surroundings, so reading takes a number of steps that grows with the text and not with the number
of ways to read it.
-/

namespace RepairSearch.Grammar

/-- The place at which a symbol was tried. -/
structure Attempt where
  symbol : Nat
  power : Nat
  context : Context
  offset : Nat
deriving Ord

/-- Where a match ends, and its nodes; tokens without a node have an empty kind. -/
abbrev Match := Nat × List Syntax.Tree

abbrev Memo := Std.TreeMap Attempt (Option Match)

abbrev Reader := StateM Memo (Option Match)

/-- Reads one rule at an offset. -/
abbrev ReadRule (σ : Type) := Rule σ → Context → Nat → Reader

private def leaf (kind : String) (named : Bool) (start stop : Nat) : Syntax.Tree :=
  .node { kind, named, start, stop } []

/-- A node around a non-empty list of nodes. -/
private def wrap (kind : String) (offset : Nat) (parts : List Syntax.Tree) : Syntax.Tree :=
  let start := (parts.head?.map Syntax.Tree.start).getD offset
  let stop := (parts.getLast?.map Syntax.Tree.stop).getD offset
  .node { kind, start, stop } parts

private def label (name : String) (t : Syntax.Tree) : Syntax.Tree :=
  if t.info.field.isNone then t.withField (some name) else t

variable {σ : Type}

/-- Repeats a rule for as long as it matches and moves on. -/
private def repeatRule (read : Nat → Reader) : Nat → Nat → StateM Memo Match
  | 0, i => pure (i, [])
  | n + 1, i => do
    match ← read i with
    | some (j, ts) =>
      if i < j then
        let (k, us) ← repeatRule read n j
        pure (k, ts ++ us)
      else pure (i, [])
    | none => pure (i, [])

/-- The first continuation of an operand that matches. -/
private def firstTail (read : ReadRule σ) (ctx : Context) (i : Nat) :
    List (Tail σ) → StateM Memo (Option (Tail σ × Match))
  | [] => pure none
  | t :: ts => do
    match ← read t.rest ctx i with
    | some m => pure (some (t, m))
    | none => firstTail read ctx i ts

/-- Continues an operand to the right for as long as possible. -/
private def extend (read : ReadRule σ) (tails : List (Tail σ)) (ctx : Context) :
    Nat → Match → StateM Memo Match
  | 0, m => pure m
  | n + 1, (i, left) => do
    match ← firstTail read ctx i tails with
    | none => pure (i, left)
    | some (t, (j, rest)) =>
      let left := match t.left with
        | some name => left.map (label name)
        | none => left
      extend read tails ctx n (j, [wrap t.kind i (left ++ rest)])

/-- Looks a result up, or finds and keeps it. -/
private def remember (key : Attempt) (read : Reader) : Reader := do
  match (← get)[key]? with
  | some r => pure r
  | none =>
    let r ← read
    modify (·.insert key r)
    pure r

variable (g : Grammar σ) (src : Source)

/-- One level of reading, given how to read what lies below it. -/
private def readLevel (read : ReadRule σ) : ReadRule σ := fun rule ctx i =>
  match rule with
  | .empty => pure (some (i, []))
  | .token kind named scan => pure do
    let start ← g.skip src ctx i
    let stop ← scan src start
    pure (stop, [leaf kind named start stop])
  | .adjacent kind named scan => pure do
    let stop ← scan src i
    pure (stop, [leaf kind named i stop])
  | .mark scan => pure ((scan src ctx i).map fun j => (j, [leaf "" false j j]))
  | .check holds => pure (if holds src ctx i then some (i, []) else none)
  | .sym s => remember ⟨g.index s, 0, ctx, i⟩ (read (g.rule s) ctx i)
  | .climb s power => remember ⟨g.index s, power, ctx, i⟩ do
    let ops := g.operators s
    match ← read ops.operand ctx i with
    | none => pure none
    | some m =>
      let tails := ops.tails.filter (power ≤ ·.power)
      some <$> extend read tails ctx (src.size + 1) m
  | .seq first second => do
    match ← read first ctx i with
    | none => pure none
    | some (j, ts) =>
      match ← read second ctx j with
      | none => pure none
      | some (k, us) => pure (some (k, ts ++ us))
  | .alt first second => do
    match ← read first ctx i with
    | some m => pure (some m)
    | none => read second ctx i
  | .many r => some <$> repeatRule (read r ctx) (src.size + 1) i
  | .ahead r => do pure ((← read r ctx i).map fun _ => (i, []))
  | .absent r => do
    match ← read r ctx i with
    | some _ => pure none
    | none => pure (some (i, []))
  | .field name r => do
    pure ((← read r ctx i).map fun (j, ts) => (j, ts.map (label name)))
  | .ofKind kinds r => do
    match ← read r ctx i with
    | some (j, [t]) => pure (if kinds.contains t.kind then some (j, [t]) else none)
    | _ => pure none
  | .node kind r => do
    pure ((← read r ctx i).map fun (j, ts) => (j, [wrap kind j ts]))
  | .within change r => read r (change ctx) i
  | .indented scan r =>
    match scan src ctx i with
    | none => pure none
    | some (j, column) => do
      match ← read r { ctx with indents := column :: ctx.indents } j with
      | none => pure none
      | some (k, ts) => pure (some (k, leaf "" false j j :: ts))

/-- Reads a rule with at most so many levels of nesting. -/
private def readRule : Nat → ReadRule σ
  | 0 => fun _ _ _ => pure none
  | n + 1 => fun rule ctx i => readLevel g src (readRule n) rule ctx i

/-- The filler between two offsets. -/
private def fillerBetween : Nat → Nat → Nat → List Syntax.Tree
  | 0, _, _ => []
  | n + 1, i, stop =>
    if stop ≤ i then []
    else match g.filler? src i with
      | some (kind, j) =>
        .node { kind, extra := true, start := i, stop := j } [] :: fillerBetween n (max j (i + 1)) stop
      | none => fillerBetween n (i + 1) stop

/-- The places where tokens with characters lie, as start and end offsets. -/
private def tokenSpans (parts : List Syntax.Tree) : List (Nat × Nat) :=
  (Syntax.Tree.preorderAll parts).filterMap fun n =>
    if n.children.isEmpty && n.start < n.stop then some (n.start, n.stop) else none

/-- The filler of a whole text, read in the gaps between its tokens. -/
private def allFiller (i : Nat) : List (Nat × Nat) → List Syntax.Tree
  | [] => fillerBetween g src (src.size + 1 - i) i src.size
  | (start, stop) :: rest =>
    fillerBetween g src (start - i) i start ++ allFiller (max i stop) rest

mutual

/-- Puts filler into the lowest node that has tokens on both sides of it. -/
private def insertFiller (c : Syntax.Tree) : Syntax.Tree → Syntax.Tree
  | .node i cs => .node i (insertAmong c cs)

private def insertAmong (c : Syntax.Tree) : List Syntax.Tree → List Syntax.Tree
  | [] => [c]
  | t :: ts =>
    if t.stop ≤ c.start then t :: insertAmong c ts
    else if t.start < c.start && c.stop ≤ t.stop then insertFiller c t :: ts
    else c :: t :: ts

end

mutual

/-- Drops the tokens that leave no node. -/
private def visible : Syntax.Tree → Syntax.Tree
  | .node i cs => .node i (visibleAll cs)

private def visibleAll : List Syntax.Tree → List Syntax.Tree
  | [] => []
  | t :: ts => if t.kind.isEmpty then visibleAll ts else visible t :: visibleAll ts

end

/-- How deep rules may nest while a text is read. -/
private def depth : Nat := 64 * src.size + 1024

/-- The tree of a text that a grammar describes. The root covers all from the first token or
comment to the end of the text. -/
def read (rootKind : String) : Option Syntax.Tree := do
  let (stop, parts) ← ((readRule g src (depth src) (.sym g.start) g.initial 0).run {}).1
  guard (src.size ≤ (g.skip src { g.initial with indents := [] } stop).getD stop)
  let root := Syntax.Tree.node { kind := rootKind, start := 0, stop := src.size } parts
  let root := (allFiller g src 0 (tokenSpans parts)).foldl (fun t c => insertFiller c t) root
  let start := (root.children.head?.map Syntax.Tree.start).getD src.size
  pure (visible (.node { root.info with start } root.children))

end RepairSearch.Grammar
