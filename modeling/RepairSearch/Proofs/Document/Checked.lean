import RepairSearch.Proofs.Document.Fitting

/-!
# Edits with every offset checked

The operations on documents once more, with a check wherever they cut a text, read a byte or
subtract offsets. They give nothing as soon as a range does not consist of whole characters of the
text, a byte is not there or a difference would be below zero. If the statements of a document are
ranges of whole characters, no check ever fails.
-/

namespace RepairSearch.Checked

/-- A difference that is not below zero. -/
def minus (m n : Nat) : Option Nat := if n ≤ m then some (m - n) else none

/-- The bytes between two boundaries. -/
def slice (t : Text) (start stop : Nat) : Option Text :=
  if start ≤ stop ∧ t.isBoundary start = true ∧ t.isBoundary stop = true then
    some (t.slice start stop)
  else none

def lineStart (t : Text) (offset : Nat) : Option Nat := do
  let before ← slice t 0 offset
  minus offset (before.reverse.takeWhile (· != Text.newline)).length

def lineEnd (t : Text) (offset : Nat) : Option Nat := do
  let behind ← slice t offset t.length
  pure (offset + (behind.takeWhile (· != Text.newline)).length)

def indentAt (t : Text) (offset : Nat) : Option Text := do
  let front ← slice t (← lineStart t offset) offset
  pure (front.takeWhile fun b => b == 32 || b == 9)

/-- Goes back over the blanks before an offset, one byte at a time. -/
def trimmedEnd (t : Text) (start : Nat) : Nat → Option Nat
  | 0 => some 0
  | stop + 1 =>
    if start < stop + 1 then do
      let b ← t[stop]?
      if Text.isBlank b then trimmedEnd t start stop else some (stop + 1)
    else some (stop + 1)

/-- The line and the column of an offset, both counted from zero. -/
def pointAt (t : Text) (offset : Nat) : Option (Nat × Nat) := do
  let before ← slice t 0 offset
  let column ← minus offset (← lineStart t offset)
  pure (before.count Text.newline, column)

/-- The text after a splice. -/
def replace (s : Splice) (t : Text) : Option Text :=
  if s.start ≤ s.stop ∧ t.isBoundary s.start = true ∧ t.isBoundary s.stop = true then
    some (s.apply t)
  else none

/-- The text after several splices, the first one first. -/
def replaceAll (ss : List Splice) (t : Text) : Option Text := ss.foldlM (fun t s => replace s t) t

/-- The place of a range after the splice, with nothing inside if it is gone. -/
def move (s : Splice) (p : Span) : Option (Option Span) :=
  if s.start = s.stop then some (some (Splice.insertion p s.start s.text.length))
  else if p.stop ≤ s.start then some (some p)
  else if s.stop ≤ p.start then do
    let cut ← minus s.stop s.start
    let start ← minus p.start cut
    let stop ← minus p.stop cut
    pure (some ⟨start + s.text.length, stop + s.text.length⟩)
  else if s.start ≤ p.start ∧ p.stop ≤ s.stop then some none
  else do
    let start := if p.start < s.start then p.start else s.start + s.text.length
    let stop ←
      if s.stop < p.stop then do
        let kept ← minus p.stop (← minus s.stop s.start)
        pure (kept + s.text.length)
      else some (s.start + s.text.length)
    pure (some ⟨start, stop⟩)

def moveAll : List Splice → Span → Option (Option Span)
  | [], p => some (some p)
  | s :: ss, p =>
    match move s p with
    | none => none
    | some none => some none
    | some (some q) => moveAll ss q

def deletion (t : Text) (start stop : Nat) : Option Splice := do
  let lineStart ← lineStart t start
  let lineEnd ← lineEnd t stop
  let front ← slice t lineStart start
  let behind ← slice t stop lineEnd
  if !(front.isWhite && behind.isWhite) then pure ⟨start, stop, []⟩
  else if 0 < lineStart then do
    let before ← minus lineStart 1
    pure ⟨before, lineEnd, []⟩
  else if lineEnd < t.length then pure ⟨lineStart, lineEnd + 1, []⟩
  else pure ⟨lineStart, lineEnd, []⟩

def currentSpan? (d : Document) (index : Nat) : Option (Option Span) :=
  match d.statements[index]? with
  | none => some none
  | some s => moveAll d.splices s.span

def sharesLine (d : Document) (offset : Nat) : Option Bool := do
  let front ← slice d.current (← lineStart d.current offset) offset
  pure !front.isWhite

def spliceOf (d : Document) (op : Operation) (place : Span) (alone : Bool) : Option Splice := do
  let indent ← indentAt d.current place.start
  let shared ← sharesLine d place.start
  match op with
  | .insertBefore donor =>
    let separator := if shared then Text.ofString d.profile.separator else Text.newline :: indent
    pure ⟨place.start, place.start, donor.rebase indent ++ separator⟩
  | .replace donor => pure ⟨place.start, place.stop, donor.rebase indent⟩
  | .delete =>
    match d.profile.placeholder with
    | some placeholder =>
      if alone then pure ⟨place.start, place.stop, Text.ofString placeholder⟩
      else deletion d.current place.start place.stop
    | none => deletion d.current place.start place.stop

def splice? (d : Document) (index : Nat) (s : Syntax.Statement) (op : Operation) :
    Option (Except Skip Splice) := do
  match ← currentSpan? d index with
  | none => pure (.error .targetRemoved)
  | some span =>
    let place : Span := ⟨span.start, ← trimmedEnd d.current span.start span.stop⟩
    let (inBlock, alone) := d.surroundings s place
    if inBlock then do
      let splice ← spliceOf d op place alone
      pure (.ok splice)
    else pure (.error .notInBlock)

/-- Puts a splice in force. The points are for the parser. -/
def push (d : Document) (s : Splice) : Option Document := do
  let _ ← pointAt d.current s.start
  let _ ← pointAt d.current s.stop
  let text ← replace s d.current
  let _ ← pointAt text (s.start + s.text.length)
  pure { d.withText text with
    edits := d.edits ++ [⟨d.nextEdit, s⟩]
    nextEdit := d.nextEdit + 1 }

def apply (d : Document) (index : Nat) (op : Operation) :
    Option (Except RepairError (Outcome × Document)) :=
  match d.statements[index]? with
  | none => some (.error (.unknownStatement d.path index))
  | some s => do
    match ← splice? d index s op with
    | .error reason => pure (.ok (.skipped reason, d))
    | .ok splice =>
      let d' ← push d splice
      pure (.ok (.applied d.nextEdit, d'))

def pop (d : Document) : Option Document := do
  let edits := d.edits.dropLast
  let text ← replaceAll (edits.map (·.splice)) d.original
  pure { d.withText text with edits := edits }

def undo (d : Document) (edit : Nat) : Option (Except RepairError Document) :=
  if d.edits.getLast?.map (·.number) = some edit then do
    let d' ← pop d
    pure (.ok d')
  else some (.error (.undoOutOfOrder edit d.path))

def step (h : History) : Call → Option History
  | .apply target op => do
    match ← apply h.document target op with
    | .ok (.applied _, d) => pure ⟨d, h.active ++ [⟨target, op⟩]⟩
    | .ok (.skipped _, d) => pure ⟨d, h.active⟩
    | .error _ => pure h
  | .undo edit => do
    match ← undo h.document edit with
    | .ok d => pure ⟨d, h.active.dropLast⟩
    | .error _ => pure h

def run (h : History) (calls : List Call) : Option History := calls.foldlM step h

section

variable {t : Text} {i j : Nat}

private theorem minus_of_le {m n : Nat} (h : n ≤ m) : minus m n = some (m - n) := if_pos h

private theorem slice_of_boundaries (hij : i ≤ j) (hi : t.isBoundary i = true)
    (hj : t.isBoundary j = true) : slice t i j = some (t.slice i j) := if_pos ⟨hij, hi, hj⟩

/-- The two bytes of `é` are not cut apart. -/
example : slice [195, 169] 1 2 = none := by decide

private theorem slice_before (hi : t.isBoundary i = true) : slice t 0 i = some (t.take i) :=
  slice_of_boundaries (Nat.zero_le i) (Text.isBoundary_zero t) hi

private theorem lineStart_eq (hi : t.isBoundary i = true) :
    lineStart t i = some (t.lineStart i) := by
  have hcol : t.columnAt i ≤ i := by
    have hrun := (List.takeWhile_prefix (· != Text.newline) (l := (t.take i).reverse)).length_le
    rw [List.length_reverse, List.length_take] at hrun
    exact Nat.le_trans hrun (Nat.min_le_left _ _)
  rw [lineStart, slice_before hi]
  exact minus_of_le hcol

private theorem lineEnd_eq (hi : t.isBoundary i = true) : lineEnd t i = some (t.lineEnd i) := by
  have hbehind : t.slice i t.length = t.drop i :=
    List.take_of_length_le (Nat.le_of_eq List.length_drop)
  rw [lineEnd, slice_of_boundaries (Text.le_length_of_isBoundary hi) hi (Text.isBoundary_length t),
    hbehind]
  rfl

private theorem slice_line (ht : t.Encoded) (hi : t.isBoundary i = true) :
    slice t (t.lineStart i) i = some (t.slice (t.lineStart i) i) :=
  slice_of_boundaries (Text.lineStart_le t i)
    (Text.isBoundary_lineStart ht (Text.le_length_of_isBoundary hi)).1 hi

private theorem indentAt_eq (ht : t.Encoded) (hi : t.isBoundary i = true) :
    indentAt t i = some (t.indentAt i) := by
  simp only [indentAt, lineStart_eq hi, Option.bind_eq_bind, Option.bind_some, slice_line ht hi]
  rfl

private theorem trimmedEnd_eq (hij : i ≤ j) (hj : j ≤ t.length) :
    trimmedEnd t i j = some (t.trimmedEnd i j) := by
  induction j with
  | zero => simp [trimmedEnd, Text.trimmedEnd]
  | succ j ih =>
    rw [trimmedEnd]
    split
    · rename_i hlt
      have hget : t[j]? = some t[j] := List.getElem?_eq_getElem hj
      have hslice : t.slice i (j + 1) = t.slice i j ++ [t[j]] := by
        rw [← Text.slice_append (Nat.le_of_lt_succ hlt) (Nat.le_succ j), Text.slice_one hget]
      rw [hget, Option.bind_eq_bind, Option.bind_some, Text.trimmedEnd, hslice,
        List.reverse_concat]
      -- the last byte is one blank more, or nothing is trimmed
      split
      · rename_i hb
        rw [ih (Nat.le_of_lt_succ hlt) (Nat.le_of_succ_le hj), List.takeWhile_cons_of_pos hb,
          List.length_cons, Nat.add_sub_add_right]
        rfl
      · rename_i hb
        rw [List.takeWhile_cons_of_neg hb]
        rfl
    · rename_i hge
      have hself : i = j + 1 := Nat.le_antisymm hij (Nat.le_of_not_lt hge)
      rw [hself, Text.trimmedEnd, Text.slice_self]
      rfl

private theorem pointAt_isSome (hi : t.isBoundary i = true) : (pointAt t i).isSome = true := by
  simp only [pointAt, slice_before hi, lineStart_eq hi, minus_of_le (Text.lineStart_le t i),
    Option.bind_eq_bind, Option.bind_some]
  rfl

end

section

variable {s : Splice} {t : Text} {p : Span}

private theorem replace_eq (h : s.Fits t) : replace s t = some (s.apply t) :=
  if_pos ⟨h.le, h.start, h.stop⟩

private theorem replaceAll_eq {ss : List Splice} (h : Splice.FitAll t ss) :
    replaceAll ss t = some (Splice.applyAll ss t) := by
  induction ss generalizing t with
  | nil => rfl
  | cons s ss ih =>
    rw [replaceAll, List.foldlM_cons, replace_eq h.1]
    exact ih h.2

private theorem move_eq (hs : s.start ≤ s.stop) (hp : p.start ≤ p.stop) :
    move s p = some (s.move p) := by
  rw [move, Splice.move]
  split
  · rfl
  split
  · rfl
  split
  · rename_i hright
    -- a range behind the cut starts no earlier than as many bytes as are cut
    have hstart : s.stop - s.start ≤ p.start := Nat.le_trans (Nat.sub_le _ _) hright
    simp only [minus_of_le hs, minus_of_le hstart, minus_of_le (Nat.le_trans hstart hp),
      Option.bind_eq_bind, Option.bind_some, Option.pure_def]
  split
  · rfl
  · by_cases hbehind : s.stop < p.stop
    · have hstop : s.stop - s.start ≤ p.stop :=
        Nat.le_trans (Nat.sub_le _ _) (Nat.le_of_lt hbehind)
      simp only [if_pos hbehind, minus_of_le hs, minus_of_le hstop, Option.bind_eq_bind,
        Option.bind_some, Option.pure_def]
    · simp only [if_neg hbehind, Option.bind_eq_bind, Option.bind_some, Option.pure_def]

private theorem moveAll_eq {ss : List Splice} (h : Splice.FitAll t ss) (ht : t.Encoded)
    (hp : p.Fits t) :
    moveAll ss p = some (Splice.moveAll ss p) := by
  induction ss generalizing t p with
  | nil => rfl
  | cons s ss ih =>
    rw [moveAll, move_eq h.1.le hp.le, Splice.moveAll_cons]
    cases hq : s.move p with
    | none => rfl
    | some q => exact ih h.2 (h.1.encoded_apply ht) (h.1.move ht hp hq)

private theorem deletion_eq (ht : t.Encoded) (hp : p.Fits t) :
    deletion t p.start p.stop = some (Splice.deletion t p.start p.stop) := by
  have hlineEnd := (Text.isBoundary_lineEnd ht hp.stop_le).1
  have hbehind := slice_of_boundaries (Text.le_lineEnd t p.stop) hp.stop hlineEnd
  simp only [deletion, lineStart_eq hp.start, lineEnd_eq hp.stop, slice_line ht hp.start, hbehind,
    Option.bind_eq_bind, Option.bind_some, Option.pure_def, Splice.deletion]
  split
  · rfl
  split
  · rename_i hpos
    rw [minus_of_le hpos]
    rfl
  split <;> rfl

end

section

variable {d : Document}

private theorem currentSpan?_eq (h : d.Fitting) (i : Nat) :
    currentSpan? d i = some (d.currentSpan? i) := by
  rw [currentSpan?]
  split
  · rename_i hs
    rw [Document.currentSpan?, hs]
    rfl
  · rename_i s hs
    rw [Document.currentSpan?_eq hs]
    exact moveAll_eq h.splices h.original (h.statements s (List.mem_of_getElem? hs))

private theorem spliceOf_eq (h : d.Fitting) (op : Operation) {place : Span}
    (hp : place.Fits d.current)
    (alone : Bool) : spliceOf d op place alone = some (d.spliceOf op place alone) := by
  have hshared : sharesLine d place.start = some (d.sharesLine place.start) := by
    simp only [sharesLine, lineStart_eq hp.start, slice_line h.encoded hp.start,
      Option.bind_eq_bind, Option.bind_some]
    rfl
  rw [spliceOf, indentAt_eq h.encoded hp.start, hshared]
  cases op with
  | insertBefore donor => rfl
  | replace donor => rfl
  | delete =>
    simp only [Option.bind_eq_bind, Option.bind_some, deletion_eq h.encoded hp,
      Document.spliceOf]
    cases d.profile.placeholder with
    | none => rfl
    | some placeholder => cases alone <;> rfl

private theorem splice?_eq (h : d.Fitting) (i : Nat) (s : Syntax.Statement) (op : Operation) :
    splice? d i s op = some (d.splice? i s op) := by
  rw [splice?, Document.splice?, currentSpan?_eq h, Option.bind_eq_bind, Option.bind_some]
  cases hspan : d.currentSpan? i with
  | none => rfl
  | some span =>
    have hfits := h.currentSpan? hspan
    have htrim := trimmedEnd_eq hfits.le hfits.stop_le
    have hplace := hfits.trimmed h.encoded
    simp only [htrim, Option.bind_eq_bind, Option.bind_some, spliceOf_eq h op hplace]
    split <;> rfl

private theorem push_eq (h : d.Fitting) {s : Splice} (hs : s.Fits d.current) :
    push d s = some (d.push s) := by
  obtain ⟨start, hstart⟩ := Option.isSome_iff_exists.mp (pointAt_isSome hs.start)
  obtain ⟨stop, hstop⟩ := Option.isSome_iff_exists.mp (pointAt_isSome hs.stop)
  obtain ⟨behind, hbehind⟩ :=
    Option.isSome_iff_exists.mp (pointAt_isSome (hs.isBoundary_text h.encoded))
  simp only [push, hstart, hstop, replace_eq hs, hbehind, Option.bind_eq_bind, Option.bind_some]
  rfl

private theorem apply_eq (h : d.Fitting) (i : Nat) {op : Operation} (hop : op.Encoded) :
    apply d i op = some (d.apply i op) := by
  cases hs : d.statements[i]? with
  | none => simp only [apply, Document.apply, hs]
  | some s =>
    cases hsp : d.splice? i s op with
    | error reason =>
      simp only [apply, Document.apply, hs, splice?_eq h, hsp, Option.bind_eq_bind,
        Option.bind_some, Option.pure_def]
    | ok sp =>
      simp only [apply, Document.apply, hs, splice?_eq h, hsp, push_eq h (h.splice? hop hsp),
        Option.bind_eq_bind, Option.bind_some, Option.pure_def]

private theorem undo_eq (h : d.Fitting) (n : Nat) : undo d n = some (d.undo n) := by
  have hpop : pop d = some d.pop := by
    have hreplay : replaceAll (d.edits.dropLast.map (·.splice)) d.original =
        some (Splice.applyAll (d.edits.dropLast.map (·.splice)) d.original) := by
      apply replaceAll_eq
      rw [List.map_dropLast]
      exact h.splices.dropLast
    simp only [pop, hreplay, Option.bind_eq_bind, Option.bind_some]
    rfl
  rw [undo, Document.undo, hpop]
  split <;> rfl

end

section

variable {h : History}

private theorem fitting_step (hf : h.document.Fitting) {c : Call} (hc : c.Encoded) :
    (h.step c).document.Fitting := by
  rcases h.step_cases c with hstep | ⟨target, op, s, sp, rfl, _, hsp, hstep⟩ | ⟨_, _, _, hstep⟩
  · rwa [hstep]
  · rw [hstep]
    exact hf.push (hf.splice? hc hsp)
  · rw [hstep]
    exact hf.pop

private theorem step_eq (hf : h.document.Fitting) {c : Call} (hc : c.Encoded) :
    step h c = some (h.step c) := by
  cases c with
  | apply target op =>
    simp only [step, apply_eq hf target hc, History.step, Option.bind_eq_bind, Option.bind_some]
    rcases h.document.apply target op with _ | ⟨_ | _, _⟩ <;> rfl
  | undo edit =>
    simp only [step, undo_eq hf, History.step, Option.bind_eq_bind, Option.bind_some]
    rcases h.document.undo edit with _ | _ <;> rfl

private theorem run_eq (hf : h.document.Fitting) {calls : List Call} (hc : ∀ c ∈ calls, c.Encoded) :
    run h calls = some (h.run calls) ∧ (h.run calls).document.Fitting := by
  induction calls generalizing h with
  | nil => exact ⟨rfl, hf⟩
  | cons c calls ih =>
    have hhead := hc c List.mem_cons_self
    rw [run, List.foldlM_cons, step_eq hf hhead]
    exact ih (fitting_step hf hhead) fun c' hc' => hc c' (List.mem_cons_of_mem c hc')

end

/-- If the original text is encoded and its statements are ranges of whole characters, no call ever
fails a check, whatever the donors are. In every state the splices in force fit one after the other
and the place of every statement that is left fits the current text, as do the place without the
blanks at its end, what stands on its lines before and behind it, and the splice of every edit that
can be made. -/
theorem run_inBounds {d₀ : Document} (h₀ : d₀.Fresh) (horig : d₀.original.Encoded)
    (hplaces : ∀ s ∈ d₀.statements, s.span.Fits d₀.original) {calls : List Call}
    (hcalls : ∀ c ∈ calls, c.Encoded) :
    let d := ((History.start d₀).run calls).document
    run (History.start d₀) calls = some ((History.start d₀).run calls) ∧
    d.current.Encoded ∧ Splice.FitAll d₀.original d.splices ∧
    ∀ i, currentSpan? d i = some (d.currentSpan? i) ∧
      (∀ p, d.currentSpan? i = some p →
        let stop := d.current.trimmedEnd p.start p.stop
        p.Fits d.current ∧ p.stop ≤ d.current.length ∧ Span.Fits ⟨p.start, stop⟩ d.current ∧
        Span.Fits ⟨d.current.lineStart p.start, p.start⟩ d.current ∧
        Span.Fits ⟨stop, d.current.lineEnd stop⟩ d.current) ∧
      ∀ s op sp, op.Encoded → d.splice? i s op = .ok sp →
        sp.Fits d.current ∧ sp.stop ≤ d.current.length := by
  intro d
  obtain ⟨hrun, hf⟩ := run_eq (h := .start d₀) (h₀.fitting horig hplaces) hcalls
  have hsource := (h₀.replays calls).sameSource
  refine ⟨hrun, hf.encoded, hsource.original ▸ hf.splices, fun i => ⟨currentSpan?_eq hf i, ?_, ?_⟩⟩
  · intro p hp stop
    have hplace := hf.currentSpan? hp
    have htrim := hplace.trimmed hf.encoded
    have hstart := Text.isBoundary_lineStart hf.encoded (Nat.le_trans hplace.le hplace.stop_le)
    have hend := Text.isBoundary_lineEnd hf.encoded htrim.stop_le
    exact ⟨hplace, hplace.stop_le, htrim, ⟨Text.lineStart_le _ _, hstart.1, hplace.start⟩,
      ⟨Text.le_lineEnd _ _, htrim.stop, hend.1⟩⟩
  · intro s op sp hop hsp
    have hfits := hf.splice? hop hsp
    exact ⟨hfits, Text.le_length_of_isBoundary hfits.stop⟩

/-- The bytes of `é=1` and, on a line of its own behind a space, `ü()`. -/
def accentedText : Text := [195, 169, 61, 49, 10, 32, 195, 188, 40, 41, 10]

/-- The last statement overlaps both of the others. -/
def accented : Document where
  path := "a.py"
  package := "a"
  language := .python
  original := accentedText
  originalTree := (Language.python.parse accentedText).tree
  statements := [⟨"expression_statement", 0, 4, 1, 0, "", "module"⟩,
    ⟨"expression_statement", 6, 10, 2, 0, "", "module"⟩,
    ⟨"expression_statement", 2, 8, 1, 0, "", "module"⟩]
  current := accentedText
  parsed := Language.python.parse accentedText
  edits := []
  nextEdit := 0
  revision := 0

/-- Deleting the second line, putting `ö` before the first statement and in the place of the
overlapping one, and undoing an edit fails no check. -/
theorem run_inBounds_accented :
    let calls : List Call := [.apply 1 .delete, .apply 0 (.insertBefore ⟨[195, 182], [], []⟩),
      .apply 2 (.replace ⟨[195, 182], [], []⟩), .undo 1]
    run (.start accented) calls = some ((History.start accented).run calls) ∧
    ∀ i p, ((History.start accented).run calls).document.currentSpan? i = some p →
      p.Fits ((History.start accented).run calls).document.current := by
  intro calls
  have hplaces : ∀ s ∈ accented.statements, s.span.Fits accented.original := by
    intro s hs
    simp only [accented, List.mem_cons, List.not_mem_nil, or_false] at hs
    rcases hs with rfl | rfl | rfl <;> exact ⟨by decide, by decide, by decide⟩
  have hdonor : Donor.Encoded ⟨[195, 182], [], []⟩ := ⟨⟨['ö'], by decide⟩, .nil⟩
  have hcalls : ∀ c ∈ calls, c.Encoded := by
    intro c hc
    simp only [calls, List.mem_cons, List.not_mem_nil, or_false] at hc
    rcases hc with rfl | rfl | rfl | rfl
    · trivial
    · exact hdonor
    · exact hdonor
    · trivial
  have hfresh : accented.Fresh := ⟨⟨rfl, rfl⟩, rfl⟩
  obtain ⟨hrun, _, _, hspans⟩ := run_inBounds hfresh
    ⟨['é', '=', '1', '\n', ' ', 'ü', '(', ')', '\n'], by decide⟩ hplaces hcalls
  exact ⟨hrun, fun i p hp => ((hspans i).2.1 p hp).1⟩

end RepairSearch.Checked
