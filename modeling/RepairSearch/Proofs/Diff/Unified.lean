import RepairSearch.Diff.Unified
import RepairSearch.Proofs.Diff.Slide

/-!
# What a unified diff shows

A diff shows two texts in hunks. Between the hunks, the lines of both texts are the same; in a hunk,
every line of one of them is shown with a mark that tells whether the other one has it, too.
-/

namespace RepairSearch.Diff

/-- A line of a hunk. -/
inductive Line where
  /-- A line of both texts. -/
  | kept (l : Text)
  /-- A line of the old text. -/
  | removed (l : Text)
  /-- A line of the new text. -/
  | added (l : Text)

namespace Line

def old? : Line → Option Text
  | kept l | removed l => some l
  | added _ => none

def new? : Line → Option Text
  | kept l | added l => some l
  | removed _ => none

def isKept : Line → Bool
  | kept _ => true
  | _ => false

/-- A line as it is shown behind its mark. -/
def content (l : Text) : String :=
  l.toString ++
    if l.getLast? = some 10 ∨ l.getLast? = some 13 then "" else "\n\\ No newline at end of file\n"

def text : Line → String
  | kept l => " " ++ content l
  | removed l => "-" ++ content l
  | added l => "+" ++ content l

end Line

/-- A hunk, with the lines before it that are the same in both texts and not shown. -/
structure Hunk where
  gap : List Text
  oldRange : String
  newRange : String
  lines : List Line

namespace Hunk

def olds (h : Hunk) : List Text := h.gap ++ h.lines.filterMap Line.old?

def news (h : Hunk) : List Text := h.gap ++ h.lines.filterMap Line.new?

def text (h : Hunk) : String :=
  "@@ -" ++ h.oldRange ++ " +" ++ h.newRange ++ " @@\n" ++ String.join (h.lines.map Line.text)

/-- The range of some lines behind others, counted from one. -/
def range (before count : Nat) : String :=
  if count = 1 then s!"{before + 1}" else s!"{before + 1},{count}"

/-- A hunk that begins and ends with a line of one of the texts. -/
def Framed (side : Line → Option Text) (h : Hunk) : Prop :=
  (h.lines.head?.bind side).isSome ∧ (h.lines.getLast?.bind side).isSome

/-- The ranges of a hunk, if so many lines of both texts are before it. A range is right for a text
of which the hunk begins and ends with a line. Where a run of other lines is at an end of the hunk,
the program takes the place of that run, which a slide may have left behind. -/
structure Numbered (olds news : Nat) (h : Hunk) : Prop where
  old : h.Framed Line.old? →
    h.oldRange = range (olds + h.gap.length) (h.lines.filterMap Line.old?).length
  new : h.Framed Line.new? →
    h.newRange = range (news + h.gap.length) (h.lines.filterMap Line.new?).length

end Hunk

/-- Hunks one after the other, from numbers of lines of both texts on. Each shows a change. -/
def AreHunks : Nat → Nat → List Hunk → Prop
  | _, _, [] => True
  | olds, news, h :: hs =>
    h.Numbered olds news ∧ (∃ l ∈ h.lines, l.isKept = false) ∧
      AreHunks (olds + h.olds.length) (news + h.news.length) hs

/-- A text in lines, each of which may have a line feed at its end. -/
structure AreLines (ls : List Text) (t : Text) : Prop where
  flatten : ls.flatten = t
  line : ∀ l ∈ ls, l ≠ [] ∧ Text.newline ∉ l.dropLast

/-- A diff shows what makes one text of another one. Where there are no hunks, there is nothing. -/
def Shows (path : String) (original current : Text) (text : String) : Prop :=
  ∃ (hunks : List Hunk) (rest : List Text),
    AreLines (hunks.flatMap Hunk.olds ++ rest) original ∧
    AreLines (hunks.flatMap Hunk.news ++ rest) current ∧ AreHunks 0 0 hunks ∧
    text = if hunks.isEmpty then "" else
      "--- a/" ++ path ++ "\n+++ b/" ++ path ++ "\n" ++ String.join (hunks.map Hunk.text)

namespace AreLines

private theorem nil : AreLines [] [] := ⟨rfl, by simp⟩

private theorem cons {ls : List Text} {l t : Text} (h : AreLines ls t) (hl : l ≠ [])
    (hbreak : Text.newline ∉ l.dropLast) : AreLines (l :: ls) (l ++ t) := by
  refine ⟨by rw [List.flatten_cons, h.flatten], fun k hk => ?_⟩
  rcases List.mem_cons.mp hk with rfl | hk
  · exact ⟨hl, hbreak⟩
  · exact h.line k hk

private theorem push {ls : List Text} {l t : Text} {b : UInt8} (h : AreLines (l :: ls) t)
    (hb : b ≠ Text.newline) : AreLines ((b :: l) :: ls) (b :: t) := by
  obtain ⟨hl, hbreak⟩ := h.line l List.mem_cons_self
  refine ⟨by rw [← h.flatten]; rfl, fun k hk => ?_⟩
  rcases List.mem_cons.mp hk with rfl | hk
  · rw [List.dropLast_cons_of_ne_nil hl]
    exact ⟨by simp, by simp [Ne.symm hb, hbreak]⟩
  · exact h.line k (List.mem_cons_of_mem _ hk)

end AreLines

private theorem areLines_terminatedLines (t : Text) : AreLines (terminatedLines t) t := by
  induction t using terminatedLines.induct with
  | case1 => exact .nil
  | case2 b t hb ih =>
    rw [terminatedLines.eq_def]
    dsimp only
    rw [if_pos hb]
    exact ih.cons (l := [b]) (by simp) (by simp)
  | case3 b hb =>
    rw [terminatedLines, if_neg hb]
    exact AreLines.nil.cons (l := [b]) (by simp) (by simp)
  | case4 b hb c u hend ih =>
    rw [terminatedLines, if_neg hb, if_pos hend]
    exact ih.cons (l := [b]) (by simp) (by simp)
  | case5 b hb c u hend hnone ih =>
    rw [hnone] at ih
    cases ih.flatten
  | case6 b hb c u hend l ls hsome ih =>
    rw [terminatedLines, if_neg hb, if_neg hend, hsome]
    exact (hsome ▸ ih).push (by simpa using hb)

/-- The lines from one place up to another. -/
def between (xs : Array Text) (start stop : Nat) : List Text := (xs.extract start stop).toList

private theorem length_between {xs : Array Text} {start stop : Nat} (h : stop ≤ xs.size) :
    (between xs start stop).length = stop - start := by
  rw [between, Array.length_toList, Array.size_extract, Nat.min_eq_left h]

private theorem between_append {xs : Array Text} {start middle stop : Nat} (h : start ≤ middle)
    (h' : middle ≤ stop) :
    between xs start middle ++ between xs middle stop = between xs start stop := by
  rw [between, between, between, ← Array.toList_append, Array.extract_append_extract,
    Nat.min_eq_left h, Nat.max_eq_right h']

private theorem between_of_common {old new : Array Text} {p : Point} {n : Nat}
    (h : Common old new p n) (hold : p.old + n ≤ old.size) (hnew : p.new + n ≤ new.size) :
    between old p.old (p.old + n) = between new p.new (p.new + n) := by
  refine List.ext_getElem? fun t => ?_
  rw [between, between, Array.getElem?_toList, Array.getElem?_toList, Array.getElem?_extract,
    Array.getElem?_extract]
  by_cases ht : t < n
  · rw [if_pos (by omega), if_pos (by omega), h t ht]
  · rw [if_neg (by omega), if_neg (by omega)]

/-- The lines of a run as a hunk has them. -/
def Run.lines (old new : Array Text) (r : Run) : List Line :=
  match r.kind with
  | .equal => (between old r.old r.oldEnd).map .kept
  | .delete => (between old r.old r.oldEnd).map .removed
  | .insert => (between new r.new r.newEnd).map .added
  | .replace => (between old r.old r.oldEnd).map .removed ++ (between new r.new r.newEnd).map .added

private theorem lineText_eq (mark : String) (l : Text) :
    lineText mark l = mark ++ Line.content l := by
  rw [lineText, Line.content, String.append_assoc]
  simp [isTerminated, Text.newline, carriageReturn]

private theorem linesText_eq (mark : String) (xs : Array Text) (start stop : Nat) :
    linesText mark xs start stop =
      String.join ((between xs start stop).map fun l => mark ++ Line.content l) :=
  congrArg String.join (List.map_congr_left fun l _ => lineText_eq mark l)

private theorem runText_eq (old new : Array Text) (r : Run) :
    runText old new r = String.join ((r.lines old new).map Line.text) := by
  rw [runText, Run.lines]
  cases r.kind <;>
    simp only [linesText_eq, List.map_map, List.map_append, String.join_append] <;> rfl

namespace Line

@[simp] theorem old?_kept (l : Text) : (kept l).old? = some l := rfl

@[simp] theorem old?_removed (l : Text) : (removed l).old? = some l := rfl

@[simp] theorem old?_added (l : Text) : (added l).old? = none := rfl

@[simp] theorem new?_kept (l : Text) : (kept l).new? = some l := rfl

@[simp] theorem new?_added (l : Text) : (added l).new? = some l := rfl

@[simp] theorem new?_removed (l : Text) : (removed l).new? = none := rfl

end Line

section

variable {old new : Array Text} {r : Run} {rs : List Run} {p q : Point}

@[simp] theorem between_self (xs : Array Text) (i : Nat) : between xs i i = [] := by
  rw [between, Array.extract_empty_of_stop_le_start (Nat.le_refl i)]

private theorem Run.Leads.lines (h : r.Leads old new p q) (hold : q.old ≤ old.size)
    (hnew : q.new ≤ new.size) :
    (r.lines old new).filterMap Line.old? = between old p.old q.old ∧
      (r.lines old new).filterMap Line.new? = between new p.new q.new := by
  rw [Run.lines, oldEnd, newEnd]
  cases hk : r.kind with
  | equal =>
    obtain ⟨hrold, _, _, hcommon, rfl⟩ := (leads_of_equal hk).mp h
    simp only [Point.forth_old, Point.forth_new] at hold hnew
    simp [hrold, between_of_common hcommon hold hnew, Function.comp_def]
  | delete =>
    obtain ⟨hrold, _, _, rfl⟩ := (leads_of_delete hk).mp h
    simp [hrold, Function.comp_def]
  | insert =>
    obtain ⟨hrnew, _, _, rfl⟩ := (leads_of_insert hk).mp h
    simp [hrnew, Function.comp_def]
  | replace =>
    obtain ⟨hrold, hrnew, _, _, rfl⟩ := (leads_of_replace hk).mp h
    simp [hrold, hrnew, Function.comp_def]

private theorem Chain.lines (h : Chain (Run.Leads old new) p rs q) (hold : q.old ≤ old.size)
    (hnew : q.new ≤ new.size) :
    (rs.flatMap (Run.lines old new)).filterMap Line.old? = between old p.old q.old ∧
      (rs.flatMap (Run.lines old new)).filterMap Line.new? = between new p.new q.new := by
  induction h with
  | nil => simp
  | cons head tail ih =>
    obtain ⟨hle, hle'⟩ := tail.le
    obtain ⟨hheadold, hheadnew⟩ := head.lines (by omega) (by omega)
    obtain ⟨htailold, htailnew⟩ := ih hold hnew
    rw [List.flatMap_cons, List.filterMap_append, List.filterMap_append, hheadold, hheadnew,
      htailold, htailnew, between_append head.le.1 hle, between_append head.le.2 hle']
    exact ⟨rfl, rfl⟩

private theorem runsText_eq (old new : Array Text) (rs : List Run) :
    String.join (rs.map (runText old new)) =
      String.join ((rs.flatMap (Run.lines old new)).map Line.text) := by
  induction rs with
  | nil => rfl
  | cons r rs ih =>
    rw [List.map_cons, List.flatMap_cons, List.map_append, String.join_cons, String.join_append,
      runText_eq, ih]

private theorem between_ne_nil {xs : Array Text} {start n : Nat} (hn : 0 < n)
    (h : start + n ≤ xs.size) : between xs start (start + n) ≠ [] := by
  rw [← List.length_pos_iff, length_between h]
  omega

private theorem Run.Leads.lines_of_ne (h : r.Leads old new p q) (hold : q.old ≤ old.size)
    (hnew : q.new ≤ new.size) (hk : r.kind ≠ .equal) :
    r.lines old new ≠ [] ∧ ∀ l ∈ r.lines old new, l.isKept = false := by
  rw [Run.lines, oldEnd, newEnd]
  cases hkind : r.kind with
  | equal => exact absurd hkind hk
  | delete =>
    obtain ⟨hrold, _, hpos, rfl⟩ := (leads_of_delete hkind).mp h
    exact ⟨by simpa using between_ne_nil hpos (by simpa [hrold] using hold), by simp [Line.isKept]⟩
  | insert =>
    obtain ⟨hrnew, _, hpos, rfl⟩ := (leads_of_insert hkind).mp h
    exact ⟨by simpa using between_ne_nil hpos (by simpa [hrnew] using hnew), by simp [Line.isKept]⟩
  | replace =>
    obtain ⟨hrold, _, hpos, _, rfl⟩ := (leads_of_replace hkind).mp h
    have hne := @between_ne_nil old r.old _ hpos (by simpa [hrold] using hold)
    exact ⟨by simp [hne], by simp +contextual [or_imp, forall_and, Line.isKept]⟩

private theorem Run.Leads.old_eq (h : r.Leads old new p q) (hk : r.kind ≠ .insert) :
    r.old = p.old ∧ r.oldEnd = q.old := by
  rw [Leads] at h
  rw [oldEnd]
  split at h <;> simp_all

private theorem Run.Leads.new_eq (h : r.Leads old new p q) (hk : r.kind ≠ .delete) :
    r.new = p.new ∧ r.newEnd = q.new := by
  rw [Leads] at h
  rw [newEnd]
  split at h <;> simp_all

/-- Groups of runs, with common lines before, between and after them. -/
inductive Grouped (old new : Array Text) : Point → List (List Run) → Point → Prop
  | nil {p : Point} {n : Nat} (gap : Common old new p n) : Grouped old new p [] (p.forth n)
  | cons {p q e : Point} {n : Nat} {g : List Run} {gs : List (List Run)}
      (gap : Common old new p n) (group : Chain (Run.Leads old new) (p.forth n) g q)
      (rest : Grouped old new q gs e) : Grouped old new p (g :: gs) e

namespace Grouped

variable {n : Nat} {gs : List (List Run)}

private theorem gap_append (hgap : Common old new p n) (h : Grouped old new (p.forth n) gs q) :
    Grouped old new p gs q := by
  cases h with
  | @nil _ m gap =>
    rw [Point.forth_forth]
    exact .nil (hgap.append gap)
  | cons gap group rest =>
    rw [Point.forth_forth] at group
    exact .cons (hgap.append gap) group rest

private theorem append_gap (h : Grouped old new p gs q) (hgap : Common old new q n) :
    Grouped old new p gs (q.forth n) := by
  induction h with
  | nil gap =>
    rw [Point.forth_forth]
    exact .nil (gap.append hgap)
  | cons gap group _ ih => exact .cons gap group (ih hgap)

end Grouped

private theorem Chain.common (h : Chain (Run.Leads old new) p rs q) (hrs : hasChange rs = false) :
    ∃ n, Common old new p n ∧ q = p.forth n := by
  induction h with
  | nil p => exact ⟨0, fun t ht => absurd ht t.not_lt_zero, rfl⟩
  | @cons r rs p m q head _ ih =>
    rw [hasChange, List.any_cons, Bool.or_eq_false_iff] at hrs
    obtain ⟨_, _, _, hcommon, rfl⟩ := (Run.leads_of_equal (by simpa using hrs.1)).mp head
    obtain ⟨n, hn, rfl⟩ := ih hrs.2
    exact ⟨r.oldLength + n, hcommon.append hn, Point.forth_forth ..⟩

private theorem Grouped.filter {gs : List (List Run)} (h : Grouped old new p gs q) :
    Grouped old new p (gs.filter hasChange) q := by
  induction h with
  | nil gap => exact .nil gap
  | @cons p m e n g gs gap group _ ih =>
    rw [List.filter_cons]
    split
    · exact .cons gap group ih
    · rename_i hg
      obtain ⟨k, hk, rfl⟩ := group.common (by simpa using hg)
      exact gap_append gap (gap_append hk ih)

private theorem Run.Leads.firstLines (h : r.Leads old new p q) (hk : r.kind = .equal) (n : Nat) :
    (Diff.firstLines r n).Leads old new p (p.forth (min r.oldLength n)) := by
  obtain ⟨hold, hnew, _, hcommon, _⟩ := (leads_of_equal hk).mp h
  rw [Diff.firstLines, hold, hnew]
  exact (steps_equal (hcommon.take (Nat.min_le_left _ _))).1

private theorem Run.Leads.lastLines (h : r.Leads old new p q) (hk : r.kind = .equal) (n : Nat) :
    (Diff.lastLines r n).Leads old new (p.forth (r.oldLength - n)) q := by
  obtain ⟨hold, hnew, _, hcommon, rfl⟩ := (leads_of_equal hk).mp h
  have hstep := (steps_equal (hcommon.drop (Nat.sub_le r.oldLength n))).1
  rw [Point.forth_forth, Nat.add_sub_cancel' (Nat.sub_le _ _)] at hstep
  rw [Diff.lastLines, hold, hnew]
  exact hstep

private theorem trimFirst_chain (h : Chain (Run.Leads old new) p rs q) :
    ∃ n, Common old new p n ∧ Chain (Run.Leads old new) (p.forth n) (trimFirst rs) q := by
  have hzero : Common old new p 0 := fun t ht => absurd ht t.not_lt_zero
  cases h with
  | nil => exact ⟨0, hzero, .nil p⟩
  | @cons r rs _ m _ head tail =>
    rw [trimFirst]
    split
    · rename_i hk
      obtain ⟨_, _, _, hcommon, _⟩ := (Run.leads_of_equal hk).mp head
      exact ⟨r.oldLength - context, hcommon.take (Nat.sub_le _ _),
        .cons (head.lastLines hk context) tail⟩
    · exact ⟨0, hzero, .cons head tail⟩

private theorem trimLast_chain (h : Chain (Run.Leads old new) p rs q) :
    ∃ m n, Chain (Run.Leads old new) p (trimLast rs) m ∧ Common old new m n ∧ q = m.forth n := by
  have hzero : Common old new q 0 := fun t ht => absurd ht t.not_lt_zero
  rcases rs.eq_nil_or_concat with rfl | ⟨before, r, rfl⟩
  · exact ⟨q, 0, h, hzero, rfl⟩
  · rw [List.concat_eq_append] at h ⊢
    obtain ⟨m, hbefore, hlast⟩ := h.exists_of_append
    have hr := hlast.of_single
    rw [trimLast, List.reverse_append, List.reverse_singleton, List.singleton_append]
    simp only [List.reverse_cons, List.reverse_reverse]
    split
    · rename_i hk
      obtain ⟨_, _, _, hcommon, rfl⟩ := (Run.leads_of_equal hk).mp hr
      refine ⟨_, _, hbefore.append (.single (hr.firstLines hk context)),
        hcommon.drop (Nat.min_le_left _ _), ?_⟩
      rw [Point.forth_forth, Nat.add_sub_cancel' (Nat.min_le_left _ _)]
    · exact ⟨q, 0, hbefore.append (.single hr), hzero, rfl⟩

private theorem part_grouped (h : Chain (Run.Leads old new) p rs q) :
    ∃ g gs m, part rs = g :: gs ∧ Chain (Run.Leads old new) p g m ∧ Grouped old new m gs q := by
  induction h with
  | nil p => exact ⟨[], [], p, rfl, .nil p, .nil (n := 0) fun t ht => absurd ht t.not_lt_zero⟩
  | @cons r rs p m q head _ ih =>
    obtain ⟨g, gs, e, hpart, hg, hgs⟩ := ih
    rw [part, hpart]
    dsimp only
    split
    · rename_i hlong
      obtain ⟨hk, hlength⟩ := hlong
      obtain ⟨_, _, _, hcommon, _⟩ := (Run.leads_of_equal hk).mp head
      have hfirst := head.firstLines hk context
      rw [Nat.min_eq_right (by omega)] at hfirst
      refine ⟨_, _, _, rfl, .single hfirst, .cons (n := r.oldLength - context - context) ?_
        (.cons ?_ hg) hgs⟩
      · exact (hcommon.take (Nat.sub_le r.oldLength context)).drop (by omega)
      · have hlast := head.lastLines hk context
        rwa [← show (p.forth context).forth (r.oldLength - context - context) =
          p.forth (r.oldLength - context) by rw [Point.forth_forth]; congr 1; omega] at hlast
    · exact ⟨_, gs, e, rfl, .cons head hg, hgs⟩

private theorem hunks_grouped (h : Chain (Run.Leads old new) p rs q) :
    Grouped old new p (hunks rs) q := by
  obtain ⟨n, hn, hfirst⟩ := trimFirst_chain h
  obtain ⟨m, k, hlast, hk, rfl⟩ := trimLast_chain hfirst
  obtain ⟨g, gs, e, hpart, hg, hgs⟩ := part_grouped hlast
  rw [hunks, hpart]
  exact (Grouped.cons hn hg (hgs.append_gap hk)).filter

private theorem rangeText_eq {start stop : Nat} (h : start < stop) :
    rangeText start stop = Hunk.range start (stop - start) := by
  rw [rangeText, Hunk.range, if_neg (show ¬stop - start = 0 by omega)]

private theorem header_eq {a z : Run} (ha : rs.head? = some a) (hz : rs.getLast? = some z) :
    header rs =
      "@@ -" ++ rangeText a.old z.oldEnd ++ " +" ++ rangeText a.new z.newEnd ++ " @@\n" := by
  rw [header, ha, hz]

private theorem Chain.ends {g : List Run} {a z : Run} (h : Chain (Run.Leads old new) p g q)
    (ha : g.head? = some a) (hz : g.getLast? = some z) :
    ∃ m m', a.Leads old new p m ∧ z.Leads old new m' q := by
  obtain ⟨before, hbefore⟩ := List.getLast?_eq_some_iff.mp hz
  obtain ⟨m', _, hlast⟩ := Chain.exists_of_append (hbefore ▸ h)
  obtain ⟨after, rfl⟩ := List.head?_eq_some_iff.mp ha
  cases h with
  | @cons _ _ _ m _ head _ => exact ⟨m, m', head, hlast.of_single⟩

private theorem Chain.kind_ends {g : List Run} {side : Line → Option Text} {kind : Kind} {a z : Run}
    (h : Chain (Run.Leads old new) p g q) (hold : q.old ≤ old.size) (hnew : q.new ≤ new.size)
    (hkind : kind ≠ .equal)
    (hside : ∀ r : Run, r.kind = kind → ∀ l ∈ r.lines old new, side l = none)
    (hhead : ((g.flatMap (Run.lines old new)).head?.bind side).isSome)
    (hlast : ((g.flatMap (Run.lines old new)).getLast?.bind side).isSome)
    (ha : g.head? = some a) (hz : g.getLast? = some z) : a.kind ≠ kind ∧ z.kind ≠ kind := by
  -- a run of this kind at an end would have a line there that `side` does not show
  constructor
  · rintro rfl
    obtain ⟨g, rfl⟩ := List.head?_eq_some_iff.mp ha
    cases h with
    | @cons _ _ _ m _ head tail =>
      have hle := tail.le
      obtain ⟨hne, _⟩ := head.lines_of_ne (by omega) (by omega) hkind
      obtain ⟨l, ls, hl⟩ := List.exists_cons_of_ne_nil hne
      have hnone := hside a rfl l (hl ▸ List.mem_cons_self)
      rw [List.flatMap_cons, hl, List.cons_append, List.head?_cons, Option.bind_some,
        hnone] at hhead
      cases hhead
  · rintro rfl
    obtain ⟨g, rfl⟩ := List.getLast?_eq_some_iff.mp hz
    obtain ⟨m, _, hlast'⟩ := h.exists_of_append
    obtain ⟨hne, _⟩ := hlast'.of_single.lines_of_ne hold hnew hkind
    obtain ⟨ls, l, hl⟩ := (List.eq_nil_or_concat _).resolve_left hne
    rw [List.concat_eq_append] at hl
    have hnone := hside z rfl l (by simp [hl])
    rw [List.flatMap_append, List.flatMap_singleton, hl, ← List.append_assoc,
      List.getLast?_concat, Option.bind_some, hnone] at hlast
    cases hlast

private theorem Chain.exists_of_mem {g : List Run} (h : Chain (Run.Leads old new) p g q)
    (hr : r ∈ g) :
    ∃ m m', r.Leads old new m m' ∧ m'.old ≤ q.old ∧ m'.new ≤ q.new := by
  obtain ⟨before, after, rfl⟩ := List.append_of_mem hr
  obtain ⟨m, _, hrest⟩ := h.exists_of_append
  cases hrest with
  | @cons _ _ _ m' _ head tail => exact ⟨m, m', head, tail.le⟩

private theorem filterMap_length_pos {side : Line → Option Text} {ls : List Line}
    (h : (ls.head?.bind side).isSome) : 0 < (ls.filterMap side).length := by
  obtain ⟨t, ht⟩ := Option.isSome_iff_exists.mp h
  obtain ⟨l, hl, hlt⟩ := Option.bind_eq_some_iff.mp ht
  exact List.length_pos_of_mem (List.mem_filterMap.mpr ⟨l, List.mem_of_head? hl, hlt⟩)

private theorem old?_of_insert (hk : r.kind = .insert) : ∀ l ∈ r.lines old new, l.old? = none := by
  intro l hl
  simp only [Run.lines, hk, List.mem_map] at hl
  obtain ⟨_, _, rfl⟩ := hl
  rfl

private theorem new?_of_delete (hk : r.kind = .delete) : ∀ l ∈ r.lines old new, l.new? = none := by
  intro l hl
  simp only [Run.lines, hk, List.mem_map] at hl
  obtain ⟨_, _, rfl⟩ := hl
  rfl

section

variable {g : List Run} {a z : Run} (h : Chain (Run.Leads old new) p g q) (hold : q.old ≤ old.size)
  (hnew : q.new ≤ new.size) (ha : g.head? = some a) (hz : g.getLast? = some z)

include h hold hnew ha hz

private theorem Chain.oldRange
    (hhead : ((g.flatMap (Run.lines old new)).head?.bind Line.old?).isSome)
    (hlast : ((g.flatMap (Run.lines old new)).getLast?.bind Line.old?).isSome) :
    rangeText a.old z.oldEnd =
      Hunk.range p.old ((g.flatMap (Run.lines old new)).filterMap Line.old?).length := by
  obtain ⟨hka, hkz⟩ :=
    h.kind_ends hold hnew (by decide) (fun _ => old?_of_insert) hhead hlast ha hz
  obtain ⟨m, m', hfirst, hend⟩ := h.ends ha hz
  have hpos := filterMap_length_pos hhead
  have hlength : ((g.flatMap (Run.lines old new)).filterMap Line.old?).length = q.old - p.old := by
    rw [(h.lines hold hnew).1, length_between hold]
  rw [hlength] at hpos ⊢
  rw [(hfirst.old_eq hka).1, (hend.old_eq hkz).2, rangeText_eq (by omega)]

private theorem Chain.newRange
    (hhead : ((g.flatMap (Run.lines old new)).head?.bind Line.new?).isSome)
    (hlast : ((g.flatMap (Run.lines old new)).getLast?.bind Line.new?).isSome) :
    rangeText a.new z.newEnd =
      Hunk.range p.new ((g.flatMap (Run.lines old new)).filterMap Line.new?).length := by
  obtain ⟨hka, hkz⟩ :=
    h.kind_ends hold hnew (by decide) (fun _ => new?_of_delete) hhead hlast ha hz
  obtain ⟨m, m', hfirst, hend⟩ := h.ends ha hz
  have hpos := filterMap_length_pos hhead
  have hlength : ((g.flatMap (Run.lines old new)).filterMap Line.new?).length = q.new - p.new := by
    rw [(h.lines hold hnew).2, length_between hnew]
  rw [hlength] at hpos ⊢
  rw [(hfirst.new_eq hka).1, (hend.new_eq hkz).2, rangeText_eq (by omega)]

end

private theorem Chain.hunk {g : List Run} {n : Nat} (gap : Common old new p n)
    (h : Chain (Run.Leads old new) (p.forth n) g q) (hg : hasChange g = true)
    (hold : q.old ≤ old.size) (hnew : q.new ≤ new.size) :
    ∃ k : Hunk, k.olds = between old p.old q.old ∧ k.news = between new p.new q.new ∧
      k.Numbered p.old p.new ∧ (∃ l ∈ k.lines, l.isKept = false) ∧
      hunkText old new g = k.text := by
  obtain ⟨r, hr, hchange⟩ := List.any_eq_true.mp hg
  have hne : g ≠ [] := List.ne_nil_of_mem hr
  have ha := List.head?_eq_some_head hne
  have hz := List.getLast?_eq_some_getLast hne
  obtain ⟨holds, hnews⟩ := h.lines hold hnew
  obtain ⟨hle, hle'⟩ := h.le
  rw [Point.forth_old] at hle holds
  rw [Point.forth_new] at hle' hnews
  have hgap := between_of_common gap (by omega) (by omega)
  have hlength := @length_between old p.old (p.old + n) (by omega)
  refine ⟨⟨between old p.old (p.old + n), rangeText (g.head hne).old (g.getLast hne).oldEnd,
    rangeText (g.head hne).new (g.getLast hne).newEnd, g.flatMap (Run.lines old new)⟩,
    ?_, ?_, ⟨?_, ?_⟩, ?_, ?_⟩
  · rw [Hunk.olds, holds, between_append (by omega) hle]
  · rw [Hunk.news, hnews, hgap, between_append (by omega) hle']
  · rintro ⟨hhead, hlast⟩
    rw [h.oldRange hold hnew ha hz hhead hlast, Point.forth_old, hlength, Nat.add_sub_cancel_left]
  · rintro ⟨hhead, hlast⟩
    rw [h.newRange hold hnew ha hz hhead hlast, Point.forth_new, hlength, Nat.add_sub_cancel_left]
  · obtain ⟨o, o', hr', hle₁, hle₂⟩ := h.exists_of_mem hr
    obtain ⟨hne, hall⟩ := hr'.lines_of_ne (by omega) (by omega) (by simpa using hchange)
    obtain ⟨l, hl⟩ := List.exists_mem_of_ne_nil _ hne
    exact ⟨l, List.mem_flatMap.mpr ⟨r, hr, hl⟩, hall l hl⟩
  · rw [hunkText, header_eq ha hz, runsText_eq]
    rfl

private theorem Grouped.hunks {gs : List (List Run)} (h : Grouped old new p gs q)
    (hgs : ∀ g ∈ gs, hasChange g = true) (hold : q.old ≤ old.size) (hnew : q.new ≤ new.size) :
    (p.old ≤ q.old ∧ p.new ≤ q.new) ∧ ∃ (hunks : List Hunk) (rest : List Text),
      hunks.flatMap Hunk.olds ++ rest = between old p.old q.old ∧
      hunks.flatMap Hunk.news ++ rest = between new p.new q.new ∧
      AreHunks p.old p.new hunks ∧ hunks.map Hunk.text = gs.map (hunkText old new) := by
  induction h with
  | @nil p n gap =>
    exact ⟨by simp, [], between old p.old (p.old + n), rfl, between_of_common gap hold hnew,
      trivial, rfl⟩
  | @cons p m e n g gs gap group _ ih =>
    obtain ⟨hg, hgs⟩ := List.forall_mem_cons.mp hgs
    obtain ⟨⟨hle, hle'⟩, hunks, rest, holds, hnews, hare, htext⟩ := ih hgs hold hnew
    obtain ⟨k, hkolds, hknews, hnumbered, hshown, hktext⟩ :=
      group.hunk gap hg (by omega) (by omega)
    have hgroup := group.le
    rw [Point.forth_old, Point.forth_new] at hgroup
    refine ⟨by omega, k :: hunks, rest, ?_, ?_, ⟨hnumbered, hshown, ?_⟩, ?_⟩
    · rw [List.flatMap_cons, List.append_assoc, holds, hkolds, between_append (by omega) hle]
    · rw [List.flatMap_cons, List.append_assoc, hnews, hknews, between_append (by omega) hle']
    · rw [hkolds, hknews, length_between (by omega), length_between (by omega),
        Nat.add_sub_cancel' (by omega), Nat.add_sub_cancel' (by omega)]
      exact hare
    · rw [List.map_cons, List.map_cons, htext, hktext]

end

/-- The diff of two texts shows what makes the one of the other. -/
theorem unified_shows (path : String) (original current : Text) :
    Shows path original current (unified path original current) := by
  have hlines := areLines_terminatedLines original
  have hlines' := areLines_terminatedLines current
  rw [unified]
  generalize hold : (terminatedLines original).toArray = old
  generalize hnew : (terminatedLines current).toArray = new
  have hchain := join_chain (slide_chain (script_chain old new) (Nat.le_refl _) (Nat.le_refl _))
  have hchange : ∀ g ∈ Diff.hunks (join (slide old new (script old new))), hasChange g = true :=
    fun g hg => (List.mem_filter.mp hg).2
  obtain ⟨_, hunks, rest, holds, hnews, hare, htext⟩ :=
    (hunks_grouped hchain).hunks hchange (Nat.le_refl _) (Nat.le_refl _)
  refine ⟨hunks, rest, ?_, ?_, hare, ?_⟩
  · rw [holds]
    simpa [between, ← hold] using hlines
  · rw [hnews]
    simpa [between, ← hnew] using hlines'
  · generalize Diff.hunks _ = groups at htext
    cases groups with
    | nil => simp [List.map_eq_nil_iff.mp htext]
    | cons g gs =>
      cases hunks with
      | nil => simp at htext
      | cons k ks => simp only [htext, List.isEmpty_cons, Bool.false_eq_true, if_false]

example : unified "m.py" [97, 10, 98, 10] [97, 10, 99, 10] =
    "--- a/m.py\n+++ b/m.py\n@@ -1,2 +1,2 @@\n a\n-b\n+c\n" := by
  cbv

end RepairSearch.Diff
