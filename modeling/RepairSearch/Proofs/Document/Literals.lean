import RepairSearch.Document.Basic
import RepairSearch.Proofs.Document.Offset
import RepairSearch.Proofs.Syntax.Locate
import RepairSearch.Proofs.Syntax.Table

/-!
# Literals of a donor

A literal keeps its bytes and its line when a donor is moved to another depth: its lines behind the
first are known to begin inside it, and the first one is only moved by what is before the literal.
-/

namespace RepairSearch

namespace Syntax.Tree

variable {profile : Profile} {t : Tree}

theorem insideLiteral_of_mem {n : Tree} {offset : Nat} (ht : t.Nested) (hn : n ∈ t.preorder)
    (hkind : profile.isLiteral n.kind = true) (hstart : n.start < offset)
    (hstop : offset < n.stop) :
    insideLiteral profile t offset = true := by
  have hway : n ∈ t.pathTo offset offset :=
    mem_pathTo ht hn ⟨Nat.le_of_lt hstart, Nat.le_of_lt hstop⟩ (.inr ⟨hstart, hstop⟩)
  rw [insideLiteral, List.any_eq_true]
  exact ⟨n, hway, by simp [hstart, hkind]⟩

private theorem mem_lineStarts (offset k : Nat) (p q : Text) :
    (offset + p.length + 1, k + p.count Text.newline) ∈
      (lineStarts offset (p ++ Text.newline :: q)).zipIdx k := by
  induction p generalizing offset k with
  | nil =>
    rw [List.nil_append, lineStarts, if_pos (by decide)]
    exact List.mem_cons_self
  | cons b p ih =>
    rw [List.cons_append, lineStarts, List.count_cons, List.length_cons]
    split
    · have h := List.mem_cons_of_mem (offset + 1, k) (ih (offset + 1) (k + 1))
      rwa [Nat.add_right_comm offset 1, Nat.add_right_comm k 1] at h
    · have h := ih (offset + 1) k
      rwa [Nat.add_right_comm offset 1] at h

/-- The tree counts the lines of a range as the text does. -/
theorem mem_literalLines {text p q : Text} {start stop : Nat}
    (hsplit : text.slice start stop = p ++ Text.newline :: q)
    (hinside : insideLiteral profile t (start + p.length + 1) = true) :
    p.count Text.newline + 1 ∈ t.literalLines profile text start stop := by
  rw [literalLines, hsplit, List.mem_filterMap]
  exact ⟨_, mem_lineStarts start 1 p q, by simp [hinside, Nat.add_comm]⟩

end Syntax.Tree

namespace Document

open Syntax (Statement Tree)
open Text

/-- The literals of the original in the range of a statement. -/
def literalsIn (d : Document) (s : Statement) : List Tree :=
  d.originalTree.preorder.filter fun n =>
    d.profile.isLiteral n.kind && s.start ≤ n.start && n.stop ≤ s.stop

/-- The statements are those of the tree of the original, in which every literal begins with
something other than white space and does not end with a line break. -/
structure PlainLiterals (d : Document) : Prop where
  nested : d.originalTree.Nested
  within : d.originalTree.stop ≤ d.original.length
  table : d.statements = Statement.table d.profile d.original d.originalTree
  visible : ∀ n ∈ d.originalTree.preorder, d.profile.isLiteral n.kind = true →
    (n.textIn d.original).StartsVisibly
  ended : ∀ n ∈ d.originalTree.preorder, d.profile.isLiteral n.kind = true →
    (n.textIn d.original).getLast? ≠ some newline

/-- A statement of a document as a donor. -/
def donorOf (d : Document) (s : Statement) : Donor where
  text := d.original.slice s.start s.stop
  indent := d.original.indentAt s.start
  literalLines := d.originalTree.literalLines d.profile d.original s.start s.stop

private theorem donor?_eq {d : Document} {i : Nat} {s : Statement}
    (hs : d.statements[i]? = some s) :
    d.donor? i = some (d.donorOf s) := by
  rw [donor?, hs]
  rfl

private theorem indent_donorOf (d : Document) (s : Statement) :
    ∀ b ∈ (d.donorOf s).indent, b = 32 ∨ b = 9 := fun _ hb => mem_indentAt hb

variable {d : Document} {s : Statement} {n : Tree}

private theorem mem_literalsIn :
    n ∈ d.literalsIn s ↔ n ∈ d.originalTree.preorder ∧ d.profile.isLiteral n.kind = true ∧
      s.start ≤ n.start ∧ n.stop ≤ s.stop := by
  simp [literalsIn, and_assoc]

namespace PlainLiterals

private theorem stop_le (h : d.PlainLiterals) (hs : s ∈ d.statements) :
    s.stop ≤ d.original.length := by
  rw [h.table] at hs
  obtain ⟨_, p, hp, rfl⟩ := Statement.exists_place_of_mem_table hs
  exact Nat.le_trans (Tree.Place.nested_at? h.nested hp).2.2 h.within

variable (h : d.PlainLiterals) (hn : n ∈ d.literalsIn s)
include h hn

private theorem slice_donorOf :
    (d.donorOf s).text.slice (n.start - s.start) (n.stop - s.start) = n.textIn d.original := by
  obtain ⟨hmem, _, hstart, hstop⟩ := mem_literalsIn.mp hn
  have hle := h.nested.le n hmem
  rw [donorOf, slice_slice (by omega), Tree.textIn]
  congr 1 <;> omega

private theorem visible_donorOf : StartsVisibly ((d.donorOf s).text.drop (n.start - s.start)) := by
  obtain ⟨hmem, hkind, hstart, hstop⟩ := mem_literalsIn.mp hn
  have hle := h.nested.le n hmem
  rw [← slice_append_drop (Nat.sub_le_sub_right hle s.start), h.slice_donorOf hn]
  exact (h.visible n hmem hkind).append _

private theorem take_donorOf :
    (d.donorOf s).text.take (n.start - s.start) = d.original.slice s.start n.start := by
  obtain ⟨hmem, _, hstart, hstop⟩ := mem_literalsIn.mp hn
  have hle := h.nested.le n hmem
  have hslice := slice_slice (t := d.original) (i := s.start) (j := s.stop) (k := 0)
    (l := n.start - s.start) (by omega)
  rwa [slice, List.drop_zero, Nat.sub_zero, Nat.add_zero, Nat.add_sub_cancel' hstart] at hslice

private theorem keepsLines_donorOf (hs : s ∈ d.statements) :
    (d.donorOf s).KeepsLines (n.start - s.start) (n.stop - s.start) := by
  intro p q hsplit
  rw [h.slice_donorOf hn] at hsplit
  obtain ⟨hmem, hkind, hstart, hstop⟩ := mem_literalsIn.mp hn
  have hle := h.nested.le n hmem
  have hwithin := h.stop_le hs
  have hlen : (n.textIn d.original).length = n.stop - n.start :=
    slice_length (Nat.le_trans hstop hwithin)
  have hbefore : (d.original.slice s.start n.start).length = n.start - s.start :=
    slice_length (Nat.le_trans hle (Nat.le_trans hstop hwithin))
  have hq : 0 < q.length := by
    refine List.length_pos_iff.mpr fun hnil => h.ended n hmem hkind ?_
    rw [hsplit, hnil, List.getLast?_concat]
  rw [hsplit, List.length_append, List.length_cons] at hlen
  have hall : d.original.slice s.start s.stop =
      (d.original.slice s.start n.start ++ p) ++
        newline :: (q ++ d.original.slice n.stop s.stop) := by
    rw [← slice_append hstart (Nat.le_trans hle hstop), ← slice_append hle hstop]
    change _ ++ (n.textIn d.original ++ _) = _
    simp [hsplit]
  have hinside : Tree.insideLiteral d.profile d.originalTree
      (s.start + (d.original.slice s.start n.start ++ p).length + 1) = true := by
    rw [List.length_append, hbefore]
    exact Tree.insideLiteral_of_mem h.nested hmem hkind (by omega) (by omega)
  have hline := Tree.mem_literalLines hall hinside
  rwa [List.count_append, ← h.take_donorOf hn] at hline

end PlainLiterals

/-- A donor keeps its literals at every depth: each is there byte for byte and on its line, and they
are in their order. -/
theorem donor_keeps_literals (h : d.PlainLiterals) {i : Nat} (hs : d.statements[i]? = some s) :
    ∃ donor, d.donor? i = some donor ∧ ∀ indent : Text, (∀ b ∈ indent, b = 32 ∨ b = 9) →
      ∃ place : Nat → Nat,
        (∀ n ∈ d.literalsIn s,
          (donor.rebase indent).slice (place n.start) (place n.start + (n.stop - n.start)) =
              n.textIn d.original ∧
            d.original.lineAt s.start + (donor.rebase indent).lineAt (place n.start) =
              d.original.lineAt n.start + 1) ∧
        ∀ m ∈ d.literalsIn s, ∀ n ∈ d.literalsIn s,
          (m.start < n.start → place m.start < place n.start) ∧
            (m.stop ≤ n.start → place m.start + (m.stop - m.start) ≤ place n.start) := by
  have hmem := List.mem_of_getElem? hs
  refine ⟨d.donorOf s, donor?_eq hs, fun indent hindent => ?_⟩
  have hdonor := d.indent_donorOf s
  have hlength (n : Tree) (hn : n ∈ d.literalsIn s) :
      ((d.donorOf s).text.slice (n.start - s.start) (n.stop - s.start)).length =
        n.stop - n.start := by
    rw [h.slice_donorOf hn]
    exact slice_length (Nat.le_trans (mem_literalsIn.mp hn).2.2.2 (h.stop_le hmem))
  have hrange (n : Tree) (hn : n ∈ d.literalsIn s) : n.start - s.start ≤ n.stop - s.start :=
    Nat.sub_le_sub_right (h.nested.le n (mem_literalsIn.mp hn).1) s.start
  refine ⟨fun o => (d.donorOf s).placeOf indent (o - s.start), fun n hn => ⟨?_, ?_⟩,
    fun m hm n hn => ⟨fun hlt => ?_, fun hle => ?_⟩⟩
  · have hslice := Donor.slice_placeOf hdonor hindent (h.keepsLines_donorOf hn hmem) (hrange n hn)
      (h.visible_donorOf hn)
    rwa [hlength n hn, h.slice_donorOf hn] at hslice
  · have hstart := (mem_literalsIn.mp hn).2.2.1
    have hline := (Donor.rebase_placeOf hdonor hindent (h.visible_donorOf hn)).2
    rw [hline, lineAt, lineAt, lineAt, h.take_donorOf hn, ← take_append_slice hstart,
      List.count_append]
    omega
  · have hstart := (mem_literalsIn.mp hm).2.2.1
    exact Donor.placeOf_lt_placeOf hdonor hindent (by omega) (h.visible_donorOf hm)
      (h.visible_donorOf hn)
  · have hbehind := Donor.placeOf_add_le hdonor hindent (h.keepsLines_donorOf hm hmem)
      (hrange m hm) (h.visible_donorOf hm) (Nat.sub_le_sub_right hle s.start)
      (h.visible_donorOf hn)
    rwa [hlength m hm] at hbehind

/-- A call at a depth of two spaces, the argument of which is a string of two lines. -/
def quotedText : Text := Text.ofString "  g(\n    r\"a\n  b\")"

def quoted : Document where
  path := "a.py"
  package := "a"
  language := .python
  original := quotedText
  originalTree := .node { kind := "module", start := 0, stop := 18 }
    [.node { kind := "expression_statement", start := 2, stop := 18 }
      [.node { kind := "string", start := 9, stop := 17 } []]]
  statements := [⟨"expression_statement", 2, 18, 1, 2, "", "module"⟩]
  current := quotedText
  parsed := Language.python.parse quotedText
  edits := []
  nextEdit := 0
  revision := 0

private theorem quoted_plainLiterals : quoted.PlainLiterals where
  nested := by decide
  within := by decide +kernel
  table := by decide +kernel
  visible n hn hkind := by
    have hstart : ∀ n ∈ quoted.originalTree.preorder, quoted.profile.isLiteral n.kind = true →
        ofChars ['r'] <+: n.textIn quoted.original := by decide +kernel
    exact ⟨'r', by decide, hstart n hn hkind⟩
  ended := by decide +kernel

/-- The line on which the string starts is moved to a tab, and its second line stays. -/
theorem donor_keeps_literals_tab :
    ∃ donor, quoted.donor? 0 = some donor ∧
      donor.rebase [9] = Text.ofString "g(\n\t  r\"a\n  b\")" ∧
      ∃ start, (donor.rebase [9]).slice start (start + 8) = Text.ofString "r\"a\n  b\"" ∧
        (donor.rebase [9]).lineAt start = 2 := by
  obtain ⟨donor, hdonor, hkept⟩ :=
    donor_keeps_literals quoted_plainLiterals (i := 0) (List.getElem?_cons_zero ..)
  obtain ⟨place, hplace, _⟩ := hkept [9] (by simp)
  have hmem : .node { kind := "string", start := 9, stop := 17 } [] ∈
      quoted.originalTree.preorder :=
    List.mem_cons_of_mem _ (List.mem_cons_of_mem _ List.mem_cons_self)
  obtain ⟨hslice, hline⟩ := hplace _ (mem_literalsIn.mpr ⟨hmem, by decide, by decide, by decide⟩)
  have hmoved : (quoted.donor? 0).map (·.rebase [9]) =
      some (Text.ofString "g(\n\t  r\"a\n  b\")") := by decide +kernel
  have hlines : lineAt quoted.original 2 = 1 ∧ lineAt quoted.original 9 = 2 := by decide +kernel
  rw [hdonor] at hmoved
  change lineAt quoted.original 2 + _ = lineAt quoted.original 9 + 1 at hline
  refine ⟨donor, hdonor, Option.some.inj hmoved, place 9, hslice.trans (by decide +kernel), ?_⟩
  rw [hlines.1, hlines.2] at hline
  exact Nat.add_left_cancel (hline.trans (Nat.add_comm 2 1))

end Document

end RepairSearch
