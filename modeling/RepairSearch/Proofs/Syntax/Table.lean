import Mathlib.Data.List.Forall2
import RepairSearch.Language.Tables
import RepairSearch.Proofs.Syntax.Nesting
import RepairSearch.Syntax.Locate
import RepairSearch.Syntax.Statement

/-!
# The table of statements

The address of a node is made of the numbers of the children on the way to it. The lexicographic
order of the addresses is the order in which the nodes of a tree begin, with a node before those
inside it. The table of statements follows this order.
-/

namespace RepairSearch.Syntax

/-- The numbers of the children on the way to a node, the child of the root first. -/
abbrev Address := List Nat

namespace Tree.Place

/-- The place at an address below another one. -/
def at? : Place → Address → Option Place
  | p, [] => some p
  | p, i :: a =>
    match p.node.children[i]? with
    | some c => at? ⟨c, p.node :: p.ancestors⟩ a
    | none => none

variable {p q r : Place} {a b : Address}

theorem at?_cons {i : Nat} {c : Tree} (h : p.node.children[i]? = some c) :
    p.at? (i :: a) = at? ⟨c, p.node :: p.ancestors⟩ a := by
  rw [at?, h]

theorem at?_cons_eq_some {i : Nat} (h : p.at? (i :: a) = some q) :
    ∃ c, p.node.children[i]? = some c ∧ at? ⟨c, p.node :: p.ancestors⟩ a = some q := by
  rw [at?] at h
  split at h
  · rename_i c hc
    exact ⟨c, hc, h⟩
  · cases h

theorem nested_at? (hp : p.node.Nested) (h : p.at? a = some q) :
    q.node.Nested ∧ p.node.Around q.node.start q.node.stop := by
  induction a generalizing p with
  | nil =>
    obtain rfl := Option.some.inj h
    exact ⟨hp, Nat.le_refl _, Nat.le_refl _⟩
  | cons i a ih =>
    obtain ⟨c, hc, h⟩ := at?_cons_eq_some h
    have hmem := List.mem_of_getElem? hc
    obtain ⟨hq, haround⟩ := ih (hp.child hmem) h
    exact ⟨hq, (hp.enclosing _ (self_mem_preorder _) c hmem).trans haround⟩

/-- Of two places the one with the later address lies inside the other or begins behind it. -/
theorem ranges_of_lt (hp : p.node.Nested) (hq : p.at? a = some q) (hr : p.at? b = some r)
    (hab : a < b) : q.node.start ≤ r.node.start ∧
      (q.node.stop ≤ r.node.start ∨ r.node.stop ≤ q.node.stop) := by
  induction a generalizing p b with
  | nil =>
    obtain rfl := Option.some.inj hq
    obtain ⟨hstart, hstop⟩ := (nested_at? hp hr).2
    exact ⟨hstart, .inr hstop⟩
  | cons i a ih =>
    cases b with
    | nil => exact absurd hab (List.not_lt_nil _)
    | cons j b =>
      obtain ⟨c, hc, hq⟩ := at?_cons_eq_some hq
      obtain ⟨d, hd, hr⟩ := at?_cons_eq_some hr
      rcases List.cons_lt_cons_iff.mp hab with hij | ⟨rfl, htail⟩
      · have happart : c.stop ≤ d.start := by
          obtain ⟨hi, rfl⟩ := List.getElem?_eq_some_iff.mp hc
          obtain ⟨hj, rfl⟩ := List.getElem?_eq_some_iff.mp hd
          exact List.pairwise_iff_getElem.mp (hp.apart _ (self_mem_preorder _)) i j hi hj hij
        obtain ⟨hqnest, hqc⟩ := nested_at? (hp.child (List.mem_of_getElem? hc)) hq
        obtain ⟨_, hrd⟩ := nested_at? (hp.child (List.mem_of_getElem? hd)) hr
        have hle := hqnest.le _ (self_mem_preorder _)
        have hstop : q.node.stop ≤ r.node.start :=
          Nat.le_trans hqc.2 (Nat.le_trans happart hrd.1)
        exact ⟨Nat.le_trans hle hstop, .inl hstop⟩
      · obtain rfl := Option.some.inj (hc.symm.trans hd)
        exact ih (hp.child (List.mem_of_getElem? hc)) hq hr htail

end Tree.Place

namespace Statement

open RepairSearch.Syntax.Tree (Place)

variable (profile : Profile) (text : Text)

/-- The name of the innermost of several nodes that has one, the innermost first. -/
def typeNameOf (nodes : List Tree) : String := (nodes.findSome? (ownTypeName? profile text)).getD ""

/-- The entry of a node with the nodes around it. -/
def ofPlace (p : Place) : Statement :=
  ofTree text (typeNameOf profile text (p.node :: p.ancestors))
    ((p.parent?.map Tree.kind).getD "") p.node

/-- Statements are listed with those addresses below a place that are in some part of it. -/
structure Lists (p : Place) (part : Address → Prop) (as : List Address)
    (ss : List Statement) : Prop where
  sorted : as.Pairwise (· < ·)
  complete : ∀ a, a ∈ as ↔ part a ∧ ∃ q ∈ p.at? a, profile.isStatement q.node.kind = true
  entries : as.Forall₂ (fun a s => ∃ q ∈ p.at? a, s = ofPlace profile text q) ss

variable {profile text}

private theorem typeNameOf_cons (t : Tree) (ts : List Tree) :
    typeNameOf profile text (t :: ts) =
      (ownTypeName? profile text t).getD (typeNameOf profile text ts) := by
  rw [typeNameOf, List.findSome?_cons]
  cases ownTypeName? profile text t <;> rfl

private theorem exists_lists_among {p : Place} {n : Nat} {ts : List Tree}
    (hts : p.node.children.drop n = ts)
    (hlists : ∀ c ∈ ts, ∃ as, Lists profile text ⟨c, p.node :: p.ancestors⟩ (fun _ => True) as
      (below profile text (typeNameOf profile text (p.node :: p.ancestors)) p.node.kind c)) :
    ∃ as, Lists profile text p (fun a => ∃ i ∈ a.head?, n ≤ i) as
      (belowAll profile text (typeNameOf profile text (p.node :: p.ancestors)) p.node.kind ts) := by
  induction ts generalizing n with
  | nil =>
    refine ⟨[], List.Pairwise.nil, fun a => ?_, .nil⟩
    have hlen : p.node.children.length ≤ n := List.drop_eq_nil_iff.mp hts
    simp only [List.not_mem_nil, false_iff]
    rintro ⟨⟨i, hi, hni⟩, q, hq, _⟩
    obtain ⟨b, rfl⟩ := List.head?_eq_some_iff.mp hi
    obtain ⟨c, hc, _⟩ := Place.at?_cons_eq_some hq
    rw [List.getElem?_eq_none (Nat.le_trans hlen hni)] at hc
    cases hc
  | cons t ts ih =>
    have hchild : p.node.children[n]? = some t := by
      have hget := congrArg (·[0]?) hts
      simpa using hget
    have hdrop : p.node.children.drop (n + 1) = ts := by
      rw [← List.drop_drop, hts, List.drop_one, List.tail_cons]
    obtain ⟨as, has⟩ := hlists t List.mem_cons_self
    obtain ⟨bs, hbs⟩ := ih hdrop fun c hc => hlists c (List.mem_cons_of_mem t hc)
    refine ⟨as.map (n :: ·) ++ bs, ?_, fun a => ?_, ?_⟩
    · refine List.pairwise_append.mpr ⟨?_, hbs.sorted, ?_⟩
      · refine List.pairwise_map.mpr (has.sorted.imp ?_)
        exact fun hlt => List.cons_lt_cons_iff.mpr (.inr ⟨rfl, hlt⟩)
      · intro a ha b hb
        obtain ⟨a, _, rfl⟩ := List.mem_map.mp ha
        obtain ⟨⟨i, hi, hni⟩, _⟩ := (hbs.complete b).mp hb
        obtain ⟨b, rfl⟩ := List.head?_eq_some_iff.mp hi
        exact List.cons_lt_cons_iff.mpr (.inl hni)
    · simp only [List.mem_append, List.mem_map, has.complete, hbs.complete, true_and]
      cases a with
      | nil => simp
      | cons i a =>
        by_cases hi : i = n
        · subst hi
          simp [Place.at?_cons hchild]
        · have hiff : (∃ j ∈ (i :: a).head?, n + 1 ≤ j) ↔ ∃ j ∈ (i :: a).head?, n ≤ j := by
            simp only [List.head?_cons, Option.mem_some_iff, exists_eq_left']
            omega
          rw [hiff]
          simp [Ne.symm hi]
    · rw [belowAll]
      refine List.rel_append ?_ hbs.entries
      rw [List.forall₂_map_left_iff]
      simpa only [Place.at?_cons hchild] using has.entries

private theorem exists_lists (profile : Profile) (text : Text) (t : Tree) (ancestors : List Tree) :
    ∃ as, Lists profile text ⟨t, ancestors⟩ (fun _ => True) as
      (below profile text (typeNameOf profile text ancestors)
        ((ancestors.head?.map Tree.kind).getD "") t) := by
  induction t using Tree.induction generalizing ancestors with
  | node i cs ih =>
    let p : Place := ⟨.node i cs, ancestors⟩
    obtain ⟨as, has⟩ := exists_lists_among (p := p) (n := 0) rfl fun c hc =>
      ih c hc (p.node :: p.ancestors)
    have hmem (a : Address) (ha : ∃ q ∈ p.at? a, profile.isStatement q.node.kind = true) :
        a = [] ∨ a ∈ as := by
      cases a with
      | nil => exact .inl rfl
      | cons i a => exact .inr ((has.complete _).mpr ⟨⟨i, rfl, Nat.zero_le i⟩, ha⟩)
    simp only [below, ← typeNameOf_cons]
    split
    · rename_i hkind
      refine ⟨[] :: as, List.pairwise_cons.mpr ⟨fun a ha => ?_, has.sorted⟩, fun a => ?_, ?_⟩
      · obtain ⟨⟨i, hi, _⟩, _⟩ := (has.complete a).mp ha
        obtain ⟨b, rfl⟩ := List.head?_eq_some_iff.mp hi
        exact List.nil_lt_cons i b
      · constructor
        · intro ha
          rcases List.mem_cons.mp ha with rfl | ha
          · exact ⟨trivial, p, rfl, hkind⟩
          · exact ⟨trivial, ((has.complete a).mp ha).2⟩
        · exact fun ha => List.mem_cons.mpr (hmem a ha.2)
      · exact .cons ⟨p, rfl, rfl⟩ has.entries
    · rename_i hkind
      refine ⟨as, has.sorted, fun a => ⟨fun ha => ⟨trivial, ((has.complete a).mp ha).2⟩, ?_⟩,
        has.entries⟩
      rintro ⟨_, ha⟩
      rcases hmem a ha with rfl | hmem
      · obtain ⟨q, hq, hstmt⟩ := ha
        obtain rfl := Option.some.inj hq
        exact absurd hstmt hkind
      · exact hmem

theorem exists_place_of_mem_table {root : Tree} {s : Statement}
    (hs : s ∈ Statement.table profile text root) :
    ∃ a, ∃ p ∈ Place.at? ⟨root, []⟩ a, s = ofPlace profile text p := by
  obtain ⟨as, has⟩ := exists_lists profile text root []
  obtain ⟨hlen, hget⟩ := List.forall₂_iff_get.mp has.entries
  obtain ⟨i, hi, rfl⟩ := List.getElem_of_mem hs
  exact ⟨_, hget i (hlen ▸ hi) hi⟩

private theorem pairwise_of_forall₂ {α β : Type} {R : α → β → Prop} {S : α → α → Prop}
    {T : β → β → Prop} {xs : List α} {ys : List β} (h : xs.Forall₂ R ys) (hxs : xs.Pairwise S)
    (hstep : ∀ x x' y y', S x x' → R x y → R x' y' → T y y') : ys.Pairwise T := by
  obtain ⟨hlen, hget⟩ := List.forall₂_iff_get.mp h
  refine List.pairwise_iff_getElem.mpr fun i j hi hj hij => ?_
  have hx := List.pairwise_iff_getElem.mp hxs i j (hlen ▸ hi) (hlen ▸ hj) hij
  exact hstep _ _ _ _ hx (hget i (hlen ▸ hi) hi) (hget j (hlen ▸ hj) hj)

/-- The table has exactly one entry for every statement of the tree, in the order of the addresses.
So the starts never fall, two ranges are nested or apart, and a statement comes before those inside
it. The type name of an entry is that of the innermost class-like node with a name field at or
around the statement, which is around it if the statement is not itself class-like. -/
theorem table_inPreorder {root : Tree} (h : root.Nested) :
    let table := Statement.table profile text root
    let place := Place.at? ⟨root, []⟩
    (∃ as : List Address, as.Pairwise (fun a b => a < b ∧ ¬ b <+: a) ∧
      (∀ a, a ∈ as ↔ ∃ p ∈ place a, profile.isStatement p.node.kind = true) ∧
      as.Forall₂ (fun a s => ∃ p ∈ place a, s = ofPlace profile text p ∧
        (profile.nameField? p.node.kind = none →
          s.typeName = typeNameOf profile text p.ancestors)) table) ∧
    table.Pairwise fun s s' => s.start ≤ s'.start ∧ (s.stop ≤ s'.start ∨ s'.stop ≤ s.stop) := by
  obtain ⟨as, has⟩ := exists_lists profile text root []
  refine ⟨⟨as, ?_, ?_, ?_⟩, ?_⟩
  · exact has.sorted.imp fun hlt => ⟨hlt, fun hprefix => hprefix.le hlt⟩
  · intro a
    rw [has.complete, true_and]
  · refine has.entries.imp fun a s => ?_
    rintro ⟨p, hp, rfl⟩
    refine ⟨p, hp, rfl, fun hfield => ?_⟩
    have hown : ownTypeName? profile text p.node = none := by simp [ownTypeName?, hfield]
    change typeNameOf profile text (p.node :: p.ancestors) = _
    rw [typeNameOf_cons, hown, Option.getD_none]
  · refine pairwise_of_forall₂ has.entries has.sorted ?_
    rintro a b s s' hlt ⟨p, hp, rfl⟩ ⟨q, hq, rfl⟩
    exact Place.ranges_of_lt h hp hq hlt

/-- In the text `A{1 B{2} 3} 4` with the classes `A` and `B`, the statement behind `B` is one of `A`
again. -/
theorem table_inPreorder_nestedClasses :
    let leaf (kind : String) (field : Option String) (start : Nat) : Tree :=
      .node { kind, field, start, stop := start + 1 } []
    let inner : Tree := .node { kind := "class_definition", start := 4, stop := 8 }
      [leaf "identifier" (some "name") 4, leaf "pass_statement" none 6]
    let outer : Tree := .node { kind := "class_definition", start := 0, stop := 11 }
      [leaf "identifier" (some "name") 0, leaf "pass_statement" none 2, inner,
        leaf "pass_statement" none 9]
    let root : Tree := .node { kind := "module", start := 0, stop := 13 }
      [outer, leaf "pass_statement" none 12]
    let table := Statement.table .python (Text.ofString "A{1 B{2} 3} 4") root
    table.map (·.typeName) = ["A", "B", "A", ""] ∧
      table.Pairwise fun s s' => s.start ≤ s'.start ∧ (s.stop ≤ s'.start ∨ s'.stop ≤ s.stop) := by
  intro leaf inner outer root table
  have hnested : root.Nested := by decide
  exact ⟨by decide +kernel, (table_inPreorder hnested).2⟩

-- No statement of the languages is class-like.
example : ∀ l : Language, ∀ kind ∈ l.profile.statementKinds, l.profile.nameField? kind = none := by
  intro l
  cases l <;> decide

end Statement

end RepairSearch.Syntax
