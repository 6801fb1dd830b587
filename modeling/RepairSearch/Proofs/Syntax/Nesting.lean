import Mathlib.Data.List.Basic
import RepairSearch.Syntax.Tree

/-!
# Nested ranges

In a syntax tree the range of a node holds the ranges of its children, which follow one another
without overlap.
-/

namespace RepairSearch.Syntax.Tree

@[elab_as_elim]
theorem induction {motive : Tree → Prop}
    (node : ∀ i cs, (∀ c ∈ cs, motive c) → motive (.node i cs)) (t : Tree) : motive t := by
  refine Tree.rec (motive_1 := motive) (motive_2 := fun ts => ∀ c ∈ ts, motive c) node ?_ ?_ t
  · intro c hc
    exact absurd hc List.not_mem_nil
  · intro t ts ht hts c hc
    rcases List.mem_cons.mp hc with rfl | hc
    · exact ht
    · exact hts c hc

private theorem mem_preorderAll {n : Tree} {ts : List Tree} :
    n ∈ preorderAll ts ↔ ∃ t ∈ ts, n ∈ t.preorder := by
  induction ts with
  | nil => simp [preorderAll]
  | cons t ts ih => simp [preorderAll, ih]

theorem mem_preorder {n t : Tree} :
    n ∈ t.preorder ↔ n = t ∨ ∃ c ∈ t.children, n ∈ c.preorder := by
  cases t with
  | node i cs => rw [preorder, List.mem_cons, mem_preorderAll, children]

theorem self_mem_preorder (t : Tree) : t ∈ t.preorder := mem_preorder.mpr (.inl rfl)

theorem preorder_subset_of_child {c t : Tree} (hc : c ∈ t.children) : c.preorder ⊆ t.preorder :=
  fun _ hn => mem_preorder.mpr (.inr ⟨c, hc, hn⟩)

/-- A node around a range. -/
def Around (t : Tree) (start stop : Nat) : Prop := t.start ≤ start ∧ stop ≤ t.stop

instance (t : Tree) (start stop : Nat) : Decidable (t.Around start stop) :=
  inferInstanceAs (Decidable (t.start ≤ start ∧ stop ≤ t.stop))

theorem Around.trans {m n : Tree} {start stop : Nat} (h : m.Around n.start n.stop)
    (hn : n.Around start stop) : m.Around start stop :=
  ⟨Nat.le_trans h.1 hn.1, Nat.le_trans hn.2 h.2⟩

/-- Every node is around its children. -/
def Enclosing (t : Tree) : Prop :=
  ∀ n ∈ t.preorder, ∀ c ∈ n.children, n.Around c.start c.stop

theorem Enclosing.child {c t : Tree} (h : t.Enclosing) (hc : c ∈ t.children) : c.Enclosing :=
  fun n hn => h n (preorder_subset_of_child hc hn)

theorem Enclosing.around {n t : Tree} (h : t.Enclosing) (hn : n ∈ t.preorder) :
    t.Around n.start n.stop := by
  induction t using induction with
  | node i cs ih =>
    rcases mem_preorder.mp hn with rfl | ⟨c, hc, hn⟩
    · exact ⟨Nat.le_refl _, Nat.le_refl _⟩
    · exact (h _ (self_mem_preorder _) c hc).trans (ih c hc (h.child hc) hn)

/-- Every node is around its children, which lie in order and apart. -/
structure Nested (t : Tree) : Prop where
  le : ∀ n ∈ t.preorder, n.start ≤ n.stop
  enclosing : t.Enclosing
  apart : ∀ n ∈ t.preorder, n.children.Pairwise fun c d => c.stop ≤ d.start

instance (t : Tree) : Decidable t.Nested :=
  decidable_of_iff ((∀ n ∈ t.preorder, n.start ≤ n.stop) ∧
      (∀ n ∈ t.preorder, ∀ c ∈ n.children, n.Around c.start c.stop) ∧
      ∀ n ∈ t.preorder, n.children.Pairwise fun c d => c.stop ≤ d.start)
    ⟨fun ⟨hle, hin, hapart⟩ => ⟨hle, hin, hapart⟩, fun h => ⟨h.le, h.enclosing, h.apart⟩⟩

theorem Nested.child {c t : Tree} (h : t.Nested) (hc : c ∈ t.children) : c.Nested where
  le n hn := h.le n (preorder_subset_of_child hc hn)
  enclosing := h.enclosing.child hc
  apart n hn := h.apart n (preorder_subset_of_child hc hn)

end RepairSearch.Syntax.Tree
