import Mathlib.Data.List.Infix
import RepairSearch.Proofs.Syntax.Table

/-!
# Addresses

A node is told apart from the others by its address, and the addresses above it are the prefixes of
its own. The list of all addresses has one for every node, in the order in which the nodes begin.
-/

namespace RepairSearch.Syntax.Tree

variable {m n t : Tree} {a b : Address} {i : Nat}

/-- The node at an address. -/
def at? : Tree → Address → Option Tree
  | t, [] => some t
  | t, i :: a =>
    match t.children[i]? with
    | some c => c.at? a
    | none => none

theorem at?_cons : t.at? (i :: a) = (t.children[i]?).bind (·.at? a) := by
  rw [at?]
  cases t.children[i]? <;> rfl

private theorem at?_append : t.at? (a ++ b) = (t.at? a).bind (·.at? b) := by
  induction a generalizing t with
  | nil => rfl
  | cons i a ih =>
    rw [List.cons_append, at?_cons, at?_cons, Option.bind_assoc]
    exact congrArg _ (funext fun _ => ih)

theorem at?_concat (h : t.at? a = some n) : t.at? (a ++ [i]) = n.children[i]? := by
  rw [at?_append, h, Option.bind_some, at?_cons]
  exact Option.bind_fun_some _

/-- The nodes of a tree are the tree itself and those of its children. -/
theorem exists_at?_iff {P : Address → Tree → Prop} :
    (∃ a n, t.at? a = some n ∧ P a n) ↔
      P [] t ∨ ∃ i c, t.children[i]? = some c ∧ ∃ a n, c.at? a = some n ∧ P (i :: a) n := by
  constructor
  · rintro ⟨_ | ⟨i, a⟩, n, hn, h⟩
    · obtain rfl := Option.some.inj hn
      exact .inl h
    · rw [at?_cons] at hn
      obtain ⟨c, hc, hn⟩ := Option.bind_eq_some_iff.mp hn
      exact .inr ⟨i, c, hc, a, n, hn, h⟩
  · rintro (h | ⟨i, c, hc, a, n, hn, h⟩)
    · exact ⟨[], t, rfl, h⟩
    · exact ⟨i :: a, n, by rw [at?_cons, hc, Option.bind_some, hn], h⟩

/-- The nodes of the tree at an address are those with longer addresses. -/
theorem exists_at?_below (h : t.at? a = some m) {P : Address → Tree → Prop} :
    (∃ b n, m.at? b = some n ∧ P (a ++ b) n) ↔
      ∃ b n, t.at? b = some n ∧ a <+: b ∧ P b n := by
  have hbelow (b : Address) : t.at? (a ++ b) = m.at? b := by rw [at?_append, h, Option.bind_some]
  constructor
  · rintro ⟨b, n, hn, hP⟩
    exact ⟨a ++ b, n, (hbelow b).trans hn, List.prefix_append a b, hP⟩
  · rintro ⟨b, n, hn, ⟨c, rfl⟩, hP⟩
    exact ⟨c, n, (hbelow c).symm.trans hn, hP⟩

private theorem at?_place (t : Tree) (ancestors : List Tree) (a : Address) :
    (Place.at? ⟨t, ancestors⟩ a).map Place.node = t.at? a := by
  induction a generalizing t ancestors with
  | nil => rfl
  | cons i a ih =>
    rw [Place.at?, at?]
    cases t.children[i]? with
    | none => rfl
    | some c => exact ih c _

theorem start_le_of_lt (ht : t.Nested) (ha : t.at? a = some m) (hb : t.at? b = some n)
    (hab : a < b) : m.start ≤ n.start := by
  rw [← at?_place t []] at ha hb
  obtain ⟨p, hp, rfl⟩ := Option.map_eq_some_iff.mp ha
  obtain ⟨q, hq, rfl⟩ := Option.map_eq_some_iff.mp hb
  exact (Place.ranges_of_lt ht hp hq hab).1

mutual

/-- The addresses of a node and of all below it, in the order of the nodes. -/
def addresses : Tree → List Address
  | node _ cs => [] :: addressesAmong 0 cs

/-- The addresses of several children, of which the first has the number `n`. -/
def addressesAmong (n : Nat) : List Tree → List Address
  | [] => []
  | t :: ts => (addresses t).map (n :: ·) ++ addressesAmong (n + 1) ts

end

private theorem mem_addressesAmong {n : Nat} {ts : List Tree} :
    a ∈ addressesAmong n ts ↔
      ∃ i, ∃ c, ∃ b, ts[i]? = some c ∧ b ∈ c.addresses ∧ a = (n + i) :: b := by
  induction ts generalizing n with
  | nil => simp [addressesAmong]
  | cons t ts ih =>
    rw [addressesAmong, List.mem_append, List.mem_map, ih]
    constructor
    · rintro (⟨b, hb, rfl⟩ | ⟨i, c, b, hc, hb, rfl⟩)
      · exact ⟨0, t, b, rfl, hb, rfl⟩
      · exact ⟨i + 1, c, b, hc, hb, by rw [Nat.add_right_comm, Nat.add_assoc]⟩
    · rintro ⟨i, c, b, hc, hb, rfl⟩
      cases i with
      | zero =>
        obtain rfl := Option.some.inj hc
        exact .inl ⟨b, hb, rfl⟩
      | succ i => exact .inr ⟨i, c, b, hc, hb, by rw [Nat.add_right_comm, Nat.add_assoc]⟩

theorem mem_addresses : a ∈ t.addresses ↔ ∃ n, t.at? a = some n := by
  induction t using induction generalizing a with
  | node j cs ih =>
    rw [addresses, List.mem_cons, mem_addressesAmong]
    constructor
    · rintro (rfl | ⟨i, c, b, hc, hb, rfl⟩)
      · exact ⟨_, rfl⟩
      · obtain ⟨n, hn⟩ := (ih c (List.mem_of_getElem? hc)).mp hb
        exact ⟨n, by rw [Nat.zero_add, at?_cons, children, hc, Option.bind_some, hn]⟩
    · rintro ⟨n, hn⟩
      cases a with
      | nil => exact .inl rfl
      | cons i b =>
        rw [at?_cons] at hn
        obtain ⟨c, hc, hn⟩ := Option.bind_eq_some_iff.mp hn
        have hb := (ih c (List.mem_of_getElem? hc)).mpr ⟨n, hn⟩
        exact .inr ⟨i, c, b, hc, hb, by rw [Nat.zero_add]⟩

private theorem pairwise_addressesAmong {n : Nat} {ts : List Tree}
    (hts : ∀ c ∈ ts, c.addresses.Pairwise (· < ·)) :
    (addressesAmong n ts).Pairwise (· < ·) := by
  induction ts generalizing n with
  | nil => exact List.Pairwise.nil
  | cons t ts ih =>
    rw [addressesAmong, List.pairwise_append, List.pairwise_map]
    refine ⟨?_, ih fun c hc => hts c (List.mem_cons_of_mem t hc), ?_⟩
    · exact (hts t List.mem_cons_self).imp fun hlt => List.cons_lt_cons_iff.mpr (.inr ⟨rfl, hlt⟩)
    · intro a ha b hb
      obtain ⟨a, _, rfl⟩ := List.mem_map.mp ha
      obtain ⟨i, c, b, _, _, rfl⟩ := mem_addressesAmong.mp hb
      exact List.cons_lt_cons_iff.mpr (.inl (by omega))

theorem pairwise_addresses (t : Tree) : t.addresses.Pairwise (· < ·) := by
  induction t using induction with
  | node j cs ih =>
    rw [addresses, List.pairwise_cons]
    refine ⟨fun a ha => ?_, pairwise_addressesAmong ih⟩
    obtain ⟨i, c, b, _, _, rfl⟩ := mem_addressesAmong.mp ha
    exact List.nil_lt_cons _ _

end RepairSearch.Syntax.Tree
