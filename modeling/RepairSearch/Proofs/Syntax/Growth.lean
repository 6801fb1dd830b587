import Mathlib.Data.List.Forall2
import RepairSearch.Proofs.Syntax.Unbound

/-!
# Names in a tree that grows

A subtree put into a tree moves the addresses of the nodes behind it and the positions of many
others. Every node still has the nodes around it that it had, so each binding position binds what it
bound and each scope declares what it declared, and only more.
-/

namespace RepairSearch.Syntax

variable {profile : Profile} {text text' : Text}

namespace Tree

/-- The tree with one more child of the node at an address, before the child with the number `k`. -/
def insertAt : Tree → Address → Nat → Tree → Tree
  | node i cs, [], k, new => node i (cs.insertIdx k new)
  | node i cs, j :: b, k, new => node i (cs.modify j fun c => c.insertAt b k new)

/-- The nodes of one text as nodes of another: the kind and the field are the same, and a reference
has the same name. -/
structure Resembles (profile : Profile) (text text' : Text) (i j : NodeInfo) : Prop where
  kind : i.kind = j.kind
  field : i.field = j.field
  name : profile.isReference i.kind = true →
    text.slice i.start i.stop = text'.slice j.start j.stop

/-- A tree of one text as a tree of another, node by node, wherever the nodes have moved to. -/
inductive Moved (profile : Profile) (text text' : Text) : Tree → Tree → Prop where
  | node {i j : NodeInfo} {cs ds : List Tree} (here : Resembles profile text text' i j)
      (children : cs.Forall₂ (Moved profile text text') ds) :
      Moved profile text text' (.node i cs) (.node j ds)

end Tree

namespace Address

/-- The address that a node gets by a new child with the number `k` of the node at `b`. -/
def shift : Address → Nat → Address → Address
  | _, _, [] => []
  | [], k, i :: a => (if i < k then i else i + 1) :: a
  | j :: b, k, i :: a => if i = j then i :: shift b k a else i :: a

private theorem shift_nil (b : Address) (k : Nat) : shift b k [] = [] := by
  cases b <;> rfl

private theorem inits_shift (b : Address) (k : Nat) (a : Address) :
    (shift b k a).inits = a.inits.map (shift b k) := by
  induction b generalizing a with
  | nil =>
    cases a with
    | nil => rfl
    | cons i a =>
      rw [shift, List.inits_cons, List.inits_cons, List.map_cons, List.map_map]
      rfl
  | cons j b ih =>
    cases a with
    | nil => rfl
    | cons i a =>
      rw [List.inits_cons, List.map_cons, List.map_map, shift_nil]
      by_cases hij : i = j
      · have hshift (c : Address) : shift (j :: b) k (i :: c) = i :: shift b k c := if_pos hij
        rw [hshift, List.inits_cons, ih, List.map_map]
        exact congrArg _ (List.map_congr_left fun c _ => (hshift c).symm)
      · have hshift (c : Address) : shift (j :: b) k (i :: c) = i :: c := if_neg hij
        rw [hshift, List.inits_cons]
        exact congrArg _ (List.map_congr_left fun c _ => (hshift c).symm)

private theorem shift_cases (b : Address) (k : Nat) (a : Address) :
    (∃ c, a = b ++ k :: c) ∨ ∃ c, a = shift b k c := by
  induction b generalizing a with
  | nil =>
    cases a with
    | nil => exact .inr ⟨[], rfl⟩
    | cons i a =>
      rcases Nat.lt_trichotomy i k with hik | rfl | hik
      · exact .inr ⟨i :: a, by rw [shift, if_pos hik]⟩
      · exact .inl ⟨a, rfl⟩
      · refine .inr ⟨(i - 1) :: a, ?_⟩
        rw [shift, if_neg (by omega), Nat.sub_add_cancel (by omega)]
  | cons j b ih =>
    cases a with
    | nil => exact .inr ⟨[], rfl⟩
    | cons i a =>
      by_cases hij : i = j
      · subst hij
        rcases ih a with ⟨c, rfl⟩ | ⟨c, rfl⟩
        · exact .inl ⟨c, rfl⟩
        · exact .inr ⟨i :: c, (if_pos rfl).symm⟩
      · exact .inr ⟨i :: a, (if_neg hij).symm⟩

end Address

namespace Tree

open Address (shift)

variable {root root' t t' new : Tree} {b : Address} {k : Nat}

private theorem getElem?_insertIdx_shift (cs : List Tree) (k : Nat) (new : Tree) (i : Nat) :
    (cs.insertIdx k new)[if i < k then i else i + 1]? = cs[i]? := by
  rw [List.getElem?_insertIdx]
  by_cases hik : i < k
  · rw [if_pos hik, if_pos hik]
  · rw [if_neg hik, if_neg (by omega), if_neg (by omega), Nat.add_sub_cancel]

private theorem info_at?_insertAt (t : Tree) (b : Address) (k : Nat) (new : Tree) (a : Address) :
    ((t.insertAt b k new).at? (shift b k a)).map info = (t.at? a).map info := by
  induction b generalizing t a with
  | nil =>
    obtain ⟨j, cs⟩ := t
    cases a with
    | nil => rfl
    | cons i a =>
      rw [shift, insertAt, at?_cons, at?_cons, children, children, getElem?_insertIdx_shift]
  | cons j b ih =>
    obtain ⟨l, cs⟩ := t
    cases a with
    | nil => rfl
    | cons i a =>
      rw [shift, insertAt]
      by_cases hij : i = j
      · rw [if_pos hij, at?_cons, at?_cons, children, children, List.getElem?_modify, hij]
        cases cs[j]? with
        | none => rfl
        | some c => simpa using ih c a
      · rw [if_neg hij, at?_cons, at?_cons, children, children, List.getElem?_modify]
        cases cs[i]? with
        | none => rfl
        | some c => simp [Ne.symm hij]

private theorem at?_of_insertAt {c : Address} {n : Tree}
    (h : (t.insertAt b k new).at? (b ++ k :: c) = some n) : new.at? c = some n := by
  induction b generalizing t with
  | nil =>
    obtain ⟨j, cs⟩ := t
    rw [insertAt, List.nil_append, at?_cons, children, List.getElem?_insertIdx_self] at h
    split at h
    · exact h
    · cases h
  | cons j b ih =>
    obtain ⟨l, cs⟩ := t
    rw [insertAt, List.cons_append, at?_cons, children, List.getElem?_modify] at h
    cases hc : cs[j]? with
    | none => simp [hc] at h
    | some c => exact ih (t := c) (by simpa [hc] using h)

private theorem rel_getElem? {α β : Type} {R : α → β → Prop} {xs : List α} {ys : List β}
    (h : xs.Forall₂ R ys) (i : Nat) : Option.Rel R xs[i]? ys[i]? := by
  induction h generalizing i with
  | nil => exact .none
  | cons hxy _ ih =>
    cases i with
    | zero => exact .some hxy
    | succ i => exact ih i

private theorem Moved.at? (h : Moved profile text text' t t') (a : Address) :
    Option.Rel (Resembles profile text text') ((t.at? a).map info) ((t'.at? a).map info) := by
  induction a generalizing t t' with
  | nil =>
    obtain ⟨hhere, _⟩ := h
    exact .some hhere
  | cons i a ih =>
    obtain @⟨_, _, cs, ds, _, hchildren⟩ := h
    have hchild := rel_getElem? hchildren i
    rw [at?_cons, at?_cons, children, children]
    generalize cs[i]? = c, ds[i]? = d at hchild
    cases hchild with
    | none => exact .none
    | some hcd => exact ih hcd

end Tree

namespace Scope

open Syntax.Tree (Resembles Moved)
open Address (shift)

/-- Along `f` every node of one tree has a node of another that resembles it, with the same nodes
around it. -/
structure Follows (profile : Profile) (text text' : Text) (root root' : Tree)
    (f : Address → Address) : Prop where
  inits : ∀ a, (f a).inits = a.inits.map f
  node : ∀ a, Option.Rel (Resembles profile text text') ((root.at? a).map Tree.info)
    ((root'.at? (f a)).map Tree.info)

variable {root root' : Tree} {f : Address → Address} {a b o : Address}

section

variable (h : Follows profile text text' root root' f)

include h

private theorem Follows.exists_new {n : Tree} (hn : root.at? a = some n) :
    ∃ n', root'.at? (f a) = some n' ∧ Resembles profile text text' n.info n'.info := by
  have hnode := h.node a
  rw [hn, Option.map_some] at hnode
  cases hn' : root'.at? (f a) with
  | none =>
    rw [hn'] at hnode
    cases hnode
  | some n' =>
    rw [hn'] at hnode
    cases hnode with
    | some hlike => exact ⟨n', rfl, hlike⟩

private theorem Follows.exists_old {n' : Tree} (hn' : root'.at? (f a) = some n') :
    ∃ n, root.at? a = some n ∧ Resembles profile text text' n.info n'.info := by
  have hnode := h.node a
  cases hn : root.at? a with
  | none =>
    rw [hn, hn'] at hnode
    cases hnode
  | some n =>
    obtain ⟨m', hm', hlike⟩ := h.exists_new hn
    exact ⟨n, rfl, Option.some.inj (hm'.symm.trans hn') ▸ hlike⟩

private theorem Follows.prefix_iff {b' : Address} : b' <+: f a ↔ ∃ b, b <+: a ∧ f b = b' := by
  rw [← List.mem_inits, h.inits, List.mem_map]
  exact exists_congr fun b => and_congr_left fun _ => List.mem_inits b a

private theorem Follows.pre (hab : b <+: a) : f b <+: f a := h.prefix_iff.mpr ⟨b, hab, rfl⟩

private theorem Follows.concat (a : Address) (i : Nat) : ∃ j, f (a ++ [i]) = f a ++ [j] := by
  obtain ⟨c, hc⟩ := h.pre (List.prefix_append a [i])
  have hlen (b : Address) : (f b).length = b.length := by
    have hlength := congrArg List.length (h.inits b)
    simpa using hlength
  have hone : c.length = 1 := by
    have hlength := congrArg List.length hc
    rw [List.length_append, hlen, hlen, List.length_append] at hlength
    exact Nat.add_left_cancel hlength
  obtain ⟨j, rfl⟩ := List.length_eq_one_iff.mp hone
  exact ⟨j, hc.symm⟩

private theorem Follows.isScopeAt (a : Address) :
    isScopeAt profile root' (f a) = isScopeAt profile root a := by
  cases hn : root.at? a with
  | some n =>
    obtain ⟨n', hn', hlike⟩ := h.exists_new hn
    rw [isScopeAt_eq hn, isScopeAt_eq hn']
    exact congrArg _ hlike.kind.symm
  | none =>
    cases hn' : root'.at? (f a) with
    | some n' =>
      obtain ⟨n, hn'', _⟩ := h.exists_old hn'
      cases hn.symm.trans hn''
    | none => rw [Scope.isScopeAt, Scope.isScopeAt, hn, hn']

private theorem Follows.scopeAbove? (a : Address) :
    scopeAbove? profile root' (f a) = (scopeAbove? profile root a).map f := by
  have htest : Scope.isScopeAt profile root' ∘ f = Scope.isScopeAt profile root :=
    funext h.isScopeAt
  rw [Scope.scopeAbove?, h.inits, ← List.map_dropLast, ← List.map_reverse, List.find?_map, htest]
  rfl

private theorem Follows.home (o : Address) (field : Option String) :
    home profile root' (f o) field = f (home profile root o field) := by
  rw [Scope.home, Scope.home, h.isScopeAt, h.scopeAbove?]
  split
  · rfl
  · cases Scope.scopeAbove? profile root o <;> rfl

private theorem Follows.binds {field : Option String} (hbinds : Binds profile root o field a) :
    Binds profile root' (f o) field (f a) := by
  obtain ⟨⟨t, ht, hsite⟩, hbelow⟩ := hbinds
  obtain ⟨t', ht', hlike⟩ := h.exists_new ht
  refine ⟨⟨t', ht', ?_⟩, ?_⟩
  · have hkind : t'.kind = t.kind := hlike.kind.symm
    rwa [hkind]
  · cases field with
    | none => exact h.pre hbelow
    | some field =>
      obtain ⟨i, hia, c, hc, hfield⟩ := hbelow
      obtain ⟨j, hj⟩ := h.concat o i
      obtain ⟨c', hc', hlikec⟩ := h.exists_new hc
      exact ⟨j, hj ▸ h.pre hia, c', hj ▸ hc', hlikec.field.symm.trans hfield⟩

private theorem Follows.declares {s : Address} {name : Text}
    (hdeclares : Declares profile text root s name) : Declares profile text' root' (f s) name := by
  obtain ⟨o, field, rfl, a, n, hn, hbinds, href, rfl⟩ := hdeclares
  obtain ⟨n', hn', hlike⟩ := h.exists_new hn
  refine ⟨f o, field, h.home o field, f a, n', hn', h.binds hbinds, ?_, (hlike.name href).symm⟩
  have hkind : n'.kind = n.kind := hlike.kind.symm
  rwa [hkind]

private theorem Follows.unbound {n' : Tree} (hn' : Unbound profile text' root' (f a) n') :
    ∃ n, Unbound profile text root a n := by
  obtain ⟨n, hn, hlike⟩ := h.exists_old hn'.here
  have hkind : n.kind = n'.kind := hlike.kind
  have href : profile.isReference n.kind = true := hkind ▸ hn'.reference
  have hname : n.textIn text = n'.textIn text' := hlike.name href
  refine ⟨n, hn, href, ?_, ?_, ?_, ?_, ?_⟩
  · intro b m hb hm
    obtain ⟨m', hm', hlikem⟩ := h.exists_new hm
    have hopen := hn'.visible (f b) m' (h.pre hb) hm'
    have hkindm : m.kind = m'.kind := hlikem.kind
    rwa [hkindm]
  · exact fun o field hbinds => hn'.notBinding (f o) field (h.binds hbinds)
  · rintro b i p field rfl hp hfield
    obtain ⟨j, hj⟩ := h.concat b i
    obtain ⟨p', hp', hlikep⟩ := h.exists_new hp
    have hmember := hn'.notMember (f b) j p' field hj hp' (hlike.field.symm.trans hfield)
    have hkindp : p.kind = p'.kind := hlikep.kind
    rwa [hkindp]
  · exact fun b hb => hname ▸ hn'.notBuiltin b hb
  · intro s hs hscope hdeclares
    refine hn'.undeclared (f s) (h.pre hs) ((h.isScopeAt s).trans hscope) ?_
    exact hname ▸ h.declares hdeclares

end

private theorem follows_insertAt {moved : Tree} (h : Moved profile text text' root moved)
    (b : Address) (k : Nat) (new : Tree) :
    Follows profile text text' root (moved.insertAt b k new) (shift b k) where
  inits := Address.inits_shift b k
  node a := by
    rw [Tree.info_at?_insertAt]
    exact h.at? a

/-- A subtree put in anywhere makes no reference unbound that was not so before. The old nodes may
have moved to other places of another text, as long as references keep their names. They are all
found at their new addresses; in the report of the new tree each entry is for a node of the subtree
or for an old node that has an entry in the old report, so no old node without an entry gets one. -/
theorem resolve_insertAt {profile : Profile} {text text' : Text} {root moved : Tree}
    (hroot : profile.isScope root.kind = true) (h : Moved profile text text' root moved)
    (b : Address) (k : Nat) (new : Tree) :
    let grown := moved.insertAt b k new
    (∀ a, (grown.at? (shift b k a)).map Tree.info = (moved.at? a).map Tree.info) ∧
    ∃ as as', Lists profile text root as (resolve profile text root) ∧
      Lists profile text' grown as' (resolve profile text' grown) ∧
      (∀ a, a ∉ as → shift b k a ∉ as') ∧
      ∀ a' ∈ as', (∃ c n, a' = b ++ k :: c ∧ new.at? c = some n) ∨ ∃ a ∈ as, a' = shift b k a := by
  intro grown
  have hfollows := follows_insertAt h b k new
  have hroot' : profile.isScope grown.kind = true := by
    obtain ⟨n', hn', hlike⟩ := hfollows.exists_new (a := []) rfl
    rw [Address.shift_nil] at hn'
    obtain rfl := Option.some.inj hn'
    have hkind : root.kind = grown.kind := hlike.kind
    rwa [← hkind]
  obtain ⟨as, has⟩ := exists_lists text hroot
  obtain ⟨as', has'⟩ := exists_lists text' hroot'
  have hold (a : Address) (ha : shift b k a ∈ as') : a ∈ as := by
    obtain ⟨n', hn'⟩ := (has'.complete _).mp ha
    exact (has.complete a).mpr (hfollows.unbound hn')
  refine ⟨Tree.info_at?_insertAt moved b k new, as, as', has, has', fun a => mt (hold a),
    fun a' ha' => ?_⟩
  rcases Address.shift_cases b k a' with ⟨c, rfl⟩ | ⟨a, rfl⟩
  · obtain ⟨n, hn⟩ := (has'.complete _).mp ha'
    exact .inl ⟨c, n, rfl, Tree.at?_of_insertAt hn.here⟩
  · exact .inr ⟨a, hold a ha', rfl⟩

/-- Before `x=1`, a line with the unknown name `y` is put in; `x` stays known behind it. -/
theorem resolve_insertAt_front :
    let name (field : Option String) (start : Nat) : Tree :=
      .node { kind := "identifier", field, start, stop := start + 1 } []
    let tree (start : Nat) : Tree := .node { kind := "module", start := 0, stop := start + 5 }
      [.node { kind := "assignment", start, stop := start + 3 } [name (some "left") start],
        name none (start + 4)]
    let text := Text.ofString "x=1\nx"
    let text' := Text.ofString "y\nx=1\nx"
    let grown := (tree 2).insertAt [] 0 (name none 0)
    Moved .python text text' (tree 0) (tree 2) ∧
      resolve .python text (tree 0) = [] ∧ resolve .python text' grown = [⟨"y", 1⟩] ∧
      ∃ as as', Lists .python text (tree 0) as (resolve .python text (tree 0)) ∧
        Lists .python text' grown as' (resolve .python text' grown) ∧
        ∀ a, a ∉ as → shift [] 0 a ∉ as' := by
  intro name tree text text' grown
  have hname (field : Option String) (start : Nat)
      (hreads : text.slice start (start + 1) = text'.slice (start + 2) (start + 3)) :
      Moved .python text text' (name field start) (name field (start + 2)) :=
    .node ⟨rfl, rfl, fun _ => hreads⟩ .nil
  have hmoved : Moved .python text text' (tree 0) (tree 2) :=
    .node ⟨rfl, rfl, by decide⟩ (.cons (.node ⟨rfl, rfl, by decide⟩
      (.cons (hname _ 0 (by decide +kernel)) .nil)) (.cons (hname _ 4 (by decide +kernel)) .nil))
  have hroot : Profile.isScope .python (tree 0).kind = true := rfl
  obtain ⟨_, as, as', has, has', hkept, _⟩ := resolve_insertAt hroot hmoved [] 0 (name none 0)
  exact ⟨hmoved, by decide +kernel, by decide +kernel, as, as', has, has', hkept⟩

end Scope

end RepairSearch.Syntax
