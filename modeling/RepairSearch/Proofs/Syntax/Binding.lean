import RepairSearch.Proofs.Syntax.Address
import RepairSearch.Syntax.Scope

/-!
# Binding positions

A binding position is a node, or a field of a node, whose references declare names. Each position
has one scope that its names go to. The declarations of a tree are those of all its positions.
-/

namespace RepairSearch.Syntax.Scope

section

variable (profile : Profile) (text : Text) (root : Tree)

def isScopeAt (a : Address) : Bool := (root.at? a).any (profile.isScope ·.kind)

/-- The nearest of the scopes above a node. -/
def scopeAbove? (a : Address) : Option Address :=
  a.inits.dropLast.reverse.find? (isScopeAt profile root)

/-- Where the names go that a field of a node declares, or the whole of it: to the node itself, if
it is a scope and the field is not its name, and else to the nearest scope above it. The root, which
has none above it, keeps its names. -/
def home (o : Address) (field : Option String) : Address :=
  if isScopeAt profile root o && field != some "name" then o
  else (scopeAbove? profile root o).getD o

/-- An address lies at or below a binding position of the node at `o`. -/
def Binds (o : Address) (field : Option String) (a : Address) : Prop :=
  (∃ t ∈ root.at? o, ⟨t.kind, field⟩ ∈ profile.bindingSites) ∧
    match field with
    | none => o <+: a
    | some f => ∃ i, o ++ [i] <+: a ∧ ∃ c ∈ root.at? (o ++ [i]), c.info.field = some f

/-- A binding position of the node at `o` makes a declaration in a scope. -/
def Makes (o : Address) (field : Option String) (scope : Path) (d : Declaration) : Prop :=
  ∃ a n, root.at? a = some n ∧ Binds profile root o field a ∧
    profile.isReference n.kind = true ∧ d = ⟨scope, a.reverse, n.textIn text⟩

end

variable {profile : Profile} {text : Text} {root : Tree}

theorem isScopeAt_eq {a : Address} {t : Tree} (h : root.at? a = some t) :
    isScopeAt profile root a = profile.isScope t.kind := by
  rw [isScopeAt, h, Option.any_some]

private theorem inits_concat (a : Address) (i : Nat) :
    (a ++ [i]).inits = a.inits ++ [a ++ [i]] := by
  simp [List.inits_append]

private theorem scopeAbove?_concat (a : Address) (i : Nat) :
    scopeAbove? profile root (a ++ [i]) =
      if isScopeAt profile root a then some a else scopeAbove? profile root a := by
  have hlast : a.inits = a.inits.dropLast ++ [a] := by
    rcases List.eq_nil_or_concat a with rfl | ⟨b, j, rfl⟩
    · rfl
    · rw [List.concat_eq_append, inits_concat, List.dropLast_concat]
  rw [scopeAbove?, inits_concat, List.dropLast_concat, hlast, List.reverse_append]
  cases h : isScopeAt profile root a <;> simp [scopeAbove?, h]

private theorem mem_flatMap_zipIdx {α β : Type} {xs : List α} {f : α × Nat → List β} {y : β} :
    y ∈ (xs.zipIdx 0).flatMap f ↔ ∃ i x, xs[i]? = some x ∧ y ∈ f (x, i) := by
  simp only [List.mem_flatMap, Prod.exists, List.mem_zipIdx_iff_getElem?]
  exact exists_comm

private theorem declaredAmong_eq (scope path : Path) (n : Nat) (ts : List Tree) :
    declaredAmong profile text scope path n ts =
      (ts.zipIdx n).flatMap fun (t, i) => declared profile text scope (i :: path) t := by
  induction ts generalizing n with
  | nil => rfl
  | cons t ts ih => rw [declaredAmong, ih, List.zipIdx_cons, List.flatMap_cons]

private theorem mem_declared {scope path : Path} {t : Tree} {d : Declaration} :
    d ∈ declared profile text scope path t ↔
      ∃ a n, t.at? a = some n ∧ profile.isReference n.kind = true ∧
        d = ⟨scope, a.reverse ++ path, n.textIn text⟩ := by
  induction t using Tree.induction generalizing path with
  | node i cs ih =>
    have hbelow : d ∈ declaredAmong profile text scope path 0 cs ↔
        ∃ i c, cs[i]? = some c ∧ ∃ a n, c.at? a = some n ∧ profile.isReference n.kind = true ∧
          d = ⟨scope, (i :: a).reverse ++ path, n.textIn text⟩ := by
      rw [declaredAmong_eq, mem_flatMap_zipIdx]
      refine exists_congr fun i => exists_congr fun c => and_congr_right fun hc => ?_
      rw [ih c (List.mem_of_getElem? hc)]
      simp only [List.reverse_cons, List.append_assoc, List.singleton_append]
    rw [declared, Tree.exists_at?_iff, Tree.children, ← hbelow]
    split
    · rename_i href
      rw [List.mem_cons]
      exact or_congr_left ⟨fun h => ⟨href, h⟩, And.right⟩
    · rename_i href
      exact ⟨.inr, fun h => h.resolve_left fun h => href h.1⟩

private theorem mem_declared_at {a : Address} {t : Tree} (h : root.at? a = some t) {scope : Path}
    {d : Declaration} :
    d ∈ declared profile text scope a.reverse t ↔
      ∃ b n, root.at? b = some n ∧ a <+: b ∧ profile.isReference n.kind = true ∧
        d = ⟨scope, b.reverse, n.textIn text⟩ := by
  rw [mem_declared]
  simp only [← List.reverse_append]
  exact Tree.exists_at?_below h
    (P := fun b n => profile.isReference n.kind = true ∧ d = ⟨scope, b.reverse, n.textIn text⟩)

private theorem mem_declaredInField {a : Address} {t : Tree} (h : root.at? a = some t)
    {scope : Path} {f : String} {d : Declaration} :
    d ∈ declaredInField profile text scope a.reverse f t.children ↔
      ∃ i c, root.at? (a ++ [i]) = some c ∧ c.info.field = some f ∧
        d ∈ declared profile text scope (a ++ [i]).reverse c := by
  rw [declaredInField, mem_flatMap_zipIdx]
  refine exists_congr fun i => exists_congr fun c => ?_
  rw [Tree.at?_concat h, List.reverse_append]
  refine and_congr_right fun _ => ?_
  dsimp only
  split
  · rename_i hfield
    exact ⟨fun hd => ⟨eq_of_beq hfield, hd⟩, And.right⟩
  · rename_i hfield
    exact ⟨fun hd => absurd hd List.not_mem_nil, fun hd => absurd (beq_iff_eq.mpr hd.1) hfield⟩

private theorem mem_declaredHere {a : Address} {t : Tree} (h : root.at? a = some t) {outer : Path}
    {d : Declaration} :
    d ∈ declaredHere profile text outer a.reverse t ↔
      ∃ field, Makes profile text root a field
        (if isScopeAt profile root a && field != some "name" then a.reverse else outer) d := by
  have hsite (field : Option String) : field ∈ profile.bindingsOf t.kind ↔
      ∃ t ∈ root.at? a, ⟨t.kind, field⟩ ∈ profile.bindingSites := by
    simp only [h, Option.mem_some_iff, exists_eq_left', Profile.bindingsOf, List.mem_map,
      List.mem_filter, beq_iff_eq]
    constructor
    · rintro ⟨site, ⟨hsite, hkind⟩, hfield⟩
      exact hkind ▸ hfield ▸ hsite
    · exact fun hsite => ⟨_, ⟨hsite, rfl⟩, rfl⟩
  rw [declaredHere, List.mem_flatMap, isScopeAt_eq h]
  refine exists_congr fun field => ?_
  rw [hsite]
  dsimp only
  generalize (if profile.isScope t.kind && field != some "name" then a.reverse else outer) = scope
  cases field with
  | none =>
    rw [mem_declared_at h]
    constructor
    · rintro ⟨hat, b, n, hn, hb, href, hd⟩
      exact ⟨b, n, hn, ⟨hat, hb⟩, href, hd⟩
    · rintro ⟨b, n, hn, ⟨hat, hb⟩, href, hd⟩
      exact ⟨hat, b, n, hn, hb, href, hd⟩
  | some f =>
    rw [mem_declaredInField h]
    constructor
    · rintro ⟨hat, i, c, hc, hfield, hd⟩
      obtain ⟨b, n, hn, hb, href, hd⟩ := (mem_declared_at hc).mp hd
      exact ⟨b, n, hn, ⟨hat, i, hb, c, hc, hfield⟩, href, hd⟩
    · rintro ⟨b, n, hn, ⟨hat, i, hb, c, hc, hfield⟩, href, hd⟩
      exact ⟨hat, i, c, hc, hfield, (mem_declared_at hc).mpr ⟨b, n, hn, hb, href, hd⟩⟩

private theorem declarationsAmong_eq (outer : Option Path) (path : Path) (n : Nat)
    (ts : List Tree) :
    declarationsAmong profile text outer path n ts =
      (ts.zipIdx n).flatMap fun (t, i) => declarations profile text outer (i :: path) t := by
  induction ts generalizing n with
  | nil => rfl
  | cons t ts ih => rw [declarationsAmong, ih, List.zipIdx_cons, List.flatMap_cons]

private theorem mem_declarations_at {a : Address} {t : Tree} (h : root.at? a = some t)
    {d : Declaration} :
    d ∈ declarations profile text ((scopeAbove? profile root a).map List.reverse) a.reverse t ↔
      ∃ b n, t.at? b = some n ∧ ∃ field,
        Makes profile text root (a ++ b) field (home profile root (a ++ b) field).reverse d := by
  induction t using Tree.induction generalizing a with
  | node j cs ih =>
    have hhere : d ∈ declaredHere profile text
          (((scopeAbove? profile root a).map List.reverse).getD a.reverse) a.reverse (.node j cs) ↔
        ∃ field, Makes profile text root a field (home profile root a field).reverse d := by
      rw [mem_declaredHere h]
      refine exists_congr fun field => ?_
      rw [home, apply_ite List.reverse]
      cases scopeAbove? profile root a <;> rfl
    have hbelow : d ∈ declarationsAmong profile text
          (if profile.isScope j.kind then some a.reverse
            else (scopeAbove? profile root a).map List.reverse) a.reverse 0 cs ↔
        ∃ i c, cs[i]? = some c ∧ ∃ b n, c.at? b = some n ∧ ∃ field,
          Makes profile text root (a ++ i :: b) field
            (home profile root (a ++ i :: b) field).reverse d := by
      rw [declarationsAmong_eq, mem_flatMap_zipIdx]
      refine exists_congr fun i => exists_congr fun c => and_congr_right fun hc => ?_
      have hat : root.at? (a ++ [i]) = some c := (Tree.at?_concat h).trans hc
      have hscope : isScopeAt profile root a = profile.isScope j.kind := isScopeAt_eq h
      have hchild := ih c (List.mem_of_getElem? hc) hat
      rw [scopeAbove?_concat, hscope, apply_ite (Option.map List.reverse), List.reverse_append,
        Option.map_some] at hchild
      simpa only [List.append_assoc, List.singleton_append, List.reverse_singleton] using hchild
    rw [declarations, List.mem_append, hhere, hbelow, Tree.exists_at?_iff, List.append_nil]
    rfl

theorem mem_declarations {d : Declaration} :
    d ∈ declarations profile text none [] root ↔
      ∃ o field, Makes profile text root o field (home profile root o field).reverse d := by
  refine (mem_declarations_at (a := []) rfl).trans ?_
  constructor
  · rintro ⟨o, _, _, field, hd⟩
    exact ⟨o, field, hd⟩
  · rintro ⟨o, field, hd⟩
    have hbinds : ∃ a, Binds profile root o field a := hd.imp fun a ⟨n, hn⟩ => hn.2.1
    obtain ⟨a, ⟨t, ht, _⟩, _⟩ := hbinds
    exact ⟨o, t, ht, field, hd⟩

end RepairSearch.Syntax.Scope
