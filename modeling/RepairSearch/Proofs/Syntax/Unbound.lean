import RepairSearch.Proofs.Syntax.Binding

/-!
# The references that nothing declares

A reference is unbound if it lies at no binding position, is no member, and neither the language
nor a scope around it provides its name. The report has one entry for each of them, in the order of
the text.
-/

namespace RepairSearch.Syntax.Scope

section

variable (profile : Profile) (text : Text) (root : Tree)

/-- The names that a scope gets are those of all references at or below binding positions whose
names go there. -/
def Declares (s : Address) (name : Text) : Prop :=
  ∃ o field, home profile root o field = s ∧ ∃ a n, root.at? a = some n ∧
    Binds profile root o field a ∧ profile.isReference n.kind = true ∧ n.textIn text = name

/-- A reference without a declaration. A node is around itself. -/
structure Unbound (a : Address) (n : Tree) : Prop where
  here : root.at? a = some n
  reference : profile.isReference n.kind = true
  visible : ∀ b m, b <+: a → root.at? b = some m → profile.isOpaque m.kind = false
  notBinding : ∀ o field, ¬ Binds profile root o field a
  notMember : ∀ b i p f, a = b ++ [i] → root.at? b = some p → n.info.field = some f →
    (p.kind, f) ∉ profile.nonReferenceFields
  notBuiltin : ∀ b ∈ profile.builtins, Text.ofString b ≠ n.textIn text
  undeclared : ∀ s, s <+: a → isScopeAt profile root s = true →
    ¬ Declares profile text root s (n.textIn text)

/-- The entry of a report for the node at an address. -/
def IsEntry (a : Address) (u : Unresolved) : Prop :=
  ∃ n ∈ root.at? a, u = ⟨(n.textIn text).toString, text.lineAt n.start⟩

/-- A report has one entry for each unbound reference, in the order of the addresses. -/
structure Lists (as : List Address) (us : List Unresolved) : Prop where
  sorted : as.Pairwise (· < ·)
  complete : ∀ a, a ∈ as ↔ ∃ n, Unbound profile text root a n
  entries : as.Forall₂ (IsEntry text root) us

/-- What the search knows when it comes to a node: all nodes above are looked into, `scopes` has the
root and the scopes above, and the parent, if there is one, is of the given kind. -/
structure Visit (a : Address) (scopes : List Path) (parentKind : Option String) : Prop where
  visible : ∀ b m, b <+: a → b ≠ a → root.at? b = some m → profile.isOpaque m.kind = false
  scopes : ∀ s : Address, s.reverse ∈ scopes ↔
    s = [] ∨ s <+: a ∧ s ≠ a ∧ isScopeAt profile root s = true
  parent : ∀ k, parentKind = some k ↔ ∃ b i p, a = b ++ [i] ∧ root.at? b = some p ∧ p.kind = k

/-- The scopes that a node adds itself to, if it is one. -/
def scopesFrom (scopes : List Path) (path : Path) (t : Tree) : List Path :=
  if profile.isScope t.kind then path :: scopes else scopes

/-- What is tested of a node that is not opaque, before it is reported. -/
def fails (scopes : List Path) (parentKind : Option String) (path : Path) (t : Tree) : Bool :=
  let decls := declarations profile text none [] root
  profile.isReference t.kind && !decls.any (·.site == path)
    && !isMemberField profile parentKind t.info.field
    && !isKnown profile decls (scopesFrom profile scopes path t) (t.textIn text)

end

variable {profile : Profile} {text : Text} {root : Tree}

private theorem visit_root : Visit profile root [] [[]] none where
  visible b m hb hne := absurd (List.prefix_nil.mp hb) hne
  scopes s := by
    rw [List.mem_singleton, List.reverse_eq_nil_iff]
    exact ⟨.inl, fun h => h.elim id fun hs => List.prefix_nil.mp hs.1⟩
  parent k := by simp

section

variable {a : Address} {t : Tree} {scopes : List Path} {parentKind : Option String}

private theorem Visit.scopes_within (h : Visit profile root a scopes parentKind)
    (hroot : profile.isScope root.kind = true) (ht : root.at? a = some t) (s : Address) :
    s.reverse ∈ scopesFrom profile scopes a.reverse t ↔
      s <+: a ∧ isScopeAt profile root s = true := by
  have hself : isScopeAt profile root a = profile.isScope t.kind := isScopeAt_eq ht
  have hnil : isScopeAt profile root [] = true := (isScopeAt_eq rfl).trans hroot
  have habove := h.scopes s
  rw [scopesFrom]
  split
  · rename_i hscope
    rw [List.mem_cons, List.reverse_inj, habove]
    constructor
    · rintro (rfl | rfl | ⟨hs, _, hmem⟩)
      · exact ⟨List.prefix_refl _, hself.trans hscope⟩
      · exact ⟨List.nil_prefix, hnil⟩
      · exact ⟨hs, hmem⟩
    · rintro ⟨hs, hmem⟩
      by_cases hne : s = a
      · exact .inl hne
      · exact .inr (.inr ⟨hs, hne, hmem⟩)
  · rename_i hscope
    rw [habove]
    constructor
    · rintro (rfl | ⟨hs, _, hmem⟩)
      · exact ⟨List.nil_prefix, hnil⟩
      · exact ⟨hs, hmem⟩
    · rintro ⟨hs, hmem⟩
      refine .inr ⟨hs, ?_, hmem⟩
      rintro rfl
      exact hscope (hself.symm.trans hmem)

private theorem Visit.visible_within (h : Visit profile root a scopes parentKind)
    (ht : root.at? a = some t) (hopen : profile.isOpaque t.kind = false) {b : Address} {m : Tree}
    (hb : b <+: a) (hm : root.at? b = some m) : profile.isOpaque m.kind = false := by
  by_cases hba : b = a
  · subst hba
    obtain rfl := Option.some.inj (ht.symm.trans hm)
    exact hopen
  · exact h.visible b m hb hba hm

private theorem Visit.child (h : Visit profile root a scopes parentKind)
    (hroot : profile.isScope root.kind = true) (ht : root.at? a = some t)
    (hopen : profile.isOpaque t.kind = false) (i : Nat) :
    Visit profile root (a ++ [i]) (scopesFrom profile scopes a.reverse t) (some t.kind) where
  visible b m hb hne hm :=
    h.visible_within ht hopen ((List.prefix_concat_iff.mp hb).resolve_left hne) hm
  scopes s := by
    have hnil : isScopeAt profile root [] = true := (isScopeAt_eq rfl).trans hroot
    rw [h.scopes_within hroot ht]
    constructor
    · rintro ⟨hs, hmem⟩
      refine .inr ⟨hs.trans (List.prefix_append a [i]), ?_, hmem⟩
      rintro rfl
      have hlen := hs.length_le
      rw [List.length_append, List.length_singleton] at hlen
      omega
    · rintro (rfl | ⟨hs, hne, hmem⟩)
      · exact ⟨List.nil_prefix, hnil⟩
      · exact ⟨(List.prefix_concat_iff.mp hs).resolve_left hne, hmem⟩
  parent k := by
    constructor
    · rintro ⟨⟩
      exact ⟨a, i, t, rfl, ht, rfl⟩
    · rintro ⟨b, j, p, hab, hp, rfl⟩
      obtain ⟨rfl, _⟩ := List.append_inj' hab rfl
      rw [ht] at hp
      exact congrArg (fun n => n.map Tree.kind) hp

private theorem any_site (ht : root.at? a = some t) (href : profile.isReference t.kind = true) :
    (declarations profile text none [] root).any (·.site == a.reverse) = true ↔
      ∃ o field, Binds profile root o field a := by
  simp only [List.any_eq_true, mem_declarations, beq_iff_eq]
  constructor
  · rintro ⟨_, ⟨o, field, b, n, _, hbinds, _, rfl⟩, hsite⟩
    exact ⟨o, field, List.reverse_inj.mp hsite ▸ hbinds⟩
  · rintro ⟨o, field, hbinds⟩
    exact ⟨_, ⟨o, field, a, t, ht, hbinds, href, rfl⟩, rfl⟩

private theorem Visit.isMemberField (h : Visit profile root a scopes parentKind)
    {field : Option String} :
    Scope.isMemberField profile parentKind field = true ↔
      ∃ b i p f, a = b ++ [i] ∧ root.at? b = some p ∧ field = some f ∧
        (p.kind, f) ∈ profile.nonReferenceFields := by
  simp only [Scope.isMemberField, List.any_eq_true, Prod.exists, Bool.and_eq_true, beq_iff_eq,
    h.parent]
  constructor
  · rintro ⟨kind, f, hmem, ⟨b, i, p, hab, hp, rfl⟩, hfield⟩
    exact ⟨b, i, p, f, hab, hp, hfield, hmem⟩
  · rintro ⟨b, i, p, f, hab, hp, hfield, hmem⟩
    exact ⟨p.kind, f, hmem, ⟨b, i, p, hab, hp, rfl⟩, hfield⟩

private theorem isKnown_iff (text name : Text)
    (hscopes : ∀ s : Address, s.reverse ∈ scopes ↔ s <+: a ∧ isScopeAt profile root s = true) :
    isKnown profile (declarations profile text none [] root) scopes name = true ↔
      (∃ b ∈ profile.builtins, Text.ofString b = name) ∨
        ∃ s, s <+: a ∧ isScopeAt profile root s = true ∧ Declares profile text root s name := by
  simp only [isKnown, Bool.or_eq_true, List.any_eq_true, beq_iff_eq, Bool.and_eq_true,
    List.contains_iff_mem, mem_declarations]
  refine or_congr_right ?_
  constructor
  · rintro ⟨_, ⟨o, field, b, n, hn, hbinds, href, rfl⟩, hname, hmem⟩
    obtain ⟨hs, hscope⟩ := (hscopes _).mp hmem
    exact ⟨_, hs, hscope, o, field, rfl, b, n, hn, hbinds, href, hname⟩
  · rintro ⟨_, hs, hscope, o, field, rfl, b, n, hn, hbinds, href, hname⟩
    exact ⟨_, ⟨o, field, b, n, hn, hbinds, href, rfl⟩, hname, (hscopes _).mpr ⟨hs, hscope⟩⟩

private theorem Visit.fails_iff (text : Text) (h : Visit profile root a scopes parentKind)
    (hroot : profile.isScope root.kind = true) (ht : root.at? a = some t)
    (hopen : profile.isOpaque t.kind = false) :
    fails profile text root scopes parentKind a.reverse t = true ↔
      ∃ n, Unbound profile text root a n := by
  have hknown := isKnown_iff text (t.textIn text) (h.scopes_within hroot ht)
  simp only [fails, Bool.and_eq_true, Bool.not_eq_true', ← Bool.not_eq_true, h.isMemberField,
    hknown]
  constructor
  · rintro ⟨⟨⟨href, hsite⟩, hmember⟩, hfree⟩
    rw [any_site ht href] at hsite
    refine ⟨t, ht, href, ?_, ?_, ?_, ?_, ?_⟩
    · exact fun b m hb hm => h.visible_within ht hopen hb hm
    · exact fun o field hbinds => hsite ⟨o, field, hbinds⟩
    · exact fun b i p f hab hp hfield hmem => hmember ⟨b, i, p, f, hab, hp, hfield, hmem⟩
    · exact fun b hb hname => hfree (.inl ⟨b, hb, hname⟩)
    · exact fun s hs hscope hdecl => hfree (.inr ⟨s, hs, hscope, hdecl⟩)
  · rintro ⟨n, hn⟩
    obtain rfl := Option.some.inj (ht.symm.trans hn.here)
    rw [any_site ht hn.reference]
    refine ⟨⟨⟨hn.reference, ?_⟩, ?_⟩, ?_⟩
    · exact fun ⟨o, field, hbinds⟩ => hn.notBinding o field hbinds
    · exact fun ⟨b, i, p, f, hab, hp, hfield, hmem⟩ => hn.notMember b i p f hab hp hfield hmem
    · rintro (⟨b, hb, hname⟩ | ⟨s, hs, hscope, hdecl⟩)
      · exact hn.notBuiltin b hb hname
      · exact hn.undeclared s hs hscope hdecl

open Classical in
variable (profile text root) in
/-- The unbound references among some addresses. -/
noncomputable def unboundAmong (as : List Address) : List Address :=
  as.filter fun a => ∃ n, Unbound profile text root a n

open Classical in
private theorem mem_unboundAmong {as : List Address} :
    a ∈ unboundAmong profile text root as ↔ a ∈ as ∧ ∃ n, Unbound profile text root a n := by
  rw [unboundAmong, List.mem_filter, decide_eq_true_iff]

open Classical in
private theorem unboundAmong_cons_of_unbound {as : List Address}
    (h : ∃ n, Unbound profile text root a n) :
    unboundAmong profile text root (a :: as) = a :: unboundAmong profile text root as :=
  List.filter_cons_of_pos (decide_eq_true h)

open Classical in
private theorem unboundAmong_cons_of_not {as : List Address}
    (h : ¬ ∃ n, Unbound profile text root a n) :
    unboundAmong profile text root (a :: as) = unboundAmong profile text root as :=
  List.filter_cons_of_neg (by rwa [decide_eq_true_iff])

private theorem entries_among (text : Text) (decls : List Declaration) {n : Nat} {ts : List Tree}
    (hts : ∀ i c, ts[i]? = some c →
      (unboundAmong profile text root (c.addresses.map ((a ++ [n + i]) ++ ·))).Forall₂
        (IsEntry text root)
        (unresolved profile text decls scopes parentKind (a ++ [n + i]).reverse c)) :
    (unboundAmong profile text root ((Tree.addressesAmong n ts).map (a ++ ·))).Forall₂
      (IsEntry text root)
      (unresolvedAmong profile text decls scopes parentKind a.reverse n ts) := by
  induction ts generalizing n with
  | nil => exact .nil
  | cons t ts ih =>
    have hfirst := hts 0 t rfl
    have hrest := ih (n := n + 1) fun i c hc => by
      rw [Nat.add_assoc, Nat.add_comm 1 i]
      exact hts (i + 1) c hc
    have hmap : ((t.addresses.map (n :: ·)).map (a ++ ·)) = t.addresses.map ((a ++ [n]) ++ ·) := by
      simp only [List.map_map, Function.comp_def, List.append_assoc, List.singleton_append]
    rw [Tree.addressesAmong, unresolvedAmong, List.map_append, unboundAmong, List.filter_append,
      hmap]
    rw [Nat.add_zero, List.reverse_append] at hfirst
    exact List.rel_append hfirst hrest

private theorem unresolved_eq (hopen : ¬ profile.isOpaque t.kind = true) (path : Path) :
    let rest := unresolvedAmong profile text (declarations profile text none [] root)
      (scopesFrom profile scopes path t) (some t.kind) path 0 t.children
    unresolved profile text (declarations profile text none [] root) scopes parentKind path t =
      if fails profile text root scopes parentKind path t then
        ⟨(t.textIn text).toString, text.lineAt t.start⟩ :: rest
      else rest := by
  cases t with
  | node j cs =>
    rw [unresolved]
    exact if_neg hopen

private theorem Visit.entries (text : Text) (h : Visit profile root a scopes parentKind)
    (hroot : profile.isScope root.kind = true) (ht : root.at? a = some t) :
    (unboundAmong profile text root (t.addresses.map (a ++ ·))).Forall₂ (IsEntry text root)
      (unresolved profile text (declarations profile text none [] root) scopes parentKind
        a.reverse t) := by
  induction t using Tree.induction generalizing a scopes parentKind with
  | node j cs ih =>
    by_cases hopaque : profile.isOpaque j.kind = true
    · have hnone : unboundAmong profile text root
          ((Tree.node j cs).addresses.map (a ++ ·)) = [] := by
        refine List.eq_nil_iff_forall_not_mem.mpr fun b hb => ?_
        obtain ⟨hb, n, hn⟩ := mem_unboundAmong.mp hb
        obtain ⟨c, _, rfl⟩ := List.mem_map.mp hb
        exact absurd hopaque (Bool.eq_false_iff.mp (hn.visible a _ (List.prefix_append a c) ht))
      rw [hnone, unresolved, if_pos hopaque]
      exact .nil
    · have hopen : profile.isOpaque j.kind = false := Bool.eq_false_iff.mpr hopaque
      have hfails := h.fails_iff text hroot ht hopen
      have hrest := entries_among text (declarations profile text none [] root) (n := 0)
        fun i (c : Tree) (hc : cs[i]? = some c) => by
          have hat : root.at? (a ++ [0 + i]) = some c := by
            rw [Nat.zero_add, Tree.at?_concat ht, Tree.children, hc]
          exact ih c (List.mem_of_getElem? hc) (h.child hroot ht hopen (0 + i)) hat
      rw [unresolved_eq hopaque, Tree.addresses, List.map_cons, List.append_nil]
      split
      · rename_i htrue
        rw [unboundAmong_cons_of_unbound (hfails.mp htrue)]
        exact .cons ⟨_, ht, rfl⟩ hrest
      · rename_i hfalse
        rw [unboundAmong_cons_of_not fun hhere => hfalse (hfails.mpr hhere)]
        exact hrest

end

theorem exists_lists (text : Text) (hroot : profile.isScope root.kind = true) :
    ∃ as, Lists profile text root as (resolve profile text root) := by
  refine ⟨unboundAmong profile text root root.addresses, ?_, ?_, ?_⟩
  · exact root.pairwise_addresses.filter _
  · intro a
    rw [mem_unboundAmong, Tree.mem_addresses]
    exact ⟨And.right, fun ⟨n, hn⟩ => ⟨⟨n, hn.here⟩, n, hn⟩⟩
  · have hentries := visit_root.entries text hroot rfl
    simp only [List.nil_append, List.map_id'] at hentries
    exact hentries

/-- The report of a tree has one entry for each reference that nothing declares, with its name and
line, in the order of the addresses. If the nodes lie in order and apart, their starts never fall in
it. -/
theorem resolve_unbound (profile : Profile) (text : Text) {root : Tree}
    (hroot : profile.isScope root.kind = true) :
    ∃ as, Lists profile text root as (resolve profile text root) ∧
      (root.Nested → as.Pairwise fun a b => ∀ m n,
        root.at? a = some m → root.at? b = some n → m.start ≤ n.start) := by
  obtain ⟨as, has⟩ := exists_lists text hroot
  exact ⟨as, has, fun hnested => has.sorted.imp fun hlt m n hm hn =>
    Tree.start_le_of_lt hnested hm hn hlt⟩

/-- The function sees its parameter and, before it is assigned, its local name, but not `c`. -/
theorem resolve_unbound_local :
    let leaf (field : Option String) (start : Nat) : Tree :=
      .node { kind := "identifier", field, start, stop := start + 1 } []
    let parameters : Tree := .node
      { kind := "parameters", field := some "parameters", start := 5, stop := 8 } [leaf none 6]
    let assignment : Tree := .node { kind := "assignment", start := 15, stop := 18 }
      [leaf (some "left") 15, leaf (some "right") 17]
    let body : Tree := .node { kind := "block", field := some "body", start := 11, stop := 18 }
      [leaf none 11, leaf none 13, assignment]
    let root : Tree := .node { kind := "module", start := 0, stop := 18 }
      [.node { kind := "function_definition", start := 0, stop := 18 }
        [leaf (some "name") 4, parameters, body]]
    let text := Text.ofString "def f(a):\n b;c;b=a"
    resolve .python text root = [⟨"c", 2⟩] ∧
      ∃ as, Lists .python text root as (resolve .python text root) ∧
        as.Pairwise fun a b => ∀ m n,
          root.at? a = some m → root.at? b = some n → m.start ≤ n.start := by
  intro leaf parameters assignment body root text
  have hroot : Profile.isScope .python root.kind = true := rfl
  have hnested : root.Nested := by decide
  obtain ⟨as, has, hstarts⟩ := resolve_unbound .python text hroot
  exact ⟨by decide +kernel, as, has, hstarts hnested⟩

end RepairSearch.Syntax.Scope
