import Mathlib.Data.List.Chain
import RepairSearch.Language.Tables
import RepairSearch.Proofs.Syntax.Nesting
import RepairSearch.Syntax.Locate

/-!
# The statement at a range

The way down to the smallest node around a range is the way up from there. The nodes with exactly
that range follow one another on it, so climbing while the range stays the same meets all of them.
-/

namespace RepairSearch.Syntax.Tree

variable {profile : Profile} {start stop : Nat}

private theorem pathTo_eq (t : Tree) :
    t.pathTo start stop = t :: pathAmong start stop t.children := by
  cases t with
  | node i cs => rw [pathTo, children]

private theorem pathAmong_cases (ts : List Tree) :
    pathAmong start stop ts = [] ∨
      ∃ c ∈ ts, c.Around start stop ∧ pathAmong start stop ts = c.pathTo start stop := by
  induction ts with
  | nil => exact .inl rfl
  | cons t ts ih =>
    rw [pathAmong]
    split
    · rename_i hreach
      simp only [reaches, Bool.and_eq_true, decide_eq_true_eq] at hreach
      split
      · exact .inl rfl
      · rename_i hstart
        exact .inr ⟨t, List.mem_cons_self, ⟨Nat.le_of_not_lt hstart, hreach.1⟩, rfl⟩
    · rcases ih with ih | ⟨c, hc, haround, hpath⟩
      · exact .inl ih
      · exact .inr ⟨c, List.mem_cons_of_mem _ hc, haround, hpath⟩

private theorem mem_preorder_of_mem_pathTo {n t : Tree} (h : n ∈ t.pathTo start stop) :
    n ∈ t.preorder := by
  induction t using induction with
  | node i cs ih =>
    rw [pathTo_eq] at h
    rcases List.mem_cons.mp h with rfl | h
    · exact self_mem_preorder _
    · rcases pathAmong_cases cs with hnil | ⟨c, hc, _, hpath⟩
      · rw [children, hnil] at h
        exact absurd h List.not_mem_nil
      · rw [children, hpath] at h
        exact preorder_subset_of_child hc (ih c hc h)

private theorem pairwise_pathTo {t : Tree} (ht : t.Enclosing) (start stop : Nat) :
    (t.pathTo start stop).Pairwise fun m n => m.Around n.start n.stop ∧ n.Around start stop := by
  induction t using induction with
  | node i cs ih =>
    rw [pathTo_eq, children]
    rcases pathAmong_cases cs with hnil | ⟨c, hc, haround, hpath⟩
    · rw [hnil]
      exact List.pairwise_singleton _ _
    · have hway := ih c hc (ht.child hc)
      rw [hpath, List.pairwise_cons]
      refine ⟨fun n hn => ⟨?_, ?_⟩, hway⟩
      · exact ht.around (preorder_subset_of_child hc (mem_preorder_of_mem_pathTo hn))
      · rw [pathTo_eq] at hn hway
        rcases List.mem_cons.mp hn with rfl | hn
        · exact haround
        · exact ((List.pairwise_cons.mp hway).1 n hn).2

private theorem around_of_mem_tail_pathTo {n t : Tree} (ht : t.Enclosing)
    (hn : n ∈ (t.pathTo start stop).tail) : n.Around start stop := by
  have hway := pairwise_pathTo ht start stop
  rw [pathTo_eq] at hn hway
  exact ((List.pairwise_cons.mp hway).1 n hn).2

private theorem around_of_mem_pathTo {n t : Tree} (ht : t.Enclosing) (haround : t.Around start stop)
    (hn : n ∈ t.pathTo start stop) : n.Around start stop := by
  rcases List.mem_cons.mp (pathTo_eq t ▸ hn) with rfl | hmem
  · exact haround
  · exact around_of_mem_tail_pathTo ht (by rwa [pathTo_eq])

private theorem isChain_pathTo (t : Tree) :
    (t.pathTo start stop).IsChain fun n c => c ∈ n.children := by
  induction t using induction with
  | node i cs ih =>
    rw [pathTo_eq, children]
    rcases pathAmong_cases cs with hnil | ⟨c, hc, _, hpath⟩
    · rw [hnil]
      exact List.isChain_singleton _
    · rw [hpath, List.isChain_cons]
      refine ⟨fun d hd => ?_, ih c hc⟩
      rw [pathTo_eq, List.head?_cons, Option.mem_some] at hd
      exact hd ▸ hc

private theorem pathAmong_of_mem {c : Tree} {ts : List Tree} (hc : c ∈ ts)
    (happart : ts.Pairwise fun d e => d.stop ≤ e.start) (hreach : c.reaches start stop = true)
    (hstart : c.start ≤ start)
    (hskip : ∀ d : Tree, d.stop ≤ c.start → d.reaches start stop = false) :
    pathAmong start stop ts = c.pathTo start stop := by
  induction ts with
  | nil => exact absurd hc List.not_mem_nil
  | cons t ts ih =>
    rw [List.pairwise_cons] at happart
    rw [pathAmong]
    rcases List.mem_cons.mp hc with rfl | hc
    · rw [if_pos hreach, if_neg (Nat.not_lt.mpr hstart)]
    · rw [hskip t (happart.1 c hc), if_neg (by decide)]
      exact ih hc happart.2

/-- A node around a range is on the way to it, unless both are empty or they only touch. -/
theorem mem_pathTo {n t : Tree} (ht : t.Nested) (hn : n ∈ t.preorder)
    (haround : n.Around start stop)
    (hinner : start < stop ∨ n.start < start ∧ start < n.stop) : n ∈ t.pathTo start stop := by
  induction t using induction with
  | node i cs ih =>
    rw [pathTo_eq]
    rcases mem_preorder.mp hn with rfl | ⟨c, hc, hn⟩
    · exact List.mem_cons_self
    · obtain ⟨hstart, hstop⟩ := haround
      obtain ⟨hcstart, hcstop⟩ := (ht.child hc).enclosing.around hn
      have hreach : c.reaches start stop = true := by
        simp only [reaches, Bool.and_eq_true, decide_eq_true_eq]
        refine ⟨by omega, ?_⟩
        rw [if_neg (by omega)]
        exact decide_eq_true (by omega)
      have hskip (d : Tree) (hd : d.stop ≤ c.start) : d.reaches start stop = false := by
        rw [reaches, Bool.and_eq_false_iff, decide_eq_false_iff_not]
        rcases hinner with hlt | ⟨hlt, _⟩
        · exact .inl (by omega)
        · refine .inr ?_
          split <;> exact decide_eq_false (by omega)
      rw [pathAmong_of_mem hc (ht.apart _ (self_mem_preorder _)) hreach (by omega) hskip]
      exact List.mem_cons_of_mem _ (ih c hc (ht.child hc) hn)

/-- A statement with exactly a range. -/
def StandsAt (profile : Profile) (t : Tree) (start stop : Nat) : Prop :=
  profile.isStatement t.kind = true ∧ t.start = start ∧ t.stop = stop

instance (t : Tree) : Decidable (t.StandsAt profile start stop) :=
  inferInstanceAs (Decidable (_ ∧ _ ∧ _))

private theorem climb_eq_some_iff {ts : List Tree} {found : Option Place} {p : Place}
    (hts : ts.Pairwise fun m n =>
      n.start = start ∧ n.stop = stop → m.start = start ∧ m.stop = stop) :
    climb profile start stop ts found = some p ↔
      (∃ inner, ts = inner ++ p.node :: p.ancestors ∧ p.node.StandsAt profile start stop ∧
        ∀ n ∈ p.ancestors, ¬ n.StandsAt profile start stop) ∨
      (found = some p ∧ ∀ n ∈ ts, ¬ n.StandsAt profile start stop) := by
  obtain ⟨node, ancestors⟩ := p
  induction ts generalizing found with
  | nil => simp [climb]
  | cons t ts ih =>
    rw [List.pairwise_cons] at hts
    -- the split of `t :: ts` is before `t` or behind it
    simp only [List.cons_eq_append_iff, List.cons.injEq, List.forall_mem_cons]
    rw [climb]
    by_cases hrange : t.start = start ∧ t.stop = stop
    · rw [if_pos hrange, ih hts.2]
      by_cases hkind : profile.isStatement t.kind = true
      · have hit : t.StandsAt profile start stop := ⟨hkind, hrange⟩
        rw [if_pos hkind]
        grind
      · have hmiss : ¬ t.StandsAt profile start stop := fun h => hkind h.1
        rw [if_neg hkind]
        grind
    · have hmiss (n : Tree) (hn : n ∈ t :: ts) : ¬ n.StandsAt profile start stop := by
        rcases List.mem_cons.mp hn with rfl | hn
        · exact fun h => hrange h.2
        · exact fun h => hrange (hts.1 n hn h.2)
      rw [if_neg hrange]
      grind

private theorem statementAt?_eq_some_iff {t : Tree} (ht : t.Enclosing) (hle : start ≤ stop)
    {p : Place} :
    t.statementAt? profile start stop = some p ↔
      ∃ inner, t.pathTo start stop = p.ancestors.reverse ++ p.node :: inner ∧
        (p.node.StandsAt profile start stop ∧
            (∀ n ∈ p.ancestors, ¬ n.StandsAt profile start stop) ∨
          inner = [] ∧ profile.isStatement p.node.kind = true ∧
            ∀ n ∈ t.pathTo start stop, ¬ n.StandsAt profile start stop) := by
  obtain ⟨node, ancestors⟩ := p
  obtain ⟨above, last, hway⟩ : ∃ above last, t.pathTo start stop = above ++ [last] :=
    ⟨_, _, (List.dropLast_append_getLast (by rw [pathTo_eq]; exact List.cons_ne_nil _ _)).symm⟩
  have hnarrow := pairwise_pathTo ht start stop
  have hranges : above.reverse.Pairwise fun m n =>
      n.start = start ∧ n.stop = stop → m.start = start ∧ m.stop = stop := by
    rw [hway, List.pairwise_append] at hnarrow
    refine List.pairwise_reverse.mpr (hnarrow.1.imp ?_)
    rintro m n ⟨hmn, hn⟩ ⟨rfl, rfl⟩
    exact ⟨Nat.le_antisymm hn.1 hmn.1, Nat.le_antisymm hmn.2 hn.2⟩
  rw [statementAt?, if_neg (Nat.not_lt.mpr hle), hway, List.reverse_append]
  change climb profile start stop above.reverse _ = some _ ↔ _
  rw [climb_eq_some_iff hranges]
  constructor
  · rintro (⟨inner, habove, hit, hmiss⟩ | ⟨hlast, hmiss⟩)
    · have habove : above = ancestors.reverse ++ node :: inner.reverse := by
        simpa using congrArg List.reverse habove
      exact ⟨inner.reverse ++ [last], by simp [habove], .inl ⟨hit, hmiss⟩⟩
    · split at hlast
      · rename_i hkind
        obtain ⟨rfl, rfl⟩ := Place.mk.inj (Option.some.inj hlast)
        refine ⟨[], by simp, ?_⟩
        by_cases hit : last.StandsAt profile start stop
        · exact .inl ⟨hit, hmiss⟩
        · refine .inr ⟨rfl, hkind, fun n hn => ?_⟩
          rcases List.mem_append.mp hn with hn | hn
          · exact hmiss n (List.mem_reverse.mpr hn)
          · exact List.mem_singleton.mp hn ▸ hit
      · cases hlast
  · rintro ⟨inner, hsplit, hcases⟩
    rcases List.eq_nil_or_concat inner with rfl | ⟨inner, x, rfl⟩
    · obtain ⟨rfl, hlast⟩ := List.append_inj' hsplit rfl
      obtain rfl : last = node := List.singleton_inj.mp hlast
      have hkind : profile.isStatement last.kind = true :=
        hcases.elim (fun h => h.1.1) fun h => h.2.1
      refine .inr ⟨by simp [hkind], fun n hn => ?_⟩
      rcases hcases with ⟨_, hmiss⟩ | ⟨_, _, hmiss⟩
      · exact hmiss n (by simpa using hn)
      · exact hmiss n (List.mem_append_left _ (List.mem_reverse.mp hn))
    · rw [List.concat_eq_append, ← List.cons_append, ← List.append_assoc] at hsplit
      obtain ⟨rfl, _⟩ := List.append_inj' hsplit rfl
      rcases hcases with ⟨hit, hmiss⟩ | ⟨hinner, _⟩
      · exact .inl ⟨inner.reverse, by simp, hit, hmiss⟩
      · exact absurd hinner (by simp)

private theorem exists_standsAt_iff {t : Tree} (ht : t.Enclosing) (hle : start ≤ stop) :
    (∃ n ∈ t.pathTo start stop, n.StandsAt profile start stop) ↔
      ∃ p, t.statementAt? profile start stop = some p ∧
        p.node.start = start ∧ p.node.stop = stop := by
  constructor
  · rintro ⟨n, hn, hit⟩
    obtain ⟨q, hq⟩ : ∃ q, (t.pathTo start stop).find? (·.StandsAt profile start stop) = some q := by
      rw [← Option.isSome_iff_exists, List.find?_isSome]
      exact ⟨n, hn, decide_eq_true hit⟩
    obtain ⟨hit, above, inner, hway, hmiss⟩ := List.find?_eq_some_iff_append.mp hq
    have hit := of_decide_eq_true hit
    refine ⟨⟨q, above.reverse⟩,
      (statementAt?_eq_some_iff ht hle).mpr ⟨inner, by simpa using hway, .inl ⟨hit, ?_⟩⟩, hit.2⟩
    intro m hm
    simpa using hmiss m (List.mem_reverse.mp hm)
  · rintro ⟨p, hp, hrange⟩
    obtain ⟨inner, hway, hcases⟩ := (statementAt?_eq_some_iff ht hle).mp hp
    have hkind : profile.isStatement p.node.kind = true :=
      hcases.elim (fun h => h.1.1) fun h => h.2.1
    exact ⟨p.node, by simp [hway], hkind, hrange⟩

/-- The statement at a range is the outermost one with exactly that range, wherever there is one on
the way down to the smallest node around the range; and if the range is not empty, all nodes around
it are on that way. Only where no statement has exactly the range, it is the smallest node around
the range, which is then a wider one, provided that this node is a statement. -/
theorem statementAt?_outermost (profile : Profile) {t : Tree} (ht : t.Enclosing)
    (hle : start ≤ stop) :
    let way := t.pathTo start stop
    (∀ p, t.statementAt? profile start stop = some p ↔
      ∃ inner, way = p.ancestors.reverse ++ p.node :: inner ∧
        (p.node.StandsAt profile start stop ∧
            (∀ n ∈ p.ancestors, ¬ n.StandsAt profile start stop) ∨
          inner = [] ∧ profile.isStatement p.node.kind = true ∧
            ∀ n ∈ way, ¬ n.StandsAt profile start stop)) ∧
    ((∃ n ∈ way, n.StandsAt profile start stop) ↔
      ∃ p, t.statementAt? profile start stop = some p ∧
        p.node.start = start ∧ p.node.stop = stop) ∧
    way.head? = some t ∧ way.IsChain (fun n c => c ∈ n.children) ∧
    (∀ n ∈ way.tail, n.Around start stop) ∧
    (t.Nested → start < stop → t.Around start stop →
      ∀ n, n ∈ way ↔ n ∈ t.preorder ∧ n.Around start stop) := by
  refine ⟨fun p => statementAt?_eq_some_iff ht hle, exists_standsAt_iff ht hle, ?_,
    isChain_pathTo t, ?_, ?_⟩
  · simp only [pathTo_eq, List.head?_cons]
  · exact fun n hn => around_of_mem_tail_pathTo ht hn
  · intro hnested hlt haround n
    constructor
    · exact fun hn => ⟨mem_preorder_of_mem_pathTo hn, around_of_mem_pathTo ht haround hn⟩
    · exact fun ⟨hn, haround⟩ => mem_pathTo hnested hn haround (.inl hlt)

/-- In `return x` the bytes of `return ` are no statement, but they are answered with the whole. -/
theorem statementAt?_outermost_wider :
    let whole : Tree := .node { kind := "return_statement", start := 0, stop := 8 }
      [.node { kind := "return", named := false, start := 0, stop := 6 } [],
        .node { kind := "identifier", start := 7, stop := 8 } []]
    let root : Tree := .node { kind := "module", start := 0, stop := 9 } [whole]
    root.statementAt? .python 0 7 = some ⟨whole, [root]⟩ ∧
      ¬ ∃ p, root.statementAt? .python 0 7 = some p ∧ p.node.start = 0 ∧ p.node.stop = 7 := by
  intro whole root
  have hnested : root.Nested := by decide
  have h := statementAt?_outermost .python hnested.enclosing (show 0 ≤ 7 by decide)
  have hnone : ∀ n ∈ root.pathTo 0 7, ¬ n.StandsAt .python 0 7 := by decide
  refine ⟨(h.1 ⟨whole, [root]⟩).mpr ⟨[], rfl, .inr ⟨rfl, by decide, hnone⟩⟩, ?_⟩
  rw [← h.2.1]
  rintro ⟨n, hn, hit⟩
  exact hnone n hn hit

end RepairSearch.Syntax.Tree
