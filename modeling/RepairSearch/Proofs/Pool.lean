import RepairSearch.Pool
import RepairSearch.Proofs.Mutation.Created

/-!
# Drawing from pools

A pool with a positive total has an entry with a positive weight, because sums of weights that are
not positive are not positive either. A draw from such a pool always finds a statement, wherever
the random number falls, and only ever one that the pool was given.
-/

namespace RepairSearch

namespace Weight

open Float.Model UnpackedFloat

/-- The weight is a zero of either sign. -/
def IsZero (w : Float) : Prop := ∃ s, w.toModel.unpack = .zero s

private theorem lt_iff (v w : Float) :
    v < w ↔ UnpackedFloat.lt v.toModel.unpack w.toModel.unpack = true := by
  change Float.lt v w = true ↔ _
  rw [Float.lt, decide_eq_true_iff]
  rfl

private theorem unpack_zero : (0 : Float).toModel.unpack = .zero .positive := rfl

private theorem unpack_pack_zero (s : Sign) : (Float.Model.pack (.zero s)).unpack = .zero s := by
  cases s <;> rfl

theorem isLegal_float_iff {w : Float} : isLegal w = true ↔ w.isFinite = true ∧ ¬ w < 0 := by
  simp [isLegal, isFinite, less, zero]

theorem isLegal_one : isLegal (1 : Float) = true := by decide +kernel

private theorem isZero_zero : IsZero (zero : Float) := ⟨.positive, unpack_zero⟩

private theorem IsZero.add {v w : Float} (hv : IsZero v) (hw : IsZero w) : IsZero (v + w) := by
  obtain ⟨s, hs⟩ := hv
  obtain ⟨t, ht⟩ := hw
  have hsum : (v + w).toModel =
      Float.Model.pack (UnpackedFloat.add Format.binary64 v.toModel.unpack w.toModel.unpack) := rfl
  rw [IsZero, hsum, hs, ht]
  cases s <;> cases t <;> exact ⟨_, unpack_pack_zero _⟩

private theorem IsZero.not_isPositive {w : Float} (h : IsZero w) : isPositive w = false := by
  obtain ⟨s, hs⟩ := h
  simp only [isPositive, less, zero, decide_eq_false_iff_not, lt_iff, unpack_zero, hs]
  cases s <;> exact Bool.false_ne_true

private theorem isZero_of_isLegal {w : Float} (h : isLegal w = true) (hpos : isPositive w = false) :
    IsZero w := by
  simp only [isLegal, isPositive, less, zero, isFinite, Bool.and_eq_true, Bool.not_eq_true',
    decide_eq_false_iff_not, lt_iff, unpack_zero] at h hpos
  obtain ⟨hfinite, hless⟩ := h
  change w.toModel.unpack.isFinite = true at hfinite
  cases hw : w.toModel.unpack with
  | zero s => exact ⟨s, hw⟩
  | infinity s =>
    rw [hw] at hfinite
    exact absurd hfinite Bool.false_ne_true
  | notANumber =>
    rw [hw] at hfinite
    exact absurd hfinite Bool.false_ne_true
  | finite s m e hm =>
    rw [hw] at hless hpos
    cases s with
    | positive => exact absurd rfl hpos
    | negative => exact absurd rfl hless

end Weight

namespace DocumentSet

variable {ds ds' : DocumentSet} {r : StatementRef}

theorem knows_of_content (h : ds'.content = ds.content) (hr : ds.Knows r) : ds'.Knows r := by
  obtain ⟨d, s, hd, hs⟩ := hr
  have hget : ds'.content[r.document]? = some d.content := by
    rw [h, content, List.getElem?_map, hd, Option.map_some]
  rw [content, List.getElem?_map] at hget
  obtain ⟨d', hd', hcontent⟩ := Option.map_eq_some_iff.mp hget
  have hstatements : d'.statements = d.statements := congrArg (·.statements) hcontent
  exact ⟨d', s, hd', hstatements ▸ hs⟩

/-- Dropping an edit adds no statement. -/
theorem knows_of_replace_pop {n : Nat} {d : Document} (hd : ds.documents[n]? = some d)
    (hr : (ds.replace n d.pop).Knows r) : ds.Knows r := by
  obtain ⟨d', s, hd', hs⟩ := hr
  by_cases hn : n = r.document
  · subst hn
    have hlt := (List.getElem?_eq_some_iff.mp hd).1
    rw [replace, List.getElem?_set_self hlt] at hd'
    obtain rfl := Option.some.inj hd'
    exact ⟨d, s, hd, hs⟩
  · rw [replace, List.getElem?_set_ne hn] at hd'
    exact ⟨d', s, hd', hs⟩

theorem mem_statements_iff {s : Syntax.Statement} :
    (r, s) ∈ ds.statements ↔
      ∃ d, ds.documents[r.document]? = some d ∧ d.statements[r.index]? = some s := by
  rw [statements, List.mem_flatMap]
  constructor
  · rintro ⟨⟨d, n⟩, hd, hrow⟩
    obtain ⟨⟨s', i⟩, hs, heq⟩ := List.mem_map.mp hrow
    obtain ⟨rfl, rfl⟩ := Prod.mk.inj heq
    exact ⟨d, List.mem_zipIdx_iff_getElem?.mp hd, List.mem_zipIdx_iff_getElem?.mp hs⟩
  · rintro ⟨d, hd, hs⟩
    exact ⟨(d, r.document), List.mem_zipIdx_iff_getElem?.mpr hd,
      List.mem_map.mpr ⟨(s, r.index), List.mem_zipIdx_iff_getElem?.mpr hs, rfl⟩⟩

private theorem knows_of_mem_statements {s : Syntax.Statement} (h : (r, s) ∈ ds.statements) :
    ds.Knows r := by
  obtain ⟨d, hd, hs⟩ := mem_statements_iff.mp h
  exact ⟨d, s, hd, hs⟩

end DocumentSet

namespace Pool

variable {W : Type} [Weight W]

/-- The pool can be drawn from, and has statements of these documents only. -/
structure Serves (p : Pool W) (ds : DocumentSet) : Prop where
  hasWeight : p.hasWeight = true
  heavy : ∃ e ∈ p.entries.toList, Weight.isPositive e.weight = true
  known : ∀ e ∈ p.entries.toList, ds.Knows e.statement

theorem Serves.mono {p : Pool W} {ds ds' : DocumentSet} (h : p.Serves ds)
    (hknows : ∀ r, ds.Knows r → ds'.Knows r) : p.Serves ds' :=
  ⟨h.hasWeight, h.heavy, fun e he => hknows _ (h.known e he)⟩

/-- Wherever a number falls, it selects an entry with a positive weight, if there is one. -/
theorem exists_select {p : Pool W} (hweight : p.hasWeight = true)
    (hheavy : ∃ e ∈ p.entries.toList, Weight.isPositive e.weight = true) (draw : W) :
    ∃ e ∈ p.entries.toList, Weight.isPositive e.weight = true ∧
      p.select draw = .ok e.statement := by
  rw [Pool.select, if_neg (by simp [hweight])]
  dsimp only
  split
  · rename_i e he
    have hpositive {es : List (Entry W)} (h : es.find? (Weight.isPositive ·.weight) = some e) :
        e ∈ es ∧ Weight.isPositive e.weight = true :=
      ⟨List.mem_of_find?_eq_some h,
        List.find?_some (p := fun e : Entry W => Weight.isPositive e.weight) h⟩
    rcases Option.or_eq_some_iff.mp he with hfound | ⟨_, hfound⟩
    · exact ⟨e, List.mem_of_mem_drop (hpositive hfound).1, (hpositive hfound).2, rfl⟩
    · exact ⟨e, List.mem_reverse.mp (hpositive hfound).1, (hpositive hfound).2, rfl⟩
  · -- the last resort is the heavy entry itself
    rename_i hnone
    obtain ⟨e, he, hheavy⟩ := hheavy
    have hlast := (Option.or_eq_none_iff.mp hnone).2
    exact absurd hheavy (List.find?_eq_none.mp hlast e (List.mem_reverse.mpr he))

section

variable {σ : Type} [RandomSource σ W] {p : Pool W} {P : StatementRef → Prop}

/-- What holds of all that numbers select holds of all that is drawn. -/
theorem exists_draw (h : ∀ x, ∃ r, p.select x = .ok r ∧ P r) (g : σ) :
    ∃ r, (p.draw g).1 = .ok r ∧ P r := h _

private theorem exists_drawOther (h : ∀ x, ∃ r, p.select x = .ok r ∧ P r)
    (excluded : StatementRef) (n : Nat) (g : σ) :
    ∃ r, (p.drawOther excluded n g).1 = .ok r ∧ P r := by
  induction n generalizing g with
  | zero => exact exists_draw h g
  | succ n ih =>
    obtain ⟨r, hr, hP⟩ := exists_draw h g
    rw [Pool.drawOther]
    rcases hdraw : p.draw g with ⟨answer, g'⟩
    obtain rfl : answer = .ok r := by rw [hdraw] at hr; exact hr
    dsimp only
    split
    · exact ⟨r, rfl, hP⟩
    · exact ih g'

theorem exists_drawExcluding (h : ∀ x, ∃ r, p.select x = .ok r ∧ P r) (excluded : StatementRef)
    (g : σ) : ∃ r, (p.drawExcluding excluded g).1 = .ok r ∧ P r :=
  exists_drawOther h excluded redraws g

end

section

variable {p : Pool W} {ds : DocumentSet}

private theorem Serves.select (h : p.Serves ds) (draw : W) :
    ∃ r, p.select draw = .ok r ∧ ds.Knows r := by
  obtain ⟨e, he, _, hselect⟩ := exists_select h.hasWeight h.heavy draw
  exact ⟨e.statement, hselect, h.known e he⟩

variable {σ : Type} [RandomSource σ W]

theorem Serves.draw (h : p.Serves ds) (g : σ) : ∃ r, (p.draw g).1 = .ok r ∧ ds.Knows r :=
  exists_draw h.select g

theorem Serves.drawExcluding (h : p.Serves ds) (excluded : StatementRef) (g : σ) :
    ∃ r, (p.drawExcluding excluded g).1 = .ok r ∧ ds.Knows r :=
  exists_drawExcluding h.select excluded g

end

/-- All statements are known, and without a positive weight the total is a zero. -/
private structure Grown (ds : DocumentSet) (p : Pool Float) : Prop where
  known : ∀ e ∈ p.entries.toList, ds.Knows e.statement
  total : (∃ e ∈ p.entries.toList, Weight.isPositive e.weight = true) ∨ Weight.IsZero p.total

private theorem grown_empty (ds : DocumentSet) : Grown ds empty :=
  ⟨fun _ he => absurd he List.not_mem_nil, .inr Weight.isZero_zero⟩

private theorem Grown.add {ds : DocumentSet} {p p' : Pool Float} (h : Grown ds p)
    {r : StatementRef} {w : Float} (hr : ds.Knows r) (hadd : p.add r w = .ok p') :
    Grown ds p' := by
  rw [Pool.add] at hadd
  split at hadd
  · rename_i hlegal
    obtain rfl := Except.ok.inj hadd
    refine ⟨?_, ?_⟩
    · intro e he
      rw [Array.toList_push, List.mem_append, List.mem_singleton] at he
      rcases he with he | rfl
      · exact h.known e he
      · exact hr
    · rw [Array.toList_push]
      cases hpos : Weight.isPositive w with
      | true => exact .inl ⟨_, List.mem_append_right _ (List.mem_singleton.mpr rfl), hpos⟩
      | false =>
        rcases h.total with ⟨e, he, hheavy⟩ | hzero
        · exact .inl ⟨e, List.mem_append_left _ he, hheavy⟩
        · exact .inr (hzero.add (Weight.isZero_of_isLegal hlegal hpos))
  · cases hadd

private theorem Grown.ofCoverage {ds : DocumentSet} {c : Coverage Float} {weight : Float → Float}
    {p : Pool Float} (h : Pool.ofCoverage ds c weight = .ok p) : Grown ds p := by
  have hrows : ∀ row ∈ ds.statements, ds.Knows row.1 :=
    fun _ hrow => DocumentSet.knows_of_mem_statements hrow
  rw [Pool.ofCoverage] at h
  -- the pool grows along the statements that are left
  generalize ds.statements = rows at h hrows
  have hstart := grown_empty ds
  generalize (empty : Pool Float) = start at h hstart
  induction rows generalizing start with
  | nil =>
    obtain rfl := Except.ok.inj h
    exact hstart
  | cons row rows ih =>
    rw [List.foldlM_cons] at h
    obtain ⟨r, s⟩ := row
    have hrest := fun row hrow => hrows row (List.mem_cons_of_mem _ hrow)
    dsimp only at h
    split at h
    · cases h
    · split at h
      · rename_i w _
        cases hadd : start.add r (weight w) with
        | error e => simp [hadd, bind, Except.bind] at h
        | ok next =>
          rw [hadd] at h
          exact ih hrest next h (hstart.add (hrows (r, s) List.mem_cons_self) hadd)
      · exact ih hrest start h hstart

private theorem Grown.serves {ds : DocumentSet} {p : Pool Float} (h : Grown ds p)
    (hweight : p.hasWeight = true) : p.Serves ds := by
  refine ⟨hweight, ?_, h.known⟩
  rcases h.total with hheavy | hzero
  · exact hheavy
  · rw [hasWeight, hzero.not_isPositive] at hweight
    cases hweight

/-- Pools that were built from documents serve them as soon as their totals are positive. -/
theorem serves_of_build {ds : DocumentSet} {faulty seeds : Coverage Float} {p q : Pool Float}
    (h : build ds faulty seeds = .ok (p, q)) :
    (p.hasWeight = true → p.Serves ds) ∧ (q.hasWeight = true → q.Serves ds) := by
  rw [build] at h
  cases hp : Pool.ofCoverage ds faulty id with
  | error e => simp [hp, bind, Except.bind] at h
  | ok p' =>
    cases hq : Pool.ofCoverage ds seeds fun _ => Weight.one with
    | error e => simp [hp, hq, bind, Except.bind] at h
    | ok q' =>
      simp only [hp, hq, bind, Except.bind, Except.ok.injEq, Prod.mk.injEq] at h
      obtain ⟨rfl, rfl⟩ := h
      exact ⟨(Grown.ofCoverage hp).serves, (Grown.ofCoverage hq).serves⟩

end Pool

end RepairSearch
