import RepairSearch.Proofs.Coverage
import RepairSearch.Proofs.Pool.Selection

/-!
# Pools from coverage

Building the pools of a set of documents never fails. A pool lists the statements on covered
lines, in the order of the documents and of their tables.
-/

namespace RepairSearch

/-- The order of documents, and in one document the order of its table. -/
def StatementRef.Before (r r' : StatementRef) : Prop :=
  r.document < r'.document ∨ r.document = r'.document ∧ r.index < r'.index

private theorem pairwise_zipIdx {α : Type} (xs : List α) :
    (xs.zipIdx 0).Pairwise fun x y => x.2 < y.2 := by
  rw [← List.pairwise_map, List.zipIdx_map_snd]
  exact List.pairwise_lt_range'

private theorem DocumentSet.pairwise_statements (ds : DocumentSet) :
    ds.statements.Pairwise fun row row' => row.1.Before row'.1 := by
  rw [statements, List.pairwise_flatMap]
  constructor
  · rintro ⟨d, n⟩ _
    rw [List.pairwise_map]
    exact (pairwise_zipIdx d.statements).imp fun h => .inr ⟨rfl, h⟩
  · refine (pairwise_zipIdx ds.documents).imp fun {x y} h row hrow row' hrow' => .inl ?_
    obtain ⟨_, _, rfl⟩ := List.mem_map.mp hrow
    obtain ⟨_, _, rfl⟩ := List.mem_map.mp hrow'
    exact h

namespace Pool

variable {W : Type} {ds : DocumentSet} {weight? : CoverageLine → Option W}

/-- The pool has the statements of documents whose lines have weights, each once, in order and with
the weight of its line. -/
structure Collects (p : Pool W) (ds : DocumentSet) (weight? : CoverageLine → Option W) :
    Prop where
  inOrder : (p.entries.toList.map (·.statement)).Pairwise StatementRef.Before
  mem_iff : ∀ r w, (r, w) ∈ p.entries.toList.map (fun e => (e.statement, e.weight)) ↔
    ∃ d s, ds.documents[r.document]? = some d ∧ d.statements[r.index]? = some s ∧
      weight? ⟨d.package, s.typeName, s.line⟩ = some w

/-- How a statement is offered to a pool, if its line has a weight. -/
def callOf? (ds : DocumentSet) (weight? : CoverageLine → Option W)
    (row : StatementRef × Syntax.Statement) : Option (StatementRef × W) := do
  let d ← ds.documents[row.1.document]?
  let w ← weight? ⟨d.package, row.2.typeName, row.2.line⟩
  some (row.1, w)

private theorem callOf?_eq_some_iff {row : StatementRef × Syntax.Statement}
    {call : StatementRef × W} :
    callOf? ds weight? row = some call ↔ row.1 = call.1 ∧
      ∃ d, ds.documents[row.1.document]? = some d ∧
        weight? ⟨d.package, row.2.typeName, row.2.line⟩ = some call.2 := by
  simp only [callOf?, bind, Option.bind_eq_some_iff, Option.some.injEq, Prod.ext_iff]
  constructor
  · rintro ⟨d, hd, w, hw, hr, rfl⟩
    exact ⟨hr, d, hd, hw⟩
  · rintro ⟨hr, d, hd, hw⟩
    exact ⟨d, hd, call.2, hw, hr, rfl⟩

variable [Weight W]

/-- The pool that all statements were offered to whose lines have weights. -/
def ofWeights (ds : DocumentSet) (weight? : CoverageLine → Option W) : Pool W :=
  (ds.statements.filterMap (callOf? ds weight?)).foldl offer empty

private theorem ofWeights_collects
    (hlegal : ∀ line w, weight? line = some w → Weight.isLegal w = true) :
    (ofWeights ds weight?).Collects ds weight? := by
  have hentries := entries_offers (ds.statements.filterMap (callOf? ds weight?))
  rw [List.filter_eq_self.mpr ?taken] at hentries
  case taken =>
    intro call hcall
    obtain ⟨row, _, hrow⟩ := List.mem_filterMap.mp hcall
    obtain ⟨_, d, _, hw⟩ := callOf?_eq_some_iff.mp hrow
    exact hlegal _ _ hw
  constructor
  · have hstatements : (ofWeights ds weight?).entries.toList.map (·.statement) =
        (ds.statements.filterMap (callOf? ds weight?)).map (·.1) := by
      rw [← hentries, List.map_map]
      rfl
    rw [hstatements, List.pairwise_map, List.pairwise_filterMap]
    refine ds.pairwise_statements.imp fun {row row'} h call hcall call' hcall' => ?_
    rw [← (callOf?_eq_some_iff.mp hcall).1, ← (callOf?_eq_some_iff.mp hcall').1]
    exact h
  · intro r w
    rw [ofWeights, hentries, List.mem_filterMap]
    constructor
    · rintro ⟨⟨r', s⟩, hrow, hcall⟩
      obtain ⟨rfl, d, hd, hw⟩ := callOf?_eq_some_iff.mp hcall
      obtain ⟨d', hd', hs⟩ := DocumentSet.mem_statements_iff.mp hrow
      obtain rfl := Option.some.inj (hd.symm.trans hd')
      exact ⟨d, s, hd, hs, hw⟩
    · rintro ⟨d, s, hd, hs, hw⟩
      exact ⟨(r, s), DocumentSet.mem_statements_iff.mpr ⟨d, hd, hs⟩,
        callOf?_eq_some_iff.mpr ⟨rfl, d, hd, hw⟩⟩

private theorem ofCoverage_eq {c : Coverage W} {weight : W → W}
    (hweight : ∀ line, (c.weight? line).map weight = weight? line)
    (hlegal : ∀ line w, weight? line = some w → Weight.isLegal w = true) :
    ofCoverage ds c weight = .ok (ofWeights ds weight?) := by
  have hrows (row) (hrow : row ∈ ds.statements) : ∃ d, ds.documents[row.1.document]? = some d := by
    obtain ⟨d, hd, _⟩ := DocumentSet.mem_statements_iff.mp hrow
    exact ⟨d, hd⟩
  rw [ofCoverage, ofWeights]
  generalize ds.statements = rows at hrows
  generalize (empty : Pool W) = p
  induction rows generalizing p with
  | nil => rfl
  | cons row rows ih =>
    obtain ⟨d, hd⟩ := hrows row List.mem_cons_self
    have ih := ih fun row hrow => hrows row (List.mem_cons_of_mem _ hrow)
    have hline := hweight ⟨d.package, row.2.typeName, row.2.line⟩
    rw [List.foldlM_cons]
    simp only [DocumentSet.document, hd]
    cases hw : c.weight? ⟨d.package, row.2.typeName, row.2.line⟩ with
    | none =>
      rw [hw] at hline
      rw [List.filterMap_cons_none (by simp [callOf?, hd, ← hline])]
      exact ih p
    | some w =>
      rw [hw] at hline
      have hcall : callOf? ds weight? row = some (row.1, weight w) :=
        callOf?_eq_some_iff.mpr ⟨rfl, d, hd, hline.symm⟩
      have hadd : p.add row.1 (weight w) = .ok (p.offer (row.1, weight w)) :=
        add_eq_offer (hlegal _ _ hline.symm)
      rw [List.filterMap_cons_some hcall, List.foldl_cons]
      dsimp only
      rw [hadd]
      exact ih _

/-- Reading records fails iff one has a weight that is not finite or negative, and the error is
about the first of these. From coverage that was read, the pools are always built: that of the
faulty statements has those whose lines have records, with the weights of the last ones, and that of
the seeds has those whose lines have records, all with weight one. The same pools come of records
for different lines in another order, and of records without some that have later ones for their
lines. -/
theorem build_collects (ds : DocumentSet) :
    (∀ rs : List (CoverageRecord Float),
      ((∃ c, Coverage.ofRecords rs = .ok c) ↔
        ∀ r ∈ rs, r.weight.isFinite = true ∧ ¬ r.weight < 0) ∧
      ∀ e, Coverage.ofRecords rs = .error e ↔ ∃ xs r ys, rs = xs ++ r :: ys ∧
        (∀ x ∈ xs, x.weight.isFinite = true ∧ ¬ x.weight < 0) ∧
        ¬ (r.weight.isFinite = true ∧ ¬ r.weight < 0) ∧
        e = .invalidWeight (Weight.text r.weight)) ∧
    ∀ faulty seeds f s, Coverage.ofRecords faulty = .ok f → Coverage.ofRecords seeds = .ok s →
      ∃ p q : Pool Float, build ds f s = .ok (p, q) ∧
        p.Collects ds (Coverage.lastWeight? faulty) ∧
        q.Collects ds (fun line => (Coverage.lastWeight? seeds line).map fun _ => 1) ∧
        ∀ faulty' seeds', Relation.ReflTransGen Coverage.Rearranged faulty faulty' →
          Relation.ReflTransGen Coverage.Rearranged seeds seeds' →
          ∃ f' s', Coverage.ofRecords faulty' = .ok f' ∧ Coverage.ofRecords seeds' = .ok s' ∧
            build ds f' s' = .ok (p, q) := by
  refine ⟨fun rs => ⟨?_, fun e => ?_⟩, fun faulty seeds f s hf hs => ?_⟩
  · simp only [Coverage.ofRecords_eq_ok_iff, Weight.isLegal_float_iff, exists_and_left, exists_eq,
      and_true]
  · simp only [Coverage.ofRecords_eq_error_iff, Weight.isLegal_float_iff, ← Bool.not_eq_true]
  · have hlegal (line : CoverageLine) (w : Float)
        (hw : Coverage.lastWeight? faulty line = some w) : Weight.isLegal w = true :=
      Coverage.isLegal_of_weight? hf ((Coverage.weight?_eq_lastWeight? hf line).trans hw)
    have hone (line : CoverageLine) (w : Float)
        (hw : (Coverage.lastWeight? seeds line).map (fun _ => 1) = some w) :
        Weight.isLegal w = true := by
      obtain ⟨_, _, rfl⟩ := Option.map_eq_some_iff.mp hw
      exact Weight.isLegal_one
    -- the pools depend on the weights of lines alone
    have hbuild (f' s' : Coverage Float)
        (hf' : ∀ line, f'.weight? line = Coverage.lastWeight? faulty line)
        (hs' : ∀ line, s'.weight? line = Coverage.lastWeight? seeds line) :
        build ds f' s' = .ok (ofWeights ds (Coverage.lastWeight? faulty),
          ofWeights ds fun line => (Coverage.lastWeight? seeds line).map fun _ => 1) := by
      rw [build, ofCoverage_eq (fun line => ?_) hlegal, ofCoverage_eq (fun line => ?_) hone]
      · rfl
      · rw [hs']
        rfl
      · rw [hf', Option.map_id_apply]
    refine ⟨_, _, hbuild f s (Coverage.weight?_eq_lastWeight? hf)
      (Coverage.weight?_eq_lastWeight? hs), ofWeights_collects hlegal, ofWeights_collects hone,
      fun faulty' seeds' hfaulty hseeds => ?_⟩
    obtain ⟨f', hf', hsame⟩ := Coverage.exists_ofRecords_of_rearranged hfaulty hf
    obtain ⟨s', hs', hsame'⟩ := Coverage.exists_ofRecords_of_rearranged hseeds hs
    exact ⟨f', s', hf', hs', hbuild f' s'
      (fun line => (hsame line).trans (Coverage.weight?_eq_lastWeight? hf line))
      fun line => (hsame' line).trans (Coverage.weight?_eq_lastWeight? hs line)⟩

/-- A line of the first document is listed twice, and the later weight counts. Without the first
record for it, and with the record for the second document first, the pools are the same. The
statement on line two is in none of them. -/
theorem build_collects_repeatedLine :
    let document (package : String) (statements : List Syntax.Statement) : Document :=
      { (default : Document) with package, statements }
    let ds : DocumentSet :=
      ⟨[document "a" [⟨"pass_statement", 0, 4, 1, 0, "", "module"⟩,
          ⟨"pass_statement", 5, 9, 2, 0, "", "module"⟩],
        document "b" [⟨"pass_statement", 0, 4, 1, 0, "", "module"⟩]]⟩
    let records : List (CoverageRecord Float) :=
      [⟨⟨"a", "", 1⟩, 5⟩, ⟨⟨"a", "", 1⟩, 2⟩, ⟨⟨"b", "", 1⟩, 0⟩]
    let records' : List (CoverageRecord Float) := [⟨⟨"b", "", 1⟩, 0⟩, ⟨⟨"a", "", 1⟩, 2⟩]
    ∃ c c' p q, Coverage.ofRecords records = .ok c ∧ Coverage.ofRecords records' = .ok c' ∧
      build ds c c = .ok (p, q) ∧ build ds c' c' = .ok (p, q) ∧
      (⟨0, 0⟩, 2) ∈ p.entries.toList.map (fun e => (e.statement, e.weight)) ∧
      (∀ w, (⟨0, 1⟩, w) ∉ p.entries.toList.map (fun e => (e.statement, e.weight))) ∧
      (⟨1, 0⟩, 1) ∈ q.entries.toList.map (fun e => (e.statement, e.weight)) := by
  intro document ds records records'
  obtain ⟨hload, hbuild⟩ := build_collects ds
  obtain ⟨c, hc⟩ := (hload records).1.mpr (by decide +kernel)
  obtain ⟨p, q, hpools, hp, hq, hsame⟩ := hbuild records records c c hc hc
  have hrearranged : Relation.ReflTransGen Coverage.Rearranged records records' :=
    .tail (.single (.dropped [] _ _ ⟨⟨⟨"a", "", 1⟩, 2⟩, by simp, rfl⟩))
      (.swap [] (by decide))
  obtain ⟨c', c'', hc', hc'', hpools'⟩ := hsame records' records' hrearranged hrearranged
  obtain rfl := Except.ok.inj (hc'.symm.trans hc'')
  refine ⟨c, c', p, q, hc, hc', hpools, hpools', ?_, fun w hw => ?_, ?_⟩
  · exact (hp.mem_iff _ _).mpr ⟨_, _, rfl, rfl, rfl⟩
  · obtain ⟨d, s, hd, hs, hw⟩ := (hp.mem_iff _ _).mp hw
    obtain rfl := Option.some.inj hd
    obtain rfl := Option.some.inj hs
    cases hw
  · exact (hq.mem_iff _ _).mpr ⟨_, _, rfl, rfl, rfl⟩

end Pool

end RepairSearch
