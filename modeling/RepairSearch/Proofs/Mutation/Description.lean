import RepairSearch.Proofs.Mutation.Created

/-!
# Descriptions of mutations

A mutation says which statements it is about, and quotes them from the original texts. Edits change
neither, so the description stays right for as long as there are edits of the documents that it was
created on.
-/

namespace RepairSearch

namespace DocumentSet

variable {ds ds' : DocumentSet}

/-- What edits leave alone: the path, the original text and the statements of each document. -/
def sources (ds : DocumentSet) : List (String × Text × List Syntax.Statement) :=
  ds.documents.map fun d => (d.path, d.original, d.statements)

theorem sources_of_content (h : ds'.content = ds.content) : ds'.sources = ds.sources := by
  have hmap (es : DocumentSet) : es.sources =
      es.content.map fun d => (d.path, d.original, d.statements) := by
    rw [content, List.map_map]
    rfl
  rw [hmap, hmap, h]

private theorem sources_replace {n : Nat} {d d' : Document} (hd : ds.documents[n]? = some d)
    (h : d'.SameSource d) : (ds.replace n d').sources = ds.sources := by
  rw [sources, replace, List.map_set, h.path, h.original, h.statements]
  refine List.ext_getElem? fun k => ?_
  rw [List.getElem?_set]
  split
  · rename_i hk
    subst hk
    have hlt := (List.getElem?_eq_some_iff.mp hd).1
    rw [sources, List.length_map, if_pos hlt, List.getElem?_map, hd, Option.map_some]
  · rfl

end DocumentSet

namespace Mutation

variable {ds ds' : DocumentSet} {m m' : Mutation} {kind : MutationKind} {faulty : StatementRef}
  {seed : Option StatementRef}

private theorem sources_mutate (h : m.mutate ds = .ok (m', ds')) : ds'.sources = ds.sources := by
  obtain ⟨rfl, _⟩ | ⟨d, sp, hd, rfl, _⟩ := documents_of_mutate h
  · rfl
  · exact DocumentSet.sources_replace hd (Document.sameSource_push d sp)

private theorem sources_undo (h : m.undo ds = .ok (m', ds')) : ds'.sources = ds.sources := by
  obtain ⟨rfl, _⟩ | ⟨d, _, _, hd, _, rfl, _⟩ := documents_of_undo h
  · rfl
  · exact DocumentSet.sources_replace hd (Document.sameSource_pop d)

theorem Undoes.sources (h : m.Undoes ds ds') (hreach : ds'.Reachable) :
    ds'.sources = ds.sources := by
  obtain ⟨_, es, hundo, _, hcontent⟩ := h ds' hreach rfl
  rw [← sources_undo hundo, DocumentSet.sources_of_content hcontent]

/-- A text quotes a statement: in what role, from which document and line, and what it is. -/
def Quotes (ds : DocumentSet) (role : String) (r : StatementRef) (text : String) : Prop :=
  ∃ d s, ds.documents[r.document]? = some d ∧ d.statements[r.index]? = some s ∧
    text = s!"  {role}: {d.path}:{s.line}\n" ++ String.join
      ((shownLines (d.original.slice s.start s.stop)).map fun l => s!"    {l.toString}\n")

/-- A mutation says what kind it is of and quotes its statements. -/
def Described (ds : DocumentSet) (m : Mutation) : Prop :=
  ∃ first second, Quotes ds "faulty" m.faulty first ∧
    (match m.seed with
      | some r => Quotes ds "seed" r second
      | none => second = "") ∧
    m.description = s!"{m.kind.title} mutation\n" ++ first ++ second

private theorem Quotes.of_sources {role text : String} {r : StatementRef}
    (h : Quotes ds role r text) (hsources : ds'.sources = ds.sources) : Quotes ds' role r text := by
  obtain ⟨d, s, hd, hs, rfl⟩ := h
  have hget := congrArg (·[r.document]?) hsources
  simp only [DocumentSet.sources, List.getElem?_map, hd, Option.map_some] at hget
  obtain ⟨d', hd', hsame⟩ := Option.map_eq_some_iff.mp hget
  simp only [Prod.mk.injEq] at hsame
  obtain ⟨hpath, horiginal, hstatements⟩ := hsame
  exact ⟨d', s, hd', hstatements ▸ hs, by rw [hpath, horiginal]⟩

theorem Described.of_sources (h : m.Described ds) (hsources : ds'.sources = ds.sources) :
    m.Described ds' := by
  obtain ⟨first, second, hfirst, hsecond, hm⟩ := h
  refine ⟨first, second, hfirst.of_sources hsources, ?_, hm⟩
  split
  · rename_i r hseed
    rw [hseed] at hsecond
    exact hsecond.of_sources hsources
  · rename_i hseed
    rwa [hseed] at hsecond

theorem Described.mutate (h : m.Described ds) (hm : m.mutate ds = .ok (m', ds')) :
    m'.Described ds' := by
  refine Described.of_sources ?_ (sources_mutate hm)
  obtain ⟨_, ⟨_, rfl, _⟩ | ⟨_, _, rfl, _⟩ | ⟨_, _, _, _, _, _, rfl, _⟩⟩ := mutate_eq_ok hm <;>
    exact h

private theorem quotes_of_describeStatement {role text : String} {r : StatementRef}
    (h : describeStatement role ds r = .ok text) : Quotes ds role r text := by
  rw [describeStatement] at h
  split at h
  · rename_i place quoted hplace hquoted
    obtain ⟨d, hd, hline⟩ := DocumentSet.ask_eq_ok.mp hplace
    obtain ⟨s, hs, rfl⟩ := Option.map_eq_some_iff.mp hline
    obtain ⟨d', hd', hslice⟩ := DocumentSet.ask_eq_ok.mp hquoted
    obtain rfl : d = d' := Option.some.inj (hd.symm.trans hd')
    simp only [Document.statementText?, hs] at hslice
    obtain rfl := Option.some.inj hslice
    refine ⟨d, s, hd, hs, ?_⟩
    rw [← Except.ok.inj h]
    refine congrArg₂ (· ++ ·) ?_ rfl
    simp [String.append_assoc, toString]
  · cases h
  · cases h

theorem described_of_create (h : create kind faulty seed ds = .ok m) : m.Described ds := by
  obtain ⟨_, first, second, hfirst, hsecond, rfl⟩ := describe_of_create h
  refine ⟨first, second, quotes_of_describeStatement hfirst, ?_, rfl⟩
  cases seed with
  | none => exact hsecond
  | some r => exact quotes_of_describeStatement hsecond

end Mutation

end RepairSearch
