import RepairSearch.Proofs.Document.Place
import RepairSearch.Proofs.Document.Undo
import RepairSearch.Proofs.Mutation.Created

/-!
# Families of mutations

Several mutations are made and undone on one set of documents, in any order and as often as someone
tries. The edits in force in a document are those of the members that are made, in the order in
which they were made, so an undo that comes too early fails and can be tried again.
-/

namespace RepairSearch

/-- Documents, and mutations that are made and undone on them. -/
structure Family where
  documents : DocumentSet
  members : List Mutation
  /-- The members that have been made, in that order, whether they have been undone or not. -/
  made : List Nat
  /-- The edits that have ever been made, each after its document. -/
  given : List (Nat × Nat)

namespace Family

/-- What can be asked of a member. -/
inductive Call where
  | mutate (member : Nat)
  | undo (member : Nat)

def start (documents : DocumentSet) (members : List Mutation) : Family :=
  ⟨documents, members, [], []⟩

/-- One call. A call that fails leaves everything as it is. -/
def step (f : Family) : Call → Family
  | .mutate i =>
    match f.members[i]? with
    | none => f
    | some m =>
      match m.mutate f.documents with
      | .ok (m, ds) =>
        { documents := ds
          members := f.members.set i m
          made := f.made ++ [i]
          given := f.given ++ (m.edit?.map fun e => (m.document, e)).toList }
      | .error _ => f
  | .undo i =>
    match f.members[i]? with
    | none => f
    | some m =>
      match m.undo f.documents with
      | .ok (m, ds) => { f with documents := ds, members := f.members.set i m }
      | .error _ => f

def run (f : Family) (calls : List Call) : Family := calls.foldl step f

private theorem step_mutate_of_error {f : Family} {i : Nat} {m : Mutation} {e : RepairError}
    (hm : f.members[i]? = some m) (h : m.mutate f.documents = .error e) :
    f.step (.mutate i) = f := by
  simp only [step, hm, h]

private theorem step_undo_of_error {f : Family} {i : Nat} {m : Mutation} {e : RepairError}
    (hm : f.members[i]? = some m) (h : m.undo f.documents = .error e) :
    f.step (.undo i) = f := by
  simp only [step, hm, h]

private theorem step_cases (f : Family) (c : Call) :
    f.step c = f ∨
    (∃ i m m' ds, c = .mutate i ∧ f.members[i]? = some m ∧
      m.mutate f.documents = .ok (m', ds) ∧ f.step c = ⟨ds, f.members.set i m', f.made ++ [i],
        f.given ++ (m'.edit?.map fun e => (m'.document, e)).toList⟩) ∨
    (∃ i m m' ds, c = .undo i ∧ f.members[i]? = some m ∧ m.undo f.documents = .ok (m', ds) ∧
      f.step c = ⟨ds, f.members.set i m', f.made, f.given⟩) := by
  cases c with
  | mutate i =>
    cases hm : f.members[i]? with
    | none => exact .inl (by simp only [step, hm])
    | some m =>
      rcases ha : m.mutate f.documents with e | ⟨m', ds⟩
      · exact .inl (step_mutate_of_error hm ha)
      · exact .inr (.inl ⟨i, m, m', ds, rfl, hm, ha, by simp only [step, hm, ha]⟩)
  | undo i =>
    cases hm : f.members[i]? with
    | none => exact .inl (by simp only [step, hm])
    | some m =>
      rcases ha : m.undo f.documents with e | ⟨m', ds⟩
      · exact .inl (step_undo_of_error hm ha)
      · exact .inr (.inr ⟨i, m, m', ds, rfl, hm, ha, by simp only [step, hm, ha]⟩)

end Family

/-- The documents come from those of another set, and their texts and numbers are in order. -/
structure DocumentSet.Develops (ds₀ ds : DocumentSet) : Prop where
  coherent : ∀ d ∈ ds.documents, d.Coherent
  numbered : ∀ d ∈ ds.documents, d.Numbered
  continues : ds₀.Continues ds

namespace DocumentSet.Develops

variable {ds₀ ds ds' : DocumentSet} {m m' : Mutation} {d d' : Document} {n : Nat}

private theorem start (h : ∀ d ∈ ds₀.documents, d.Fresh) : ds₀.Develops ds₀ where
  coherent d hd := (h d hd).toCoherent
  numbered d hd := by
    have hedits := (h d hd).edits
    exact ⟨by rw [hedits]; exact .nil, fun e he => by rw [hedits] at he; cases he⟩
  continues := Continues.refl ds₀

private theorem replace (h : ds₀.Develops ds) (hd : ds.documents[n]? = some d)
    (hcoherent : d'.Coherent)
    (hnumbered : d'.Numbered) (hcontinues : d.Continues d') : ds₀.Develops (ds.replace n d') where
  coherent e he := by
    rcases List.mem_or_eq_of_mem_set he with he | rfl
    · exact h.coherent e he
    · exact hcoherent
  numbered e he := by
    rcases List.mem_or_eq_of_mem_set he with he | rfl
    · exact h.numbered e he
    · exact hnumbered
  continues := h.continues.replace hd hcontinues

private theorem push (h : ds₀.Develops ds) (hd : ds.documents[n]? = some d) (s : Splice) :
    ds₀.Develops (ds.replace n (d.push s)) :=
  h.replace hd ((h.coherent d (List.mem_of_getElem? hd)).push s)
    ((h.numbered d (List.mem_of_getElem? hd)).push s) (d.continues_push s)

private theorem pop (h : ds₀.Develops ds) (hd : ds.documents[n]? = some d) :
    ds₀.Develops (ds.replace n d.pop) :=
  h.replace hd (Document.coherent_pop d) (h.numbered d (List.mem_of_getElem? hd)).pop
    d.continues_pop

private theorem mutate (h : ds₀.Develops ds) (hm : m.mutate ds = .ok (m', ds')) :
    ds₀.Develops ds' := by
  rcases Mutation.documents_of_mutate hm with ⟨rfl, _⟩ | ⟨d, sp, hd, rfl, _⟩
  · exact h
  · exact h.push hd sp

private theorem undo (h : ds₀.Develops ds) (hm : m.undo ds = .ok (m', ds')) : ds₀.Develops ds' := by
  rcases Mutation.documents_of_undo hm with ⟨rfl, _⟩ | ⟨d, _, _, hd, _, rfl, _⟩
  · exact h
  · exact h.pop hd

private theorem inForce_nodup (h : ds₀.Develops ds) (n : Nat) : (ds.inForce n).Nodup := by
  cases hd : ds.documents[n]? with
  | none =>
    rw [inForce, hd]
    exact .nil
  | some d =>
    rw [inForce_eq hd, List.Nodup, List.pairwise_map]
    exact (h.numbered d (List.mem_of_getElem? hd)).increasing.imp Nat.ne_of_lt

private theorem isPristine (h : ds₀.Develops ds) (hempty : ∀ n, ds.inForce n = []) :
    ds.isPristine = true := by
  refine List.all_eq_true.mpr fun d hd => ?_
  obtain ⟨n, hn⟩ := List.mem_iff_getElem?.mp hd
  have hedits : d.edits = [] := List.map_eq_nil_iff.mp ((inForce_eq hn).symm.trans (hempty n))
  have hcurrent : d.current = d.original := by
    rw [(h.coherent d hd).current, Document.splices, hedits]
    rfl
  simp [hedits, Document.isModified, hcurrent]

end DocumentSet.Develops

namespace Family

/-- The edit that a member has in force in a document. -/
def editOn? (members : List Mutation) (n i : Nat) : Option Nat :=
  (members[i]?).bind (Mutation.editOn? n)

section

variable {members : List Mutation} {i j : Nat} {m m' : Mutation}

private theorem editOn?_eq (hm : members[i]? = some m) (n : Nat) :
    editOn? members n i = m.editOn? n := by
  rw [editOn?, hm, Option.bind_some]

private theorem set_member (hm : members[i]? = some m) (m' : Mutation) :
    (members.set i m')[i]? = some m' :=
  List.getElem?_set_self (List.getElem?_eq_some_iff.mp hm).1

private theorem editOn?_set_self (hm : members[i]? = some m) (m' : Mutation) (n : Nat) :
    editOn? (members.set i m') n i = m'.editOn? n := editOn?_eq (set_member hm m') n

private theorem editOn?_set_of_ne (h : i ≠ j) (m' : Mutation) (n : Nat) :
    editOn? (members.set i m') n j = editOn? members n j := by
  rw [editOn?, List.getElem?_set_ne h, editOn?]

end

/-- A member is what calls have made of the one that it was, and it is known whether it has been
made. -/
structure Member (ms : List Mutation) (made : List Nat) (i : Nat) (m : Mutation) : Prop where
  origin : ∃ m₀, ms[i]? = some m₀ ∧ m₀.Continues m
  consistent : m.Consistent
  made : i ∈ made ↔ m.stage ≠ .pending

/-- Members that have been made were made once. -/
structure Accounted (ms members : List Mutation) (made : List Nat) : Prop where
  nodup : made.Nodup
  member : ∀ (i : Nat) (m : Mutation), members[i]? = some m → Member ms made i m

section

variable {ms members : List Mutation} {made : List Nat} {i : Nat} {m m' : Mutation}
  {ds ds' : DocumentSet}

private theorem accounted_start (hms : ∀ m ∈ ms, m.stage = .pending ∧ m.Consistent) :
    Accounted ms ms [] := by
  refine ⟨.nil, fun i m hm => ?_⟩
  obtain ⟨hpending, hconsistent⟩ := hms m (List.mem_of_getElem? hm)
  exact ⟨⟨m, hm, .refl m⟩, hconsistent, by simp [hpending]⟩

private theorem Accounted.set {made' : List Nat} (h : Accounted ms members made)
    (hm : members[i]? = some m) (hnodup : made'.Nodup) (hm' : Member ms made' i m')
    (hmade : ∀ j, i ≠ j → (j ∈ made' ↔ j ∈ made)) : Accounted ms (members.set i m') made' := by
  refine ⟨hnodup, fun j n hn => ?_⟩
  by_cases hij : i = j
  · subst hij
    exact Option.some.inj ((set_member hm m').symm.trans hn) ▸ hm'
  · have hold := h.member j n ((List.getElem?_set_ne hij).symm.trans hn)
    exact ⟨hold.origin, hold.consistent, (hmade j hij).trans hold.made⟩

private theorem Accounted.mutate (h : Accounted ms members made) (hm : members[i]? = some m)
    (ha : m.mutate ds = .ok (m', ds')) :
    i ∉ made ∧ Accounted ms (members.set i m') (made ++ [i]) := by
  obtain ⟨hpending, happlied⟩ := Mutation.stage_of_mutate ha
  have hold := h.member i m hm
  have hi : i ∉ made := fun hi => hold.made.mp hi hpending
  obtain ⟨m₀, hm₀, hcontinues⟩ := hold.origin
  refine ⟨hi, h.set hm ?_ ⟨⟨m₀, hm₀, ?_⟩, hold.consistent.mutate ha, ?_⟩ ?_⟩
  · exact List.nodup_append.mpr ⟨h.nodup, by simp, by grind⟩
  · exact hcontinues.trans (Mutation.continues_of_mutate ha)
  · simp [happlied]
  · intro j hij
    rw [List.mem_append, List.mem_singleton, or_iff_left (Ne.symm hij)]

private theorem Accounted.undo (h : Accounted ms members made) (hm : members[i]? = some m)
    (ha : m.undo ds = .ok (m', ds')) :
    i ∈ made ∧ Accounted ms (members.set i m') made := by
  obtain ⟨happlied, hundone⟩ := Mutation.stage_of_undo ha
  have hold := h.member i m hm
  have hi : i ∈ made := hold.made.mpr (by simp [happlied])
  obtain ⟨m₀, hm₀, hcontinues⟩ := hold.origin
  refine ⟨hi, h.set hm h.nodup ⟨⟨m₀, hm₀, ?_⟩, Mutation.consistent_of_undo ha, ?_⟩ fun _ _ => .rfl⟩
  · exact hcontinues.trans (Mutation.continues_of_undo ha)
  · simp [hi, hundone]

end

/-- The edits in force are those of the members, in the order in which they were made. -/
def Stacked (ds : DocumentSet) (members : List Mutation) (made : List Nat) : Prop :=
  ∀ n, ds.inForce n = made.filterMap (editOn? members n)

section

variable {members : List Mutation} {made : List Nat} {i : Nat} {m m' : Mutation}
  {ds₀ ds ds' : DocumentSet}

private theorem Stacked.mutate (h : Stacked ds members made) (hi : i ∉ made)
    (hm : members[i]? = some m)
    (ha : m.mutate ds = .ok (m', ds')) : Stacked ds' (members.set i m') (made ++ [i]) := by
  intro n
  have hold : made.filterMap (editOn? (members.set i m') n) = made.filterMap (editOn? members n) :=
    List.filterMap_congr fun j hj => editOn?_set_of_ne (by rintro rfl; exact hi hj) m' n
  rw [Mutation.inForce_mutate ha, h n, List.filterMap_append, hold]
  congr 1
  cases hedit : m'.editOn? n <;> simp [editOn?_set_self hm, hedit]

private theorem filterMap_of_concat {l xs : List Nat} {g g' : Nat → Option Nat} {i e : Nat}
    (hl : l.Nodup) (hi : i ∈ l) (hg : g i = some e) (hg' : g' i = none)
    (hne : ∀ j, i ≠ j → g' j = g j) (h : l.filterMap g = xs ++ [e]) (hxs : (xs ++ [e]).Nodup) :
    l.filterMap g' = xs := by
  obtain ⟨l₁, l₂, rfl⟩ := List.append_of_mem hi
  obtain ⟨_, hcons, hapart⟩ := List.nodup_append.mp hl
  have h₁ : i ∉ l₁ := fun hi₁ => hapart i hi₁ i List.mem_cons_self rfl
  have h₂ : i ∉ l₂ := (List.nodup_cons.mp hcons).1
  have hrest {k : List Nat} (hk : i ∉ k) : k.filterMap g' = k.filterMap g :=
    List.filterMap_congr fun j hj => hne j (by rintro rfl; exact hk hj)
  rw [List.filterMap_append, List.filterMap_cons_some hg] at h
  rw [List.filterMap_append, List.filterMap_cons_none hg', hrest h₁, hrest h₂]
  rcases List.eq_nil_or_concat (l₂.filterMap g) with hnil | ⟨ys, y, hys⟩
  · rw [hnil] at h ⊢
    rw [List.append_nil, List.append_inj_left' h rfl]
  · -- a value behind that of `i` would be the last one as well
    rw [hys, List.concat_eq_append, ← List.cons_append, ← List.append_assoc] at h
    obtain ⟨rfl, _⟩ := List.append_inj' h rfl
    obtain ⟨_, _, hne⟩ := List.nodup_append.mp hxs
    exact absurd rfl (hne e (by simp) e (by simp))

private theorem Stacked.undo (h : Stacked ds members made) (hds : ds₀.Develops ds)
    (hmade : made.Nodup)
    (hi : i ∈ made) (hm : members[i]? = some m) (ha : m.undo ds = .ok (m', ds')) :
    Stacked ds' (members.set i m') made := by
  intro n
  have hnone : editOn? (members.set i m') n i = none := by
    rw [editOn?_set_self hm, Mutation.editOn?, Mutation.edit?, (Mutation.stage_of_undo ha).2]
    exact ite_self none
  have hne (j : Nat) (hij : i ≠ j) : editOn? (members.set i m') n j = editOn? members n j :=
    editOn?_set_of_ne hij m' n
  -- a member without an edit in the document leaves its edits as they are
  have hsame (hold : m.editOn? n = none) :
      made.filterMap (editOn? (members.set i m') n) = ds.inForce n := by
    rw [h n]
    refine List.filterMap_congr fun j _ => ?_
    by_cases hij : i = j
    · subst hij
      rw [hnone, editOn?_eq hm, hold]
    · exact hne j hij
  rcases Mutation.documents_of_undo ha with ⟨rfl, hedit⟩ | ⟨d, edits, edit, hd, hedits, rfl, hedit⟩
  · rw [hsame]
    rw [Mutation.editOn?, hedit, ite_self]
  · by_cases hn : m.document = n
    · subst hn
      have hforce := DocumentSet.inForce_eq hd
      rw [hedits, List.map_append] at hforce
      rw [DocumentSet.inForce_replace_self hd]
      have hpop : d.pop.edits = edits := by
        rw [Document.pop, hedits]
        exact List.dropLast_concat
      rw [hpop]
      refine (filterMap_of_concat hmade hi ?_ hnone hne ((h _).symm.trans hforce) ?_).symm
      · rw [editOn?_eq hm, Mutation.editOn?, if_pos rfl, hedit]
      · have hnodup := hds.inForce_nodup m.document
        rwa [hforce] at hnodup
    · rw [DocumentSet.inForce_replace_of_ne hn, hsame]
      rw [Mutation.editOn?, if_neg hn]

end

/-- No number was given twice, and numbers were given between those that the documents had and have
next. -/
structure Numbered (ds₀ ds : DocumentSet) (given : List (Nat × Nat)) : Prop where
  nodup : given.Nodup
  within : ∀ g ∈ given, ∃ d : Document, ds.documents[g.1]? = some d ∧ g.2 < d.nextEdit ∧
    ∀ d₀ : Document, ds₀.documents[g.1]? = some d₀ → d₀.nextEdit ≤ g.2

section

variable {ds₀ ds ds' : DocumentSet} {given : List (Nat × Nat)} {m m' : Mutation}

private theorem Numbered.continues (h : Numbered ds₀ ds given) (hds : ds.Continues ds') :
    Numbered ds₀ ds' given := by
  refine ⟨h.nodup, fun g hg => ?_⟩
  obtain ⟨d, hd, hbelow, habove⟩ := h.within g hg
  obtain ⟨d', hd', hcontinues⟩ := hds _ d hd
  exact ⟨d', hd', Nat.lt_of_lt_of_le hbelow hcontinues.numbers, habove⟩

private theorem Numbered.mutate (h : Numbered ds₀ ds given) (hds : ds₀.Continues ds)
    (ha : m.mutate ds = .ok (m', ds')) :
    Numbered ds₀ ds' (given ++ (m'.edit?.map fun e => (m'.document, e)).toList) := by
  rcases Mutation.documents_of_mutate ha with ⟨rfl, hedit⟩ | ⟨d, sp, hd, rfl, hedit⟩
  · simpa [hedit] using h
  · have hcontinues : ds.Continues (ds.replace m'.document (d.push sp)) :=
      (DocumentSet.Continues.refl ds).replace hd (d.continues_push sp)
    have hlt := (List.getElem?_eq_some_iff.mp hd).1
    -- the next number of a document is above all that it has given
    have hfresh : (m'.document, d.nextEdit) ∉ given := by
      intro hmem
      obtain ⟨e, he, hbelow, _⟩ := h.within _ hmem
      obtain rfl : d = e := Option.some.inj (hd.symm.trans he)
      exact Nat.lt_irrefl _ hbelow
    simp only [hedit, Option.map_some, Option.toList_some]
    refine ⟨List.nodup_append.mpr ⟨h.nodup, by simp, ?_⟩, fun g hg => ?_⟩
    · intro g hg g' hg' heq
      rw [List.mem_singleton.mp hg'] at heq
      exact hfresh (heq ▸ hg)
    · rcases List.mem_append.mp hg with hg | hg
      · exact (h.continues hcontinues).within g hg
      · obtain rfl := List.mem_singleton.mp hg
        refine ⟨d.push sp, List.getElem?_set_self hlt, Nat.lt_succ_self _, fun d₀ hd₀ => ?_⟩
        obtain ⟨e, he, hnumbers⟩ := hds _ d₀ hd₀
        obtain rfl : d = e := Option.some.inj (hd.symm.trans he)
        exact hnumbers.numbers

private theorem continues_of_undo (ha : m.undo ds = .ok (m', ds')) : ds.Continues ds' := by
  rcases Mutation.documents_of_undo ha with ⟨rfl, _⟩ | ⟨d, _, _, hd, _, rfl, _⟩
  · exact .refl _
  · exact (DocumentSet.Continues.refl ds).replace hd d.continues_pop

end

/-- What holds of a family that started on certain documents with certain members. -/
structure Valid (ds₀ : DocumentSet) (ms : List Mutation) (f : Family) : Prop where
  documents : ds₀.Develops f.documents
  members : Accounted ms f.members f.made
  stacked : Stacked f.documents f.members f.made
  numbered : Numbered ds₀ f.documents f.given

variable {ds₀ : DocumentSet} {ms : List Mutation} {f : Family}

private theorem Valid.step (h : f.Valid ds₀ ms) (c : Call) : (f.step c).Valid ds₀ ms := by
  rcases step_cases f c with hc | ⟨i, m, m', ds, _, hm, ha, hc⟩ | ⟨i, m, m', ds, _, hm, ha, hc⟩
  · rwa [hc]
  · rw [hc]
    obtain ⟨hi, hmembers⟩ := h.members.mutate hm ha
    exact ⟨h.documents.mutate ha, hmembers, h.stacked.mutate hi hm ha,
      h.numbered.mutate h.documents.continues ha⟩
  · rw [hc]
    obtain ⟨hi, hmembers⟩ := h.members.undo hm ha
    exact ⟨h.documents.undo ha, hmembers, h.stacked.undo h.documents h.members.nodup hi hm ha,
      h.numbered.continues (continues_of_undo ha)⟩

private theorem Valid.run (h : f.Valid ds₀ ms) (calls : List Call) :
    (f.run calls).Valid ds₀ ms := by
  induction calls generalizing f with
  | nil => exact h
  | cons c calls ih => exact ih (h.step c)

private theorem valid_start (h₀ : ∀ d ∈ ds₀.documents, d.Fresh)
    (hms : ∀ m ∈ ms, ∃ kind faulty seed ds, Mutation.create kind faulty seed ds = .ok m) :
    (start ds₀ ms).Valid ds₀ ms := by
  refine ⟨.start h₀, accounted_start fun m hm => ?_, fun n => ?_, .nil, fun g hg => ?_⟩
  · obtain ⟨kind, faulty, seed, ds, hcreate⟩ := hms m hm
    exact ⟨(Mutation.create_eq_ok hcreate).1, Mutation.consistent_of_create hcreate⟩
  · change ds₀.inForce n = []
    cases hd : ds₀.documents[n]? with
    | none =>
      rw [DocumentSet.inForce, hd]
      rfl
    | some d => rw [DocumentSet.inForce_eq hd, (h₀ d (List.mem_of_getElem? hd)).edits, List.map_nil]
  · cases hg

section

variable {i : Nat} {m : Mutation}

private theorem Valid.mutate_isOk (h : f.Valid ds₀ ms) (hm : f.members[i]? = some m)
    (hpending : m.stage = .pending) {kind : MutationKind} {faulty : StatementRef}
    {seed : Option StatementRef} {m₀ : Mutation} (hm₀ : ms[i]? = some m₀)
    (hcreate : Mutation.create kind faulty seed ds₀ = .ok m₀) :
    ∃ made, m.mutate f.documents = .ok made := by
  obtain ⟨m₁, hm₁, hcontinues⟩ := (h.members.member i m hm).origin
  obtain rfl : m₀ = m₁ := Option.some.inj (hm₀.symm.trans hm₁)
  obtain ⟨_, _, hfaulty, hseed⟩ := Mutation.create_eq_ok hcreate
  refine Mutation.mutate_of_knows hpending ?_ fun hneeds => ?_
  · rw [hcontinues.faulty]
    exact h.documents.continues.knows hfaulty
  · rw [hcontinues.kind] at hneeds
    obtain ⟨r, hr, hknows⟩ := hseed hneeds
    exact ⟨r, hcontinues.seed.trans hr, h.documents.continues.knows hknows⟩

private theorem Valid.undo_isOk_iff (h : f.Valid ds₀ ms) (hm : f.members[i]? = some m) :
    (∃ undone, m.undo f.documents = .ok undone) ↔ m.isApplied = true ∧
      (m.skipped.isSome = true ∨ m.kind = .null ∨
        ∃ e, m.edit? = some e ∧ (f.documents.inForce m.document).getLast? = some e) := by
  have hconsistent := (h.members.member i m hm).consistent.applied
  rw [Mutation.undo_isOk_iff, Mutation.isApplied, Mutation.edit?]
  cases hstage : m.stage with
  | pending | undone => simp
  | applied edit =>
    have hnone := hconsistent edit hstage
    cases edit with
    | none =>
      rcases hnone.mp rfl with hnull | hskipped
      · simp [hnull]
      · simp [hskipped]
    | some e =>
      obtain ⟨hnull, hskipped⟩ := not_or.mp fun hor => Option.some_ne_none e (hnone.mpr hor)
      simp [hnull, hskipped]

private theorem Valid.undo_of_applied (h : f.Valid ds₀ ms) (hm : f.members[i]? = some m)
    (happlied : m.isApplied = true) : (∃ undone, m.undo f.documents = .ok undone) ∨
      ∃ e path, m.undo f.documents = .error (.undoOutOfOrder e path) := by
  cases hstage : m.stage with
  | pending | undone => simp [Mutation.isApplied, hstage] at happlied
  | applied edit =>
    cases edit with
    | none => exact .inl (Mutation.undo_isOk_iff.mpr (.inl hstage))
    | some e =>
      by_cases hlast : (f.documents.inForce m.document).getLast? = some e
      · exact .inl (Mutation.undo_isOk_iff.mpr (.inr ⟨e, hstage, hlast⟩))
      -- its edit is in force, so there is a document to name
      have hmem : e ∈ f.documents.inForce m.document := by
        rw [h.stacked, List.mem_filterMap]
        refine ⟨i, (h.members.member i m hm).made.mpr (by simp [hstage]), ?_⟩
        rw [editOn?_eq hm, Mutation.editOn?, if_pos rfl, Mutation.edit?, hstage]
      cases hd : f.documents.documents[m.document]? with
      | none => simp [DocumentSet.inForce, hd] at hmem
      | some d => exact .inr ⟨e, d.path, Mutation.undo_of_not_last hstage hd hlast⟩

/-- A member is not made, or not any more. -/
def Idle (f : Family) (i : Nat) : Prop := ∀ m, f.members[i]? = some m → m.isApplied = false

private theorem Idle.editOn? (h : f.Idle i) (n : Nat) : Family.editOn? f.members n i = none := by
  cases hm : f.members[i]? with
  | none => rw [Family.editOn?, hm, Option.bind_none]
  | some m =>
    have hidle := h m hm
    rw [editOn?_eq hm, Mutation.editOn?, Mutation.edit?]
    cases hstage : m.stage <;> simp [Mutation.isApplied, hstage] at hidle ⊢

private theorem Valid.isPristine (h : f.Valid ds₀ ms)
    (hidle : ∀ m ∈ f.members, m.isApplied = false) :
    f.documents.isPristine = true := by
  refine h.documents.isPristine fun n => ?_
  rw [h.stacked, List.filterMap_eq_nil_iff]
  exact fun i _ => Idle.editOn? (fun m hm => hidle m (List.mem_of_getElem? hm)) n

private theorem idle_of_undo {m' : Mutation} {ds : DocumentSet} (hm : f.members[i]? = some m)
    (ha : m.undo f.documents = .ok (m', ds)) : (f.step (.undo i)).Idle i := by
  intro n hn
  simp only [Family.step, hm, ha] at hn
  rw [← Option.some.inj ((set_member hm m').symm.trans hn), Mutation.isApplied,
    (Mutation.stage_of_undo ha).2]

private theorem Idle.undo {j : Nat} (h : f.Idle j) (i : Nat) : (f.step (.undo i)).Idle j := by
  rcases step_cases f (.undo i) with hc | ⟨_, _, _, _, hcall, _⟩ | ⟨k, m, m', ds, hcall, hm, ha, hc⟩
  · rwa [hc]
  · cases hcall
  · obtain rfl := Call.undo.inj hcall
    by_cases hij : i = j
    · exact hij ▸ idle_of_undo hm ha
    · rw [hc]
      exact fun n hn => h n ((List.getElem?_set_ne hij).symm.trans hn)

private theorem made_undo (f : Family) (i : Nat) : (f.step (.undo i)).made = f.made := by
  rcases step_cases f (.undo i) with hc | ⟨_, _, _, _, hcall, _⟩ | ⟨_, _, _, _, _, _, _, hc⟩
  · rw [hc]
  · cases hcall
  · rw [hc]

private theorem Valid.idle_undo (h : f.Valid ds₀ ms) {xs ys : List Nat}
    (hmade : f.made = xs ++ i :: ys) (hys : ∀ j ∈ ys, f.Idle j) :
    (f.step (.undo i)).Idle i := by
  by_cases hi : f.Idle i
  · exact hi.undo i
  obtain ⟨m, hm, happlied⟩ : ∃ m, f.members[i]? = some m ∧ m.isApplied = true := by
    simpa [Idle] using hi
  -- nothing is in force above the edit of the member
  have hlater : ys.filterMap (editOn? f.members m.document) = [] :=
    List.filterMap_eq_nil_iff.mpr fun j hj => (hys j hj).editOn? _
  have hundo : ∃ undone, m.undo f.documents = .ok undone := by
    refine Mutation.undo_isOk_iff.mpr ?_
    cases hstage : m.stage with
    | pending | undone => simp [Mutation.isApplied, hstage] at happlied
    | applied edit =>
      cases edit with
      | none => exact .inl rfl
      | some e =>
        have hi : editOn? f.members m.document i = some e := by
          rw [editOn?_eq hm, Mutation.editOn?, if_pos rfl, Mutation.edit?, hstage]
        refine .inr ⟨e, rfl, ?_⟩
        rw [h.stacked, hmade, List.filterMap_append, List.filterMap_cons_some hi, hlater,
          List.getLast?_concat]
  obtain ⟨⟨m', ds⟩, ha⟩ := hundo
  exact idle_of_undo hm ha

private theorem Valid.idle_undoAll (xs : List Nat) (h : f.Valid ds₀ ms) {ys : List Nat}
    (hmade : f.made = xs ++ ys) (hys : ∀ j ∈ ys, f.Idle j) :
    ∀ j ∈ (f.run (xs.reverse.map .undo)).made, (f.run (xs.reverse.map .undo)).Idle j := by
  induction xs using List.reverseRecOn generalizing f ys with
  | nil =>
    intro j hj
    change j ∈ f.made at hj
    rw [hmade, List.nil_append] at hj
    exact hys j hj
  | append_singleton xs i ih =>
    rw [List.reverse_append, List.reverse_singleton, List.singleton_append, List.map_cons]
    rw [List.append_assoc, List.singleton_append] at hmade
    refine ih (h.step (.undo i)) ((made_undo f i).trans hmade) fun j hj => ?_
    rcases List.mem_cons.mp hj with rfl | hj
    · exact h.idle_undo hmade hys
    · exact (hys j hj).undo i

private theorem Valid.isPristine_undoAll (h : f.Valid ds₀ ms) :
    (f.run (f.made.reverse.map .undo)).documents.isPristine = true := by
  have hrun := h.run (f.made.reverse.map .undo)
  have hidle := h.idle_undoAll f.made (List.append_nil _).symm
    fun j hj => absurd hj List.not_mem_nil
  refine hrun.isPristine fun m hm => ?_
  obtain ⟨i, hi⟩ := List.mem_iff_getElem?.mp hm
  by_cases hmade : i ∈ (f.run (f.made.reverse.map .undo)).made
  · exact hidle i hmade m hi
  · have hpending := not_not.mp fun hne => hmade ((hrun.members.member i m hi).made.mpr hne)
    rw [Mutation.isApplied, hpending]

end

/-- Mutations that were created on any documents are made and undone on documents without edits, in
any order. In each document the edits in force are at all times those of the members that are made,
in the order in which they were made, and no number is given twice. An undo succeeds if and only if
its mutation is made and is null, was skipped or is the latest on its document. A call that fails
says why and leaves everything as it is. Where nothing is made any more the documents are pristine,
and undos in reverse order lead there from everywhere. -/
theorem run_lifecycle {ds₀ : DocumentSet} {ms : List Mutation}
    (h₀ : ∀ d ∈ ds₀.documents, d.Fresh)
    (hms : ∀ m ∈ ms, ∃ kind faulty seed ds, Mutation.create kind faulty seed ds = .ok m)
    (calls : List Call) :
    let f := (start ds₀ ms).run calls
    (f.made.Nodup ∧ ∀ n, f.documents.inForce n = f.made.filterMap (editOn? f.members n)) ∧
    (f.given.Nodup ∧ ∀ n e, (n, e) ∈ f.given →
      ∀ d₀, ds₀.documents[n]? = some d₀ → d₀.nextEdit ≤ e) ∧
    (∀ i m, f.members[i]? = some m →
      (m.stage ≠ .pending → m.mutate f.documents = .error (.mutationState .madeTwice)) ∧
      (m.stage = .pending → ∀ kind faulty seed m₀, ms[i]? = some m₀ →
        Mutation.create kind faulty seed ds₀ = .ok m₀ → ∃ made, m.mutate f.documents = .ok made) ∧
      ((∃ undone, m.undo f.documents = .ok undone) ↔ m.isApplied = true ∧
        (m.skipped.isSome = true ∨ m.kind = .null ∨
          ∃ e, m.edit? = some e ∧ (f.documents.inForce m.document).getLast? = some e)) ∧
      (m.isApplied = false → m.undo f.documents = .error (.mutationState .undoneUnmade)) ∧
      (m.isApplied = true → (∃ undone, m.undo f.documents = .ok undone) ∨
        ∃ e path, m.undo f.documents = .error (.undoOutOfOrder e path)) ∧
      (∀ error, m.mutate f.documents = .error error → f.step (.mutate i) = f) ∧
      ∀ error, m.undo f.documents = .error error → f.step (.undo i) = f) ∧
    ((∀ m ∈ f.members, m.isApplied = false) → f.documents.isPristine = true) ∧
    (f.run (f.made.reverse.map .undo)).documents.isPristine = true := by
  have h := (valid_start h₀ hms).run calls
  refine ⟨⟨h.members.nodup, h.stacked⟩, ⟨h.numbered.nodup, ?_⟩, ?_, h.isPristine,
    h.isPristine_undoAll⟩
  · intro n e hg
    obtain ⟨_, _, _, habove⟩ := h.numbered.within (n, e) hg
    exact habove
  · intro i m hm
    exact ⟨Mutation.mutate_of_not_pending,
      fun hpending _ _ _ _ hm₀ hcreate => h.mutate_isOk hm hpending hm₀ hcreate,
      h.undo_isOk_iff hm, Mutation.undo_of_not_applied, h.undo_of_applied hm,
      fun _ => step_mutate_of_error hm, fun _ => step_undo_of_error hm⟩

/-- Two mutations of nested statements, the outer one undone too early and the inner one made
twice. -/
theorem run_lifecycle_nested : ∃ inner outer,
    Mutation.create .deletion ⟨0, 1⟩ none ⟨[.nested]⟩ = .ok inner ∧
    Mutation.create .replacement ⟨0, 0⟩ (some ⟨0, 2⟩) ⟨[.nested]⟩ = .ok outer ∧
    let f := (start ⟨[.nested]⟩ [inner, outer]).run [.mutate 0, .mutate 1, .undo 0, .mutate 0]
    f.documents.inForce 0 = f.made.filterMap (editOn? f.members 0) ∧ f.given.Nodup ∧
      (f.run (f.made.reverse.map .undo)).documents.isPristine = true := by
  obtain ⟨inner, hinner⟩ : ∃ m, Mutation.create .deletion ⟨0, 1⟩ none ⟨[.nested]⟩ = .ok m :=
    ⟨_, rfl⟩
  obtain ⟨outer, houter⟩ : ∃ m,
    Mutation.create .replacement ⟨0, 0⟩ (some ⟨0, 2⟩) ⟨[.nested]⟩ = .ok m := ⟨_, rfl⟩
  have h₀ : ∀ d ∈ (⟨[.nested]⟩ : DocumentSet).documents, d.Fresh := by
    intro d hd
    rw [List.mem_singleton.mp hd]
    exact Document.nested_fresh
  have hms : ∀ m ∈ [inner, outer], ∃ kind faulty seed ds,
      Mutation.create kind faulty seed ds = .ok m := by
    intro m hm
    rcases List.mem_pair.mp hm with rfl | rfl
    · exact ⟨_, _, _, _, hinner⟩
    · exact ⟨_, _, _, _, houter⟩
  obtain ⟨⟨_, hforce⟩, ⟨hgiven, _⟩, _, _, hback⟩ :=
    run_lifecycle h₀ hms [.mutate 0, .mutate 1, .undo 0, .mutate 0]
  exact ⟨inner, outer, hinner, houter, hforce 0, hgiven, hback⟩

end Family

end RepairSearch
