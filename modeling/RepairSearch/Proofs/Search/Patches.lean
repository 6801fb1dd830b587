import RepairSearch.Proofs.Mutation.Description
import RepairSearch.Proofs.Search.Rollback
import RepairSearch.Proofs.Search.Trace

/-!
# The patches of a recorded program

What is recorded describes itself. Its patches name the mutations that its candidate has kept, and
the edits in force are those that these mutations have made: a mutation that is not kept is undone
before the next one is made, and a candidate leaves nothing to the next.
-/

namespace RepairSearch

open Search

/-- A program was found with the mutations that its candidate has kept, each with its generation.
Their texts are what it publishes: a line for the generation, the description, and a line for a
mutation that left the texts as they were. -/
structure FoundPatch.ExplainedBy (found : FoundPatch) (recursion : RecursionPolicy)
    (kept : List (Nat × Mutation)) : Prop where
  mutations : found.mutations = kept.map fun (g, m) =>
    s!"Candidate {found.candidate}, Generation {g}\n" ++ (m.description ++
      match m.skipped with
      | some .notInBlock => "  (skipped: parent is not a block)\n"
      | some .targetRemoved => "  (skipped: target already removed)\n"
      | none => "")
  described : ∀ m ∈ kept.map (·.2), m.Described found.documents
  increasing : (kept.map (·.1)).Pairwise (· < ·)
  last : (kept.map (·.1)).getLast? = some found.generation
  inForce : ∀ n, found.documents.inForce n = Mutation.editsOn n (kept.map (·.2))
  complete : recursion = .stopWhenExhausted → kept.map (·.1) = List.range' 1 found.generation

namespace Search

/-- What is recorded is explained by what has happened before. -/
def Event.Explained (recursion : RecursionPolicy) (e : Event) (earlier : List Event) : Prop :=
  match e with
  | .recorded found _ => ∃ kept, underway earlier = some (found.candidate, kept) ∧
      found.ExplainedBy recursion kept
  | _ => True

private theorem Event.OfGeneration.explained {e : Event} (h : e.OfGeneration)
    (recursion : RecursionPolicy) (earlier : List Event) : e.Explained recursion earlier := by
  cases e with
  | recorded found answer => exact h.elim
  | _ => trivial

/-- Nothing is in force, as it is between candidates. -/
structure Controller.Clean {σ W : Type} (recursion : RecursionPolicy) (c : Controller σ W) :
    Prop where
  policy : c.settings.recursion = recursion
  reachable : c.documents.Reachable
  patches : c.patches = []
  inForce : ∀ n, c.documents.inForce n = []

namespace State

variable {σ W κ : Type}

/-- All that has been recorded is explained. -/
def Explained (recursion : RecursionPolicy) (s : State σ W κ) : Prop :=
  Event.Throughout (Event.Explained recursion) s.history

/-- The patches and the edits in force are those of the mutations that the candidate has kept in the
generations before a number. -/
structure Aligned (recursion : RecursionPolicy) (candidate : Nat) (kept : List (Nat × Mutation))
    (number : Nat) (s : State σ W κ) : Prop where
  policy : s.controller.settings.recursion = recursion
  underway : Event.underway s.history = some (candidate, kept)
  patches : s.controller.patches = kept.map fun (g, m) => Step.patchText candidate g m
  described : ∀ m ∈ kept.map (·.2), m.Described s.controller.documents
  inForce : ∀ n, s.controller.documents.inForce n = Mutation.editsOn n (kept.map (·.2))
  increasing : (kept.map (·.1)).Pairwise (· < ·)
  below : ∀ g ∈ kept.map (·.1), g < number
  complete : recursion = .stopWhenExhausted → kept.map (·.1) = List.range' 1 (number - 1)

variable {s s' : State σ W κ} {recursion : RecursionPolicy} {candidate number : Nat}
  {kept : List (Nat × Mutation)}

private theorem Explained.silent (hs : s.Explained recursion) (h : s.Silent s') :
    s'.Explained recursion := by
  rw [Explained, h.history]
  exact hs

private theorem Explained.writes (hs : s.Explained recursion) (h : s.Writes Event.OfGeneration s') :
    s'.Explained recursion := by
  obtain ⟨es, hes, hkind⟩ := h
  rw [Explained, hes]
  clear hes
  induction es with
  | nil => exact hs
  | cons e es ih =>
    refine Event.throughout_cons.mpr ⟨(hkind e List.mem_cons_self).explained _ _, ?_⟩
    exact ih fun f hf => hkind f (List.mem_cons_of_mem _ hf)

private theorem Aligned.silent (hs : s.Aligned recursion candidate kept number) (h : s.Silent s') :
    s'.Aligned recursion candidate kept number :=
  ⟨h.settings ▸ hs.policy, h.history ▸ hs.underway, h.patches ▸ hs.patches,
    h.documents ▸ hs.described, h.documents ▸ hs.inForce, hs.increasing, hs.below, hs.complete⟩

private theorem Aligned.restored (hs : s.Aligned recursion candidate kept number)
    (h : s.Restored s')
    (hw : s.Writes Event.OfGeneration s') : s'.Aligned recursion candidate kept number := by
  obtain ⟨es, hes, hkind⟩ := hw
  refine ⟨h.settings ▸ hs.policy, ?_, h.patches ▸ hs.patches, ?_, ?_, hs.increasing, hs.below,
    hs.complete⟩
  · rw [hes, Event.underway_append hkind, hs.underway]
  · exact fun m hm => (hs.described m hm).of_sources (DocumentSet.sources_of_content h.content)
  · intro n
    rw [DocumentSet.inForce_of_content h.content, hs.inForce]

private theorem Aligned.skip (hs : s.Aligned recursion candidate kept number)
    (hgo : s.controller.settings.recursion ≠ .stopWhenExhausted) :
    s.Aligned recursion candidate kept (number + 1) :=
  ⟨hs.policy, hs.underway, hs.patches, hs.described, hs.inForce, hs.increasing,
    fun g hg => Nat.lt_succ_of_lt (hs.below g hg), fun h => absurd (hs.policy.trans h) hgo⟩

private theorem Restored.clean (h : s.Restored s') (hs : s.controller.Clean recursion) :
    s'.controller.Clean recursion := by
  refine ⟨h.settings ▸ hs.policy, h.reachable, h.patches.trans hs.patches, fun n => ?_⟩
  rw [DocumentSet.inForce_of_content h.content, hs.inForce]

private theorem aligned_of_clean (hs : s.controller.Clean recursion)
    (hu : Event.underway s.history = some (candidate, [])) : s.Aligned recursion candidate [] 1 :=
  ⟨hs.policy, hu, hs.patches, fun _ hm => absurd hm List.not_mem_nil, hs.inForce, .nil,
    fun _ hg => absurd hg List.not_mem_nil, fun _ => rfl⟩

private theorem Aligned.keep {m : Mutation} (hs : s.Aligned recursion candidate kept number)
    (hnumber : 0 < number) (h : s.Made m s') (hm : m.Described s'.controller.documents)
    (hw : s.Writes Event.OfGeneration s') (status : Int) :
    Aligned recursion candidate (kept ++ [(number, m)]) (number + 1)
      { s' with
        controller := { s'.controller with
          patches := s'.controller.patches ++ [Step.patchText candidate number m] }
        history := .kept number m status :: s'.history } := by
  obtain ⟨es, hes, hkind⟩ := hw
  refine ⟨h.settings ▸ hs.policy, Event.underway_kept ?_ number m status, ?_, ?_, ?_, ?_, ?_, ?_⟩
  · rw [hes, Event.underway_append hkind, hs.underway]
  · rw [h.patches, hs.patches, List.map_append]
    rfl
  · intro m' hm'
    rw [List.map_append, List.mem_append] at hm'
    rcases hm' with hm' | hm'
    · exact (hs.described m' hm').of_sources (h.undoes.sources h.reachable)
    · exact List.mem_singleton.mp hm' ▸ hm
  · intro n
    rw [h.inForce, hs.inForce, List.map_append]
    exact (Mutation.editsOn_concat n _ m).symm
  · rw [List.map_append, List.pairwise_append]
    refine ⟨hs.increasing, List.pairwise_singleton _ _, ?_⟩
    intro g hg g' hg'
    rw [List.mem_singleton.mp hg']
    exact hs.below g hg
  · intro g hg
    rw [List.map_append, List.mem_append] at hg
    rcases hg with hg | hg
    · exact Nat.lt_succ_of_lt (hs.below g hg)
    · rw [List.mem_singleton.mp hg]
      exact Nat.lt_succ_self number
  · -- every generation before this one has kept a mutation
    intro hstop
    rw [List.map_append, hs.complete hstop]
    obtain ⟨k, rfl⟩ := Nat.exists_eq_add_of_lt hnumber
    simp [List.range'_1_concat, Nat.add_comm]

private theorem Aligned.explainedBy (hs : s.Aligned recursion candidate kept (number + 1))
    (hlast : (kept.map (·.1)).getLast? = some number) :
    FoundPatch.ExplainedBy ⟨candidate, number, s.controller.patches, s.controller.documents⟩
      recursion kept :=
  ⟨hs.patches, hs.described, hs.increasing, hlast, hs.inForce, hs.complete⟩

end State

namespace Step

open State

variable {σ W κ : Type} {s : State σ W κ} {recursion : RecursionPolicy} {candidate number : Nat}
  {kept : List (Nat × Mutation)} (env : Collaborators κ)

private theorem record_explained (hs : s.Aligned recursion candidate kept (number + 1))
    (he : s.Explained recursion) (hlast : (kept.map (·.1)).getLast? = some number) :
    (record env candidate number).Ensures s fun r s' => r = .ok () ∧
      s'.Aligned recursion candidate kept (number + 1) ∧ s'.Explained recursion := by
  refine (record_silent env candidate number s).mono ?_
  rintro r s₁ ⟨rfl, answer, h₁⟩
  refine ⟨rfl, Aligned.silent ?_ h₁, Explained.silent ?_ h₁⟩
  · exact ⟨hs.policy, hs.underway, hs.patches, hs.described, hs.inForce, hs.increasing, hs.below,
      hs.complete⟩
  · exact Event.throughout_cons.mpr ⟨⟨kept, hs.underway, hs.explainedBy hlast⟩, he⟩

private theorem keep_explained {s₀ : State σ W κ} {m : Mutation}
    (hs : s₀.Aligned recursion candidate kept number) (hnumber : 0 < number)
    (hm : s₀.Made m s) (hd : m.Described s.controller.documents)
    (hw : s₀.Writes Event.OfGeneration s)
    (he : s.Explained recursion) (status : Int) :
    (keep env candidate number m status).Ensures s fun r s' => r = .ok () ∧
      s'.Aligned recursion candidate (kept ++ [(number, m)]) (number + 1) ∧
      s'.Explained recursion := by
  have haligned := hs.keep hnumber hm hd hw status
  have hkept : Event.Throughout (Event.Explained recursion)
      (.kept number m status :: s.history) := Event.throughout_cons.mpr ⟨trivial, he⟩
  refine ensures_bind (ensures_note (ensures_bind (ensures_change ?_)))
  dsimp only
  split
  · exact record_explained env haligned hkept (by simp)
  · exact ensures_pure ⟨rfl, haligned, hkept⟩

private theorem mutate_described {m : Mutation} (hm : m.Described s.controller.documents) :
    (mutate m : Step σ W κ Mutation).Ensures s fun r s' =>
      ∀ m', r = .ok m' → m'.Described s'.controller.documents := by
  refine ensures_bind (ensures_ask (ensures_bind (ensures_ofExcept ?_)))
  rcases h : m.mutate s.controller.documents with e | ⟨m', ds⟩
  · exact fun _ h => nomatch h
  · refine ensures_bind (ensures_change (ensures_bind (ensures_note (ensures_pure ?_))))
    rintro _ ⟨⟩
    exact hm.mutate h

section

variable [Weight W] [RandomSource σ W]

private theorem drawMutation_described (kind : MutationKind) :
    (drawMutation kind : Step σ W κ Mutation).Ensures s fun r s' =>
      ∀ m, r = .ok m → m.Described s'.controller.documents := by
  -- a mutation is created from the documents as they then are, whatever was drawn before
  have hcreate (faulty : StatementRef) (seed : Step σ W κ (Option StatementRef))
      (s : State σ W κ) : (seed >>= fun r => ask (·.documents) >>= fun ds =>
        MonadExcept.ofExcept (Mutation.create kind faulty r ds)).Ensures s fun r s' =>
          ∀ m, r = .ok m → m.Described s'.controller.documents := by
    refine ensures_bind (ensures_any ?_)
    rintro (e | r) s₁
    · exact fun _ h => nomatch h
    · exact ensures_bind (ensures_ask (ensures_ofExcept fun m hm =>
        Mutation.described_of_create hm))
  refine ensures_bind (ensures_any ?_)
  rintro (e | faulty) s₁
  · exact fun _ h => nomatch h
  · dsimp only
    split <;> exact hcreate faulty _ s₁

private theorem tryMutations_described (kind : MutationKind) (n : Nat)
    (hreach : s.controller.documents.Reachable) :
    (tryMutations env kind n).Ensures s fun r s' =>
      ∀ m status, r = .ok (.kept m status) → m.Described s'.controller.documents := by
  induction n generalizing s with
  | zero => exact ensures_pure fun _ _ h => nomatch h
  | succ n ih =>
    refine ensures_bind (((Restoring.ensures ((restores env).drawMutation kind) hreach).and
      (drawMutation_described kind)).mono ?_)
    rintro (e | m) s₁ ⟨h₁, hm⟩
    · exact fun _ _ h => nomatch h
    refine ensures_bind (((mutate_ensures m h₁.reachable).and
      (mutate_described (hm m rfl))).mono ?_)
    rintro (e | m) s₂ ⟨h₂, hm⟩
    · exact fun _ _ h => nomatch h
    refine ensures_bind ((tell_restored env _ h₂.reachable).mono ?_)
    rintro r s₃ ⟨rfl, h₃⟩
    refine ensures_bind (ensures_attempted ((Restoring.ensures ((restores env).attempt m)
      h₃.reachable).mono ?_))
    intro r s₄ h₄
    have hmade : s₁.Made m s₄ := (h₂.restored h₃).restored h₄
    rcases r with e | _ | status
    · refine ensures_bind (ensures_attempted ((undo_ensures hmade).mono ?_))
      rintro r s₅ ⟨rfl, h₅⟩
      exact ensures_throw fun _ _ h => nomatch h
    · refine ensures_bind ((undo_ensures hmade).mono ?_)
      rintro r s₅ ⟨rfl, h₅⟩
      exact ih h₅.reachable
    · refine ensures_pure ?_
      rintro _ _ ⟨⟩
      exact (hm m rfl).of_sources (DocumentSet.sources_of_content (h₃.trans h₄).content)

private theorem generation_described (hreach : s.controller.documents.Reachable) :
    (generation env).Ensures s fun r s' =>
      ∀ m status, r = .ok (.kept m status) → m.Described s'.controller.documents := by
  refine ensures_bind ((Restoring.ensures (restores env).chooseKind hreach).mono ?_)
  rintro (e | kind) s₁ h₁
  · exact fun _ _ h => nomatch h
  exact ensures_bind (ensures_ask (tryMutations_described env kind _ h₁.reachable))

private theorem descend_explained (left : Nat) (hs : s.Aligned recursion candidate kept number)
    (hnumber : 0 < number) (hreach : s.controller.documents.Reachable)
    (he : s.Explained recursion) :
    (descend env candidate left number).Ensures s fun _ s' => s'.Explained recursion := by
  induction left generalizing s number kept with
  | zero => exact ensures_pure he
  | succ left ih =>
    refine ensures_bind (ensures_ask (ensures_bind ((tell_silent env _).mono ?_)))
    rintro r s₁ ⟨rfl, h₁⟩
    replace hs := hs.silent h₁
    replace he := he.silent h₁
    replace hreach : s₁.controller.documents.Reachable := h₁.documents ▸ hreach
    refine ensures_bind (ensures_attempted (((generation_ensures env hreach).and
      ((generation_writes env s₁).and (generation_described env hreach))).mono ?_))
    rintro (e | ⟨m, status⟩ | _) s₂ ⟨h₂, hw, hd⟩
    · exact ensures_bind (ensures_note (ensures_pure
        (Event.throughout_cons.mpr ⟨trivial, he.writes hw⟩)))
    · refine ensures_bind (((keep_ensures env candidate number m status h₂.reachable).and
        (keep_explained env hs hnumber h₂ (hd m status rfl) hw (he.writes hw) status)).mono ?_)
      rintro r s₃ ⟨⟨rfl, h₃⟩, _, hs₃, he₃⟩
      refine ensures_bind (((descend_ensures env candidate left (number + 1) h₃.reachable).and
        (ih hs₃ (Nat.succ_pos _) h₃.reachable he₃)).mono ?_)
      rintro r s₄ ⟨⟨⟨failure, rfl⟩, h₄⟩, he₄⟩
      refine ensures_bind (ensures_change ?_)
      -- the generations below have left what the mutation of this one made
      have hpopped := (h₃.trans h₄).popPatch
      refine ensures_bind (((undo_ensures (h₂.restored hpopped)).and
        (undo_writes m _)).mono ?_)
      rintro r s₅ ⟨⟨rfl, h₅⟩, hw₅⟩
      exact ensures_pure (Explained.writes he₄ hw₅)
    · refine ensures_bind (ensures_ask ?_)
      dsimp only
      split
      · exact ensures_pure (he.writes hw)
      · rename_i hgo
        exact ih ((hs.restored h₂ hw).skip hgo) (Nat.succ_pos _) h₂.reachable
          (he.writes hw)

private theorem candidate_explained (hs : s.Aligned recursion number [] 1)
    (hreach : s.controller.documents.Reachable) (he : s.Explained recursion) :
    (Step.candidate env number).Ensures s fun _ s' => s'.Explained recursion := by
  refine ensures_bind (ensures_ask (ensures_bind
    ((descend_explained env _ hs Nat.one_pos hreach he).mono ?_)))
  rintro (e | _ | e) s₁ h₁
  · exact h₁
  · exact ensures_pure h₁
  · refine ((Silent.neutral.bind ((Silent.outward env).tell _) fun _ =>
      Silent.neutral.count ?_) s₁).mono ?_
    · exact fun _ => rfl
    · exact fun _ _ h => h₁.silent h

private theorem candidates_explained (left number : Nat) (hs : s.controller.Clean recursion)
    (he : s.Explained recursion) :
    (candidates env left number).Ensures s fun _ s' => s'.Explained recursion := by
  induction left generalizing s number with
  | zero => exact ensures_pure he
  | succ left ih =>
    refine ensures_bind (ensures_ask (ensures_bind ((tell_silent env _).mono ?_)))
    rintro r s₁ ⟨rfl, h₁⟩
    have he₁ := he.silent h₁
    refine ensures_bind (ensures_change (ensures_bind (ensures_ask (ensures_bind
      (ensures_note ?_)))))
    generalize hs₂ : ({ s₁ with controller := _, history := _ } : State σ W κ) = s₂
    have hclean : s₂.controller.Clean recursion := by
      rw [← hs₂]
      exact ⟨h₁.settings ▸ hs.policy, h₁.documents ▸ hs.reachable, h₁.patches ▸ hs.patches,
        h₁.documents ▸ hs.inForce⟩
    have hbegan : s₂.Explained recursion := by
      rw [← hs₂]
      exact Event.throughout_cons.mpr ⟨trivial, he₁⟩
    have haligned : s₂.Aligned recursion number [] 1 := aligned_of_clean hclean (by rw [← hs₂]; rfl)
    refine ensures_bind (((candidate_ensures env number hclean.reachable).and
      (candidate_explained env haligned hclean.reachable hbegan)).mono ?_)
    rintro r s₃ ⟨⟨rfl, h₃⟩, he₃⟩
    refine ensures_bind (ensures_ask (ensures_bind (ensures_note
      (ih (number + 1) (h₃.clean hclean) ?_))))
    exact Event.throughout_cons.mpr ⟨trivial, he₃⟩

private theorem repair_explained (hs : s.controller.Clean recursion) (he : s.Explained recursion) :
    (repair env).Ensures s fun _ s' => s'.Explained recursion := by
  refine ensures_bind (ensures_ask (ensures_bind ((candidates_explained env _ 1 hs he).mono ?_)))
  rintro (e | _) s₁ h₁
  · exact h₁
  · exact ensures_ask h₁

end

end Step

namespace Controller

variable {σ W κ : Type}

private theorem clean_of_isPristine {c : Controller σ W} (hreach : c.documents.Reachable)
    (hpristine : c.documents.isPristine = true) (hpatches : c.patches = []) :
    c.Clean c.settings.recursion := by
  refine ⟨rfl, hreach, hpatches, fun n => ?_⟩
  rw [DocumentSet.inForce]
  cases hd : c.documents.documents[n]? with
  | none => rfl
  | some d =>
    have hempty := List.all_eq_true.mp hpristine d (List.mem_of_getElem? hd)
    rw [Bool.and_eq_true, List.isEmpty_iff] at hempty
    simp [hempty.1]

variable [Weight W] [RandomSource σ W]

/-- Whenever a repair from pristine documents records a program, its patches and the edits in force
in its documents are those of the mutations that its candidate has kept so far. The generations that
have kept them go up to that of the program, and are all up to it if the search stops where nothing
is kept. -/
theorem repair_recorded_explained (c : Controller σ W) (env : Collaborators κ) (outside : κ)
    (hreach : c.documents.Reachable) (hpristine : c.documents.isPristine = true)
    (hpatches : c.patches = []) :
    ∀ later found answer earlier,
      (c.execute (Step.repair env) outside).2.history =
        later ++ .recorded found answer :: earlier →
      ∃ kept, Event.underway earlier = some (found.candidate, kept) ∧
        found.ExplainedBy c.settings.recursion kept := by
  intro later found answer earlier hes
  have hclean := clean_of_isPristine hreach hpristine hpatches
  exact Step.repair_explained env (s := ⟨c, outside, []⟩) hclean (Event.throughout_nil _) later
    (.recorded found answer) earlier hes

/-- Two programs are recorded. The later one has two mutations, of which the second one has found
that its statement was gone. -/
theorem pair_explained : pair.documents.isPristine = true ∧
    (pair.execute (Step.repair counting) 0).2.history.filterMap
      (fun | .recorded found _ => some found.mutations | _ => none) =
      [["Candidate 3, Generation 1\nReplacement mutation\n  faulty: a.py:3\n    b()\n" ++
          "  seed: a.py:2\n    a()\n",
        "Candidate 3, Generation 2\nDeletion mutation\n  faulty: a.py:3\n    b()\n" ++
          "  (skipped: target already removed)\n"],
        ["Candidate 1, Generation 1\nAddition mutation\n  faulty: a.py:3\n    b()\n" ++
          "  seed: a.py:2\n    a()\n"]] ∧
    ∀ later found answer earlier,
      (pair.execute (Step.repair counting) 0).2.history =
        later ++ .recorded found answer :: earlier →
      ∃ kept, Event.underway earlier = some (found.candidate, kept) ∧
        found.ExplainedBy .always kept :=
  ⟨rfl, by decide +kernel, repair_recorded_explained pair counting 0 single_reachable rfl rfl⟩

end Controller

end Search

end RepairSearch
