import RepairSearch.Proofs.Search.Step

/-!
# Quiet searches

A quiet search tells nothing. So what is true of the world outside and stays true when it is
checked, logged, compiled, tested and recorded is true when the search is over.
-/

namespace RepairSearch.Search

variable {σ W κ : Type}

/-- Whatever is asked of the collaborators, a property of the world outside stays. -/
structure Collaborators.Preserves (env : Collaborators κ) (P : κ → Prop) : Prop where
  checkScope : ∀ d k, P k → P (env.checkScope d k).2
  appendLog : ∀ text k, P k → P (env.appendLog text k).2
  compile : ∀ ds k, P k → P (env.compile ds k).2
  runTests : ∀ k, P k → P (env.runTests k).2
  record : ∀ found k, P k → P (env.record found k).2

private theorem Collaborators.Preserves.answers {env : Collaborators κ} {P : κ → Prop}
    (henv : env.Preserves P) {k k' : κ} (h : env.Answers k k') (hP : P k) : P k' := by
  cases h with
  | checkScope d => exact henv.checkScope d k hP
  | appendLog text => exact henv.appendLog text k hP
  | compile ds => exact henv.compile ds k hP
  | runTests => exact henv.runTests k hP
  | record found => exact henv.record found k hP

namespace State

/-- The search is quiet, and the world outside has a property. -/
def Undisturbed (P : κ → Prop) (s : State σ W κ) : Prop :=
  s.controller.settings.quiet = true ∧ P s.outside

/-- What was undisturbed is so afterwards. -/
def Undisturbing (P : κ → Prop) (s s' : State σ W κ) : Prop := s.Undisturbed P → s'.Undisturbed P

variable {env : Collaborators κ} {P : κ → Prop}

private theorem Undisturbing.outward (henv : env.Preserves P) :
    Outward env (Undisturbing P : State σ W κ → State σ W κ → Prop) where
  refl _ hs := hs
  trans h h' hs := h' (h hs)
  asked _ _ hk hs := ⟨hs.1, henv.answers hk hs.2⟩
  told _ _ hloud hs := absurd hs.1 (by simp [hloud])

private theorem Undisturbing.inert (henv : env.Preserves P) :
    Inert env (Undisturbing P : State σ W κ → State σ W κ → Prop) where
  toOutward := outward henv
  controller _ _ _ _ hsettings _ hs := ⟨hsettings ▸ hs.1, hs.2⟩
  choice _ _ _ hs := hs
  trial _ _ _ hs := hs

private theorem Undisturbing.steady (henv : env.Preserves P) :
    Steady env (Undisturbing P : State σ W κ → State σ W κ → Prop) where
  toOutward := outward henv
  controller _ _ _ hsettings _ _ hs := ⟨hsettings ▸ hs.1, hs.2⟩
  note _ _ _ hs := hs

variable [Weight W] [RandomSource σ W]

private theorem Undisturbing.repair (henv : env.Preserves P) :
    (Step.repair env : Step σ W κ Stats).Keeps (Undisturbing P) := by
  have h := Undisturbing.steady (σ := σ) (W := W) henv
  have hmutate := h.toChained.mutate (fun _ _ hs => hs) fun _ _ hs => hs
  exact h.repair ((Undisturbing.inert henv).generation hmutate h.undo)

end State

/-- What the collaborators of a quiet search preserve is true when the search is over. -/
theorem Controller.repair_preserves [Weight W] [RandomSource σ W] {env : Collaborators κ}
    {P : κ → Prop} (henv : env.Preserves P) {c : Controller σ W}
    (hquiet : c.settings.quiet = true) {outside : κ} (hP : P outside) :
    P (c.repair env outside).2.2 :=
  (State.Undisturbing.repair henv ⟨c, outside, []⟩ ⟨hquiet, hP⟩).2

namespace Step

variable {α β : Type} {c c' c'' : Controller σ W} {k k' k'' : κ} {x : Step σ W κ α} {a : α}

/-- Whatever is on record, the step answers and takes the controller and the world outside to
others. -/
def Yields (x : Step σ W κ α) (c : Controller σ W) (k : κ) (a : α) (c' : Controller σ W)
    (k' : κ) : Prop :=
  ∀ history, ∃ history', x.exec ⟨c, k, history⟩ = (.ok a, ⟨c', k', history'⟩)

namespace Yields

private theorem bind {f : α → Step σ W κ β} {b : β} (hx : x.Yields c k a c' k')
    (hf : (f a).Yields c' k' b c'' k'') : (x >>= f).Yields c k b c'' k'' := by
  intro history
  obtain ⟨history', hx'⟩ := hx history
  obtain ⟨history'', hf'⟩ := hf history'
  refine ⟨history'', ?_⟩
  rw [exec_bind, hx']
  exact hf'

private theorem pure (a : α) : (Pure.pure a : Step σ W κ α).Yields c k a c k := fun _ => ⟨_, rfl⟩

private theorem ask (question : Controller σ W → α) :
    (Step.ask question : Step σ W κ α).Yields c k (question c) c k := fun _ => ⟨_, rfl⟩

private theorem change (f : Controller σ W → Controller σ W) :
    (Step.change f : Step σ W κ Unit).Yields c k () (f c) k := fun _ => ⟨_, rfl⟩

private theorem note (e : Event) : (Step.note e : Step σ W κ Unit).Yields c k () c k :=
  fun _ => ⟨_, rfl⟩

private theorem ofExcept {r : Except RepairError α} (h : r = .ok a) :
    (MonadExcept.ofExcept r : Step σ W κ α).Yields c k a c k :=
  fun _ => ⟨_, by rw [exec_ofExcept, h]⟩

private theorem call {f : κ → α × κ} (event : α → Event) (h : f k = (a, k')) :
    (Step.call f event : Step σ W κ α).Yields c k a c k' := by
  intro history
  refine ⟨event a :: history, ?_⟩
  change (Except.ok (f k).1, (⟨c, (f k).2, event (f k).1 :: history⟩ : State σ W κ)) = _
  rw [h]

private theorem attempted (h : x.Yields c k a c' k') :
    (Step.attempted x).Yields c k (.ok a) c' k' := by
  intro history
  obtain ⟨history', hx⟩ := h history
  exact ⟨history', by
    change (Except.ok (exec x ⟨c, k, history⟩).1, (exec x ⟨c, k, history⟩).2) = _
    rw [hx]⟩

private theorem tell (hquiet : c.settings.quiet = true) (env : Collaborators κ) (notice : Notice) :
    (Step.tell env notice).Yields c k () c k := by
  refine (ask _).bind ?_
  rw [hquiet]
  exact pure _

end Yields

end Step

/-- The collaborators build a program with a mutation, and its tests pass. -/
def Collaborators.Passes (env : Collaborators κ) (m : Mutation) (ds : DocumentSet) (k k' : κ) :
    Prop :=
  ∃ d k₁ k₂, ds.document m.document = .ok d ∧
    env.appendLog m.text (env.checkScope d k).2 = (.ok (), k₁) ∧
    env.compile ds k₁ = (.ok 0, k₂) ∧ env.runTests k₂ = (.ok 1, k')

namespace Step.Yields

variable {env : Collaborators κ} {c : Controller σ W} {k k' : κ} {m m' : Mutation}
  {ds : DocumentSet}

private theorem mutate (h : m.mutate c.documents = .ok (m', ds)) :
    (Step.mutate m).Yields c k m' { c with documents := ds } k :=
  (ask _).bind <| (ofExcept h).bind <| (change _).bind <| (note _).bind <| pure _

private theorem undo (h : m.undo c.documents = .ok (m', ds)) :
    (Step.undo m).Yields c k () { c with documents := ds } k := by
  refine (ask _).bind <| (note _).bind ?_
  exact (ofExcept h).bind (change _)

private theorem passesGate {d : Document} (hgate : c.settings.scopeGate = false)
    (hdocument : c.documents.document m.document = .ok d) :
    (Step.passesGate env m).Yields c k true c (env.checkScope d k).2 := by
  refine (ask _).bind <| (ofExcept hdocument).bind <| (call _ (Prod.eta _).symm).bind <|
    (ask _).bind ?_
  rw [hgate]
  exact pure _

private theorem compile {status : Int} (h : env.compile c.documents k = (.ok status, k')) :
    (Step.compile env).Yields c k status { c with stats := { c.stats with
      compilations := c.stats.compilations + 1 } } k' := by
  refine (change _).bind <| (ask _).bind ?_
  exact (call _ h).bind (ofExcept rfl)

private theorem runTests {status : Int} (h : env.runTests k = (.ok status, k')) :
    (Step.runTests env).Yields c k status { c with stats := { c.stats with
      testRuns := c.stats.testRuns + 1 } } k' := by
  refine (change _).bind <| (ask _).bind ?_
  exact (call _ h).bind (ofExcept rfl)

private theorem attempt (hgate : c.settings.scopeGate = false) (hquiet : c.settings.quiet = true)
    (hpasses : env.Passes m c.documents k k') :
    (Step.attempt env m).Yields c k (some 1)
      { c with stats := { c.stats with
        compilations := c.stats.compilations + 1, testRuns := c.stats.testRuns + 1 } } k' := by
  obtain ⟨d, k₁, k₂, hdocument, hlog, hcompile, htests⟩ := hpasses
  refine (passesGate hgate hdocument).bind ?_
  refine (call _ hlog).bind <| (ofExcept rfl).bind <| (compile hcompile).bind ?_
  rw [if_neg (by decide)]
  refine (tell (by exact hquiet) env _).bind <| (attempted (runTests htests)).bind ?_
  exact (tell (by exact hquiet) env _).bind (pure _)

private theorem record {recorded : RecordedPatch} {candidate generation : Nat}
    (hquiet : c.settings.quiet = true)
    (h : env.record ⟨candidate, generation, c.patches, c.documents⟩ k = (some recorded, k')) :
    (Step.record env candidate generation).Yields c k ()
      { c with stats := { c.stats with patches := c.stats.patches + 1 } } k' := by
  refine (ask _).bind <| (call _ h).bind ?_
  exact (change _).bind (tell (by exact hquiet) env _)

private theorem keep {recorded : RecordedPatch} {candidate generation : Nat}
    (hquiet : c.settings.quiet = true)
    (h : env.record ⟨candidate, generation, c.patches ++ [patchText candidate generation m],
      c.documents⟩ k = (some recorded, k')) :
    (Step.keep env candidate generation m 1).Yields c k ()
      { c with
        patches := c.patches ++ [patchText candidate generation m]
        stats := { c.stats with patches := c.stats.patches + 1 } } k' := by
  refine (note _).bind <| (change _).bind ?_
  rw [if_pos (by decide)]
  exact record hquiet h

variable [RandomSource σ W]

private theorem chooseKind {kind : MutationKind} {g : σ}
    (h : c.settings.policy.choose (W := W) c.policySource = (kind, g)) :
    (Step.chooseKind : Step σ W κ MutationKind).Yields c k kind { c with policySource := g } k := by
  refine (ask _).bind ?_
  rw [h]
  exact (change _).bind <| (note _).bind <| pure _

variable [Weight W]

private theorem drawMutation {kind : MutationKind} {faulty : StatementRef} {g : σ}
    (hseed : kind.needsSeed = false) (hdraw : c.faulty.draw c.faultySource = (.ok faulty, g))
    (hcreate : Mutation.create kind faulty none c.documents = .ok m) :
    (Step.drawMutation kind : Step σ W κ Mutation).Yields c k m { c with faultySource := g } k := by
  have hfaulty : (Step.drawFaulty kind : Step σ W κ StatementRef).Yields c k faulty
      { c with faultySource := g } k := by
    refine (ask _).bind ?_
    rw [hdraw]
    exact (change _).bind <| (note _).bind <| ofExcept rfl
  refine hfaulty.bind ?_
  rw [hseed]
  exact (pure _).bind <| (ask _).bind (ofExcept hcreate)

end Step.Yields

section

variable [Weight W] [RandomSource σ W]

/-- Of a kind that needs no seed, a controller draws a mutation that can be made. -/
def Controller.Draws (c : Controller σ W) (kind : MutationKind) (m : Mutation) (ds : DocumentSet)
    (g : σ) : Prop :=
  kind.needsSeed = false ∧ ∃ faulty drawn, c.faulty.draw c.faultySource = (.ok faulty, g) ∧
    Mutation.create kind faulty none c.documents = .ok drawn ∧
    drawn.mutate c.documents = .ok (m, ds)

variable {env : Collaborators κ} {c : Controller σ W} {k k' k'' : κ} {kind : MutationKind}
  {g g' : σ} {m m' : Mutation} {ds ds' : DocumentSet} {recorded : RecordedPatch}

namespace Step.Yields

private theorem tryMutations (hgate : c.settings.scopeGate = false)
    (hquiet : c.settings.quiet = true)
    (hdraws : c.Draws kind m ds g) (hpasses : env.Passes m ds k k') (n : Nat) :
    (Step.tryMutations env kind (n + 1)).Yields c k (.kept m 1)
      { c with
        documents := ds, faultySource := g
        stats := { c.stats with
          compilations := c.stats.compilations + 1, testRuns := c.stats.testRuns + 1 } } k' := by
  obtain ⟨hseed, faulty, drawn, hdraw, hcreate, hmutate⟩ := hdraws
  refine (drawMutation hseed hdraw hcreate).bind <| (mutate (by exact hmutate)).bind ?_
  refine (tell (by exact hquiet) env _).bind ?_
  exact (attempted (attempt (by exact hgate) (by exact hquiet) hpasses)).bind (pure _)

private theorem generation (hgate : c.settings.scopeGate = false) (hquiet : c.settings.quiet = true)
    (hkind : c.settings.policy.choose (W := W) c.policySource = (kind, g'))
    (hdraws : c.Draws kind m ds g) (hpasses : env.Passes m ds k k') :
    (Step.generation env).Yields c k (.kept m 1)
      { c with
        documents := ds, faultySource := g, policySource := g'
        stats := { c.stats with
          compilations := c.stats.compilations + 1, testRuns := c.stats.testRuns + 1 } } k' := by
  obtain ⟨n, hn⟩ : ∃ n, max c.settings.attempts 1 = n + 1 := ⟨_, (Nat.succ_pred (by omega)).symm⟩
  refine (chooseKind hkind).bind <| (ask _).bind ?_
  dsimp only
  rw [hn]
  exact tryMutations (by exact hgate) (by exact hquiet) (by exact hdraws) hpasses n

private theorem descend (hgate : c.settings.scopeGate = false) (hquiet : c.settings.quiet = true)
    (hkind : c.settings.policy.choose (W := W) c.policySource = (kind, g'))
    (hdraws : c.Draws kind m ds g) (hpasses : env.Passes m ds k k') {candidate number : Nat}
    (hrecord : env.record ⟨candidate, number, c.patches ++ [patchText candidate number m], ds⟩ k' =
      (some recorded, k'')) (hundo : m.undo ds = .ok (m', ds')) :
    (Step.descend env candidate 1 number).Yields c k none
      { c with
        documents := ds', faultySource := g, policySource := g'
        patches := (c.patches ++ [patchText candidate number m]).dropLast
        stats := { c.stats with
          compilations := c.stats.compilations + 1, testRuns := c.stats.testRuns + 1
          patches := c.stats.patches + 1 } } k'' := by
  refine (ask _).bind <| (tell hquiet env _).bind ?_
  refine (attempted (generation hgate hquiet hkind hdraws hpasses)).bind ?_
  refine (keep (by exact hquiet) hrecord).bind <| (pure _).bind <| (change _).bind ?_
  exact (undo hundo).bind (pure _)

private theorem candidate (hgenerations : c.settings.generations = 1) {number : Nat}
    {c' : Controller σ W} (h : (Step.descend env number 1 1).Yields c k none c' k') :
    (Step.candidate env number).Yields c k () c' k' := by
  refine (ask _).bind ?_
  rw [hgenerations]
  exact h.bind (pure _)

private theorem repair (hcandidates : c.settings.candidates = 1) (hquiet : c.settings.quiet = true)
    {c' : Controller σ W} (h : (Step.candidate env 1).Yields
      { c with stats := { c.stats with candidatesRun := c.stats.candidatesRun + 1 } } k () c' k') :
    (Step.repair env).Yields c k c'.stats c' k' := by
  refine (ask _).bind (bind (a := ()) ?_ (ask _))
  rw [hcandidates]
  refine (ask _).bind <| (tell hquiet env _).bind <| (change _).bind <| (ask _).bind ?_
  refine (note _).bind <| bind (by exact h) <| (ask _).bind ?_
  exact (note _).bind (pure _)

end Step.Yields

/-- A quiet search of one attempt finds a patch if it draws a mutation that passes the tests and can
be undone. -/
theorem Controller.repair_once {policy : MutationPolicy} {recursion : RecursionPolicy}
    (hsettings : c.settings = ⟨1, 1, 1, policy, recursion, false, true⟩)
    (hkind : policy.choose (W := W) c.policySource = (kind, g')) (hdraws : c.Draws kind m ds g)
    (hpasses : env.Passes m ds k k') (hrecord : env.record
      ⟨1, 1, c.patches ++ [Step.patchText 1 1 m], ds⟩ k' = (some recorded, k''))
    (hundo : m.undo ds = .ok (m', ds')) :
    ∃ c', c.repair env k = (.ok ⟨c.stats.candidatesRun + 1, c.stats.candidatesFailed,
      c.stats.compilations + 1, c.stats.testRuns + 1, c.stats.patches + 1⟩, c', k'') := by
  have hquiet : c.settings.quiet = true := by rw [hsettings]
  have hkind' : c.settings.policy.choose (W := W) c.policySource = (kind, g') := by
    rw [hsettings, hkind]
  let began := { c with stats := { c.stats with candidatesRun := c.stats.candidatesRun + 1 } }
  have hcandidate := Step.Yields.candidate (c := began) (by simp [began, hsettings])
    (.descend (c := began) (by simp [began, hsettings]) hquiet hkind' hdraws hpasses hrecord hundo)
  obtain ⟨history, hrepair⟩ := Step.Yields.repair (by rw [hsettings]) hquiet hcandidate []
  exact ⟨_, by rw [Controller.repair, Controller.run, Controller.execute, hrepair]⟩

end

end RepairSearch.Search
