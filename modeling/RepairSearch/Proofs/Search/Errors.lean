import RepairSearch.Proofs.Pool
import RepairSearch.Proofs.Search.Rollback
import RepairSearch.Proofs.Search.Trace

/-!
# Where errors come from

A search whose pools were built from its own documents never fails by itself: every draw finds a
statement that the documents have, the mutation of that statement can be created and made, and it
can be undone. What ends a candidate is an error of the log or of the compiler, and no other.
-/

namespace RepairSearch.Search

namespace Event

/-- The error of a collaborator that ends a candidate. -/
def fault? : Event → Option RepairError
  | .logged _ (.error e) | .compiled _ (.error e) => some e
  | _ => none

/-- What has to stand around an event in a search that does not fail by itself, later events first:
a draw finds the statement of the mutation that is made next, an undo succeeds, and the error of a
candidate is that of a collaborator whose call came before the last undo. -/
def Innocent (later : List Event) (e : Event) (earlier : List Event) : Prop :=
  match e with
  | .drew kind answer =>
      ∃ m rest, later = rest ++ [.made m] ∧ m.kind = kind ∧ answer = .ok m.faulty
  | .undid _ answer => answer = .ok ()
  | .failed _ _ error =>
      ∃ m cause rest, earlier = .undid m (.ok ()) :: cause :: rest ∧ cause.fault? = some error
  | _ => True

/-- In this stretch of a history, the search has not failed by itself. -/
def Blameless (es : List Event) : Prop :=
  ∀ later e earlier, es = later ++ e :: earlier → Innocent later e earlier

/-- Events that blame nobody, wherever they stand. -/
def Plain : Event → Prop
  | .drew _ _ | .undid _ _ | .failed _ _ _ => False
  | _ => True

section

variable {e : Event} {es es' later earlier : List Event}

private theorem Innocent.extend (h : Innocent later e earlier) (es es' : List Event) :
    Innocent (es' ++ later) e (earlier ++ es) := by
  cases e with
  | drew kind answer =>
    obtain ⟨m, rest, rfl, hm⟩ := h
    exact ⟨m, es' ++ rest, (List.append_assoc ..).symm, hm⟩
  | failed candidate generation error =>
    obtain ⟨m, cause, rest, rfl, hcause⟩ := h
    exact ⟨m, cause, rest ++ es, rfl, hcause⟩
  | _ => exact h

private theorem blameless_nil : Blameless [] := by
  intro later e earlier h
  simp at h

private theorem Blameless.append (h' : Blameless es') (h : Blameless es) :
    Blameless (es' ++ es) := by
  intro later e earlier heq
  rcases List.append_eq_append_iff.mp heq with ⟨front, rfl, hes⟩ | ⟨back, hes', hback⟩
  · have hinner := (h front e earlier hes).extend [] es'
    rwa [List.append_nil] at hinner
  · cases back with
    | nil =>
      rw [List.append_nil] at hes'
      have hinner := (h [] e earlier hback.symm).extend [] es'
      rwa [List.append_nil, List.append_nil, hes'] at hinner
    | cons f back =>
      obtain ⟨rfl, rfl⟩ := List.cons.inj hback
      exact (h' later e back hes').extend es []

private theorem Blameless.cons (h : Blameless es) (he : Innocent [] e es) :
    Blameless (e :: es) := by
  intro later f earlier heq
  rcases List.cons_eq_append_iff.mp heq with ⟨rfl, hcons⟩ | ⟨later', rfl, htail⟩
  · obtain ⟨rfl, rfl⟩ := List.cons.inj hcons
    exact he
  · have hinner := (h later' f earlier htail).extend [] [e]
    rwa [List.append_nil] at hinner

private theorem Plain.innocent (h : e.Plain) (later earlier : List Event) :
    Innocent later e earlier := by
  cases e with
  | drew kind answer | undid m answer | failed candidate generation error => exact h.elim
  | _ => trivial

private theorem blameless_of_plain (h : ∀ e ∈ es, e.Plain) : Blameless es := by
  intro later e earlier heq
  exact (h e (heq ▸ List.mem_append_right later List.mem_cons_self)).innocent later earlier

theorem OfTrial.plain (h : e.OfTrial) : e.Plain := by
  cases e with
  | checked d answer | logged text answer | compiled ds answer | tested ds answer => trivial
  | _ => exact h.elim

private theorem blameless_made (m : Mutation) :
    Blameless [.made m, .drew m.kind (.ok m.faulty)] := by
  intro later e earlier heq
  match later with
  | [] =>
    obtain ⟨rfl, -⟩ := List.cons.inj heq
    trivial
  | [f] =>
    obtain ⟨rfl, htail⟩ := List.cons.inj heq
    obtain ⟨rfl, -⟩ := List.cons.inj htail
    exact ⟨m, [], rfl, rfl, rfl⟩
  | f :: g :: later =>
    have hlength := congrArg List.length heq
    simp at hlength

private theorem blameless_undid (m : Mutation) : Blameless [.undid m (.ok ())] := by
  refine Blameless.cons blameless_nil ?_
  rfl

private theorem blameless_failed {cause : Event} {error : RepairError} (m : Mutation)
    (candidate generation : Nat) (hplain : cause.Plain) (hfault : cause.fault? = some error) :
    Blameless [.failed candidate generation error, .undid m (.ok ()), cause] := by
  have hcause : Blameless [cause] :=
    blameless_of_plain fun _ he => List.mem_singleton.mp he ▸ hplain
  exact ((blameless_undid m).append hcause).cons ⟨m, cause, [], rfl, hfault⟩

/-- Whether a collaborator's error has ended a candidate. -/
def broke (candidate : Nat) : List Event → Bool
  | [] => false
  | e :: es =>
    (e.fault?.isSome && (underway es).map (·.1) == some candidate) || broke candidate es

private theorem underway_inner (h : ∀ e ∈ es, e.Inner) (history : List Event) :
    (underway (es ++ history)).map (·.1) = (underway history).map (·.1) := by
  induction es with
  | nil => rfl
  | cons e es ih =>
    have htail := ih fun f hf => h f (List.mem_cons_of_mem _ hf)
    have he := h e List.mem_cons_self
    cases e with
    | began candidate ds ps | ended candidate ds ps => exact he.elim
    | kept generation m status =>
      rw [List.cons_append, underway, Option.map_map]
      exact htail
    | _ => exact htail

private theorem broke_append {candidate : Nat} {history : List Event} (h : ∀ e ∈ es, e.Inner)
    (hc : (underway history).map (·.1) = some candidate) (k : Nat) :
    broke k (es ++ history) =
      ((es.any fun e => e.fault?.isSome) && candidate == k || broke k history) := by
  induction es with
  | nil => simp
  | cons e es ih =>
    have htail := fun f hf => h f (List.mem_cons_of_mem _ hf)
    rw [List.cons_append, broke, underway_inner htail, hc, ih htail, List.any_cons]
    simp only [Option.some_beq_some]
    cases e.fault?.isSome <;> cases candidate == k <;> simp

variable {candidate : Nat} {ds ds' : DocumentSet} {ps ps' : List String}

private theorem broke_candidate {history : List Event} (h : ∀ e ∈ es, e.Inner) (k : Nat) :
    broke k (.ended candidate ds ps :: (es ++ .began candidate ds' ps' :: history)) =
      ((es.any fun e => e.fault?.isSome) && candidate == k || broke k history) := by
  have hinner : broke k (es ++ .began candidate ds' ps' :: history) = _ :=
    broke_append h rfl k
  simpa [broke, fault?] using hinner

private theorem blameless_candidate (h : Blameless es) :
    Blameless (.ended candidate ds ps :: (es ++ [.began candidate ds' ps'])) := by
  have hplain (e : Event) (he : e.Plain) : Blameless [e] :=
    blameless_of_plain fun _ hf => List.mem_singleton.mp hf ▸ he
  exact (hplain (.ended candidate ds ps) trivial).append
    (h.append (hplain (.began candidate ds' ps') trivial))

end

end Event

namespace Controller

variable {σ W : Type} [Weight W]

/-- Every draw that the policy may ask for finds a statement of the documents. -/
structure Ready (c : Controller σ W) : Prop where
  reachable : c.documents.Reachable
  faulty : c.faulty.Serves c.documents
  seeds : c.settings.policy.needsSeeds = true → c.seeds.Serves c.documents

end Controller

namespace State

variable {σ W κ : Type}

/-- The events were written down since, the pools are as before and no candidate has failed. -/
structure Adds (s : State σ W κ) (es : List Event) (s' : State σ W κ) : Prop where
  history : s'.history = es ++ s.history
  faulty : s'.controller.faulty = s.controller.faulty
  seeds : s'.controller.seeds = s.controller.seeds
  candidatesFailed :
    s'.controller.stats.candidatesFailed = s.controller.stats.candidatesFailed

variable {s s' s'' : State σ W κ} {es es' : List Event} {m : Mutation}

private theorem Adds.refl (s : State σ W κ) : s.Adds [] s := ⟨rfl, rfl, rfl, rfl⟩

private theorem Adds.trans (h : s.Adds es s') (h' : s'.Adds es' s'') : s.Adds (es' ++ es) s'' where
  history := by rw [h'.history, h.history, List.append_assoc]
  faulty := h'.faulty.trans h.faulty
  seeds := h'.seeds.trans h.seeds
  candidatesFailed := h'.candidatesFailed.trans h.candidatesFailed

private theorem Adds.inner (h : s.Adds es s') (hw : s.Writes Event.Inner s') :
    ∀ e ∈ es, e.Inner := by
  obtain ⟨es', hes', hinner⟩ := hw
  have hes : es' = es := List.append_cancel_right (hes'.symm.trans h.history)
  exact hes ▸ hinner

/-- The search has not failed by itself since, and a collaborator has failed or not. -/
def Fares (s : State σ W κ) (broken : Bool) (s' : State σ W κ) : Prop :=
  ∃ es, s.Adds es s' ∧ Event.Blameless es ∧ (es.any fun e => e.fault?.isSome) = broken

private theorem Fares.refl (s : State σ W κ) : s.Fares false s :=
  ⟨[], .refl s, Event.blameless_nil, rfl⟩

private theorem Fares.trans {broken broken' : Bool} (h : s.Fares broken s')
    (h' : s'.Fares broken' s'') :
    s.Fares (broken' || broken) s'' := by
  obtain ⟨es, hes, hblameless, hbroken⟩ := h
  obtain ⟨es', hes', hblameless', hbroken'⟩ := h'
  exact ⟨es' ++ es, hes.trans hes', hblameless'.append hblameless,
    by rw [List.any_append, hbroken, hbroken']⟩

private theorem Adds.fares {e : Event} (h : s.Adds [e] s') (he : e.Plain)
    (hfault : e.fault? = none) :
    s.Fares false s' :=
  ⟨[e], h, Event.blameless_of_plain fun _ hf => List.mem_singleton.mp hf ▸ he,
    by simp [hfault]⟩

private theorem Fares.note {broken : Bool} {e : Event} (h : s.Fares broken s')
    (h' : s'.Adds [e] s'')
    (he : e.Plain) (hfault : e.fault? = none) : s.Fares broken s'' := h.trans (h'.fares he hfault)

private theorem Fares.quiet {broken : Bool} (h : s.Fares broken s') (h' : s'.Adds [] s'') :
    s.Fares broken s'' := h.trans ⟨[], h', Event.blameless_nil, rfl⟩

private theorem Fares.undid {broken : Bool} (h : s.Fares broken s')
    (h' : s'.Adds [.undid m (.ok ())] s'') : s.Fares broken s'' :=
  h.trans ⟨_, h', Event.blameless_undid m, rfl⟩

private theorem Made.knows (h : s.Made m s') {r : StatementRef}
    (hr : s.controller.documents.Knows r) :
    s'.controller.documents.Knows r := by
  obtain ⟨m', ds, hundo, -, hcontent⟩ := h.undoes _ h.reachable rfl
  have hknows : ds.Knows r := DocumentSet.knows_of_content hcontent hr
  rcases Mutation.documents_of_undo hundo with ⟨rfl, -⟩ | ⟨d, edits, edit, hd, -, rfl, -⟩
  · exact hknows
  · exact DocumentSet.knows_of_replace_pop hd hknows

variable [Weight W]

private theorem ready_of_adds (hs : s.controller.Ready) (h : s.Adds es s')
    (hreach : s'.controller.documents.Reachable)
    (hsettings : s'.controller.settings = s.controller.settings)
    (hknows : ∀ r, s.controller.documents.Knows r → s'.controller.documents.Knows r) :
    s'.controller.Ready where
  reachable := hreach
  faulty := by
    rw [h.faulty]
    exact hs.faulty.mono hknows
  seeds hneeds := by
    rw [h.seeds]
    rw [hsettings] at hneeds
    exact (hs.seeds hneeds).mono hknows

private theorem Restored.ready (h : s.Restored s') (hs : s.controller.Ready) (ha : s.Adds es s') :
    s'.controller.Ready :=
  ready_of_adds hs ha h.reachable h.settings fun _ => DocumentSet.knows_of_content h.content

private theorem Restored.ready_of_fares {broken : Bool} (h : s.Restored s')
    (hs : s.controller.Ready) (hf : s.Fares broken s') : s'.controller.Ready := by
  obtain ⟨es, hadds, -⟩ := hf
  exact h.ready hs hadds

private theorem Made.ready_of_fares {broken : Bool} (h : s.Made m s') (hs : s.controller.Ready)
    (hf : s.Fares broken s') : s'.controller.Ready := by
  obtain ⟨es, hadds, -⟩ := hf
  exact ready_of_adds hs hadds h.reachable h.settings fun _ => h.knows

end State

private theorem MutationPolicy.needsSeeds_of_choose {σ W : Type} [RandomSource σ W]
    {p : MutationPolicy}
    {g : σ} (h : (p.choose (W := W) g).1.needsSeed = true) : p.needsSeeds = true := by
  cases p with
  | random => rfl
  | fixed kind => exact h

namespace Step

open State

variable {σ W κ : Type} {s : State σ W κ}

private theorem chooseKind_adds [RandomSource σ W] :
    (chooseKind : Step σ W κ MutationKind).Ensures s fun r s' => ∃ kind, r = .ok kind ∧
      (kind.needsSeed = true → s.controller.settings.policy.needsSeeds = true) ∧
      s.Adds [.chose kind] s' :=
  ensures_bind (ensures_ask (ensures_bind (ensures_change (ensures_bind (ensures_note
    (ensures_pure ⟨_, rfl, MutationPolicy.needsSeeds_of_choose, rfl, rfl, rfl, rfl⟩))))))

/-- The mutation can be made on the documents. -/
structure Possible (m : Mutation) (ds : DocumentSet) : Prop where
  stage : m.stage = .pending
  faulty : ds.Knows m.faulty
  seed : m.kind.needsSeed = true → ∃ r, m.seed = some r ∧ ds.Knows r

private theorem create_adds {kind : MutationKind} {faulty : StatementRef}
    {seed : Option StatementRef} (hfaulty : s.controller.documents.Knows faulty)
    (hseed : kind.needsSeed = true → ∃ r, seed = some r)
    (hknows : ∀ r, seed = some r → s.controller.documents.Knows r) :
    (do MonadExcept.ofExcept (Mutation.create kind faulty seed (← ask (·.documents))) :
      Step σ W κ Mutation).Ensures s fun r s' => ∃ m, r = .ok m ∧ m.kind = kind ∧
        m.faulty = faulty ∧ Possible m s.controller.documents ∧ s' = s := by
  obtain ⟨m, hm⟩ := Mutation.create_of_knows hfaulty hseed hknows
  obtain ⟨hkind, haims⟩ := Mutation.aims_of_create hm
  obtain ⟨hstage, -, hfirst, hsecond⟩ := Mutation.create_eq_ok hm
  exact ensures_bind (ensures_ask (ensures_ofExcept
    ⟨m, hm, hkind, haims, ⟨hstage, hfirst, hsecond⟩, rfl⟩))

section

variable [Weight W] [RandomSource σ W]

private theorem drawFaulty_adds (kind : MutationKind)
    (hs : s.controller.faulty.Serves s.controller.documents) :
    (drawFaulty kind).Ensures s fun r s' => ∃ faulty, r = .ok faulty ∧
      s.controller.documents.Knows faulty ∧ s'.controller.documents = s.controller.documents ∧
      s.Adds [.drew kind (.ok faulty)] s' := by
  obtain ⟨faulty, hdrawn, hknows⟩ := hs.draw s.controller.faultySource
  refine ensures_bind (ensures_ask (ensures_bind (ensures_change (ensures_bind (ensures_note
    (ensures_ofExcept ?_))))))
  exact ⟨faulty, hdrawn, hknows, rfl, congrArg (.drew kind · :: s.history) hdrawn, rfl, rfl, rfl⟩

private theorem drawSeed_adds (faulty : StatementRef)
    (hs : s.controller.seeds.Serves s.controller.documents) :
    (drawSeed faulty).Ensures s fun r s' => ∃ seed, r = .ok seed ∧
      s.controller.documents.Knows seed ∧ s'.controller.documents = s.controller.documents ∧
      s.Adds [] s' := by
  obtain ⟨seed, hdrawn, hknows⟩ := hs.drawExcluding faulty s.controller.seedSource
  refine ensures_bind (ensures_ask (ensures_bind (ensures_change (ensures_ofExcept ?_))))
  exact ⟨seed, hdrawn, hknows, rfl, rfl, rfl, rfl, rfl⟩

private theorem drawMutation_adds (kind : MutationKind) (hs : s.controller.Ready)
    (hneeds : kind.needsSeed = true → s.controller.settings.policy.needsSeeds = true) :
    (drawMutation kind).Ensures s fun r s' => ∃ m, r = .ok m ∧ m.kind = kind ∧
      Possible m s'.controller.documents ∧ s.Adds [.drew kind (.ok m.faulty)] s' := by
  refine ensures_bind ((drawFaulty_adds kind hs.faulty).mono ?_)
  rintro r s₁ ⟨faulty, rfl, hfaulty, hdocuments, h₁⟩
  rw [← hdocuments] at hfaulty
  dsimp only
  split
  · rename_i hseeded
    have hseeds : s₁.controller.seeds.Serves s₁.controller.documents := by
      rw [h₁.seeds, hdocuments]
      exact hs.seeds (hneeds hseeded)
    rw [← bind_pure_comp, bind_assoc]
    refine ensures_bind ((drawSeed_adds faulty hseeds).mono ?_)
    rintro r s₂ ⟨seed, rfl, hseed, hdocuments', h₂⟩
    rw [← hdocuments'] at hfaulty hseed
    refine ensures_bind (ensures_pure ?_)
    refine (create_adds hfaulty (fun _ => ⟨seed, rfl⟩) ?_).mono ?_
    · rintro r ⟨⟩
      exact hseed
    · rintro r s₃ ⟨m, rfl, hkind, rfl, hpossible, rfl⟩
      exact ⟨m, rfl, hkind, hpossible, h₁.trans h₂⟩
  · rename_i hseedless
    refine ensures_bind (ensures_pure ?_)
    refine (create_adds hfaulty (fun hseeded => absurd hseeded hseedless) ?_).mono ?_
    · rintro r ⟨⟩
    · rintro r s₂ ⟨m, rfl, hkind, rfl, hpossible, rfl⟩
      exact ⟨m, rfl, hkind, hpossible, h₁⟩

end

private theorem mutate_adds {m : Mutation} (hs : s.controller.documents.Reachable)
    (hm : Possible m s.controller.documents) :
    (mutate m).Ensures s fun r s' => ∃ m', r = .ok m' ∧ m'.kind = m.kind ∧ m'.faulty = m.faulty ∧
      s.Made m' s' ∧ s.Adds [.made m'] s' := by
  obtain ⟨⟨m', ds⟩, hmutate⟩ := Mutation.mutate_of_knows hm.stage hm.faulty hm.seed
  have hcontinues := Mutation.continues_of_mutate hmutate
  have hadds : (mutate m).Ensures s fun r s' => r = .ok m' ∧ s.Adds [.made m'] s' := by
    refine ensures_bind (ensures_ask (ensures_bind (ensures_ofExcept ?_)))
    rw [hmutate]
    exact ensures_bind (ensures_change (ensures_bind (ensures_note (ensures_pure
      ⟨rfl, rfl, rfl, rfl, rfl⟩))))
  refine ((mutate_ensures m hs).and hadds).mono ?_
  rintro r s' ⟨hmade, rfl, hadds⟩
  exact ⟨m', rfl, hcontinues.kind, hcontinues.faulty, hmade, hadds⟩

private theorem undo_adds {m : Mutation} {s' : State σ W κ} (hm : s.Made m s') :
    (undo m).Ensures s' fun r s'' => r = .ok () ∧ s.Restored s'' ∧
      s'.Adds [.undid m (.ok ())] s'' := by
  obtain ⟨m', ds, hundo, -, -⟩ := hm.undoes _ hm.reachable rfl
  have hadds : (undo m).Ensures s' fun _ s'' => s'.Adds [.undid m (.ok ())] s'' := by
    refine ensures_bind (ensures_ask ?_)
    simp only [hundo]
    exact ensures_bind (ensures_note (ensures_bind (ensures_ofExcept (ensures_change
      ⟨rfl, rfl, rfl, rfl⟩))))
  refine ((undo_ensures hm).and hadds).mono ?_
  rintro r s'' ⟨⟨rfl, hrestored⟩, hadds⟩
  exact ⟨rfl, hrestored, hadds⟩

section

variable (env : Collaborators κ)

private theorem tell_adds (notice : Notice) :
    (tell env notice).Ensures s fun r s' => r = .ok () ∧ s.Adds [] s' := by
  have h : Chained (fun s s' => s.Adds [] s' : State σ W κ → State σ W κ → Prop) :=
    ⟨.refl, Adds.trans⟩
  exact (h.outward (fun _ _ => ⟨rfl, rfl, rfl, rfl⟩) env).tell_ok notice s

private theorem passesGate_fares {m : Mutation} (hs : s.controller.documents.Knows m.faulty) :
    (passesGate env m).Ensures s fun r s' => (∃ pass, r = .ok pass) ∧ s.Fares false s' := by
  obtain ⟨d, _, hd, _⟩ := hs
  refine ensures_bind (ensures_ask (ensures_bind (ensures_ofExcept ?_)))
  rw [Mutation.document, DocumentSet.document_eq_ok.mpr hd]
  refine ensures_bind (ensures_call (ensures_bind (ensures_ask (ensures_pure ⟨⟨_, rfl⟩, ?_⟩))))
  exact (Fares.refl s).note ⟨rfl, rfl, rfl, rfl⟩ trivial rfl

private theorem appendLog_adds (text : String) :
    (call (env.appendLog text) (.logged text) : Step σ W κ (Except RepairError Unit)).Ensures s
      fun r s' => ∃ answer, r = .ok answer ∧ s.Adds [.logged text answer] s' :=
  ensures_call ⟨_, rfl, rfl, rfl, rfl, rfl⟩

private theorem compile_adds :
    (compile env).Ensures s fun r s' => ∃ ds, s.Adds [.compiled ds r] s' :=
  ensures_bind (ensures_change (ensures_bind (ensures_ask (ensures_bind (ensures_call
    (ensures_ofExcept ⟨_, rfl, rfl, rfl, rfl⟩))))))

private theorem runTests_adds :
    (runTests env).Ensures s fun r s' => ∃ ds, s.Adds [.tested ds r] s' :=
  ensures_bind (ensures_change (ensures_bind (ensures_ask (ensures_bind (ensures_call
    (ensures_ofExcept ⟨_, rfl, rfl, rfl, rfl⟩))))))

/-- An attempt that fails ends with the call that has failed. -/
def AttemptEnds {α : Type} (s : State σ W κ) (r : Except RepairError α) (s' : State σ W κ) : Prop :=
  match r with
  | .ok _ => s.Fares false s'
  | .error e => ∃ s₁ cause, s.Fares false s₁ ∧ s₁.Adds [cause] s' ∧ cause.Plain ∧
      cause.fault? = some e

private theorem attempt_ends {m : Mutation} (hs : s.controller.documents.Knows m.faulty) :
    (attempt env m).Ensures s (AttemptEnds s) := by
  refine ensures_bind ((passesGate_fares env hs).mono ?_)
  rintro r s₁ ⟨⟨_ | _, rfl⟩, h₁⟩
  · exact h₁
  refine ensures_bind ((appendLog_adds env m.text).mono ?_)
  rintro r s₂ ⟨answer, rfl, h₂⟩
  refine ensures_bind (ensures_ofExcept ?_)
  cases answer with
  | error e => exact ⟨s₁, .logged m.text (.error e), h₁, h₂, trivial, rfl⟩
  | ok _ =>
    have hlogged := h₁.note h₂ trivial rfl
    refine ensures_bind ((compile_adds env).mono ?_)
    rintro r s₃ ⟨ds, h₃⟩
    cases r with
    | error e => exact ⟨s₂, .compiled ds (.error e), hlogged, h₃, trivial, rfl⟩
    | ok compiled =>
      have hcompiled := hlogged.note h₃ trivial rfl
      dsimp only
      split
      · refine ensures_bind ((tell_adds env _).mono ?_)
        rintro r s₄ ⟨rfl, h₄⟩
        exact ensures_pure (hcompiled.quiet h₄)
      · refine ensures_bind ((tell_adds env _).mono ?_)
        rintro r s₄ ⟨rfl, h₄⟩
        refine ensures_bind (ensures_attempted ((runTests_adds env).mono ?_))
        rintro r s₅ ⟨ds', h₅⟩
        -- tests that could not be run are no error of the attempt
        have htested := (hcompiled.quiet h₄).note h₅ trivial rfl
        cases r with
        | error e => exact ensures_pure htested
        | ok status =>
          refine ensures_bind ((tell_adds env _).mono ?_)
          rintro r s₆ ⟨rfl, h₆⟩
          exact ensures_pure (htested.quiet h₆)

private theorem probeApplied_ends : (probeApplied env).Ensures s fun r s' => ∃ es, s.Adds es s' ∧
    (∀ e ∈ es, e.Plain) ∧ ∀ e, r = .error e →
      ∃ ds rest, es = .compiled ds (.error e) :: rest ∨ es = .tested ds (.error e) :: rest := by
  refine ensures_bind ((compile_adds env).mono ?_)
  rintro (e | compiled) s₁ ⟨ds, h₁⟩
  · refine ⟨_, h₁, fun _ he => List.mem_singleton.mp he ▸ trivial, ?_⟩
    rintro e' ⟨⟩
    exact ⟨ds, [], .inl rfl⟩
  dsimp only
  split
  · exact ensures_pure ⟨_, h₁, fun _ he => List.mem_singleton.mp he ▸ trivial, nofun⟩
  · refine ensures_bind ((runTests_adds env).mono ?_)
    rintro r s₂ ⟨ds', h₂⟩
    have hplain : ∀ e ∈ [.tested ds' r] ++ [.compiled ds (.ok compiled)], Event.Plain e := by
      intro e he
      rcases List.mem_append.mp he with he | he <;> exact List.mem_singleton.mp he ▸ trivial
    cases r with
    | error e =>
      refine ⟨_, h₁.trans h₂, hplain, ?_⟩
      rintro e' ⟨⟩
      exact ⟨ds', _, .inr rfl⟩
    | ok status => exact ensures_pure ⟨_, h₁.trans h₂, hplain, nofun⟩

/-- A generation that fails ends with the call that has failed and the undo of its mutation. -/
def GenerationEnds {α : Type} (s : State σ W κ) (r : Except RepairError α) (s' : State σ W κ) :
    Prop :=
  match r with
  | .ok _ => s.Fares false s'
  | .error e => ∃ s₁ m cause, s.Fares false s₁ ∧ s₁.Adds [.undid m (.ok ()), cause] s' ∧
      cause.Plain ∧ cause.fault? = some e

private theorem GenerationEnds.after {α : Type} {r : Except RepairError α} {s' s'' : State σ W κ}
    (h : s.Fares false s') (h' : GenerationEnds s' r s'') : GenerationEnds s r s'' := by
  cases r with
  | ok a => exact h.trans h'
  | error e =>
    obtain ⟨s₁, m, cause, hfares, hcause⟩ := h'
    exact ⟨s₁, m, cause, h.trans hfares, hcause⟩

private theorem GenerationEnds.failed {α : Type} {e : RepairError} {s' : State σ W κ}
    (h : GenerationEnds s (.error e : Except RepairError α) s') (candidate generation : Nat) :
    s.Fares true { s' with history := .failed candidate generation e :: s'.history } := by
  obtain ⟨s₁, m, cause, hfares, hadds, hplain, hfault⟩ := h
  have hfailed : s'.Adds [.failed candidate generation e]
      { s' with history := .failed candidate generation e :: s'.history } := ⟨rfl, rfl, rfl, rfl⟩
  have hbroken : s₁.Fares true
      { s' with history := .failed candidate generation e :: s'.history } :=
    ⟨_, hadds.trans hfailed, Event.blameless_failed m candidate generation hplain hfault,
      by simp [hfault]⟩
  exact hfares.trans hbroken

private theorem note_fares {e : Event} (he : e.Plain) (hfault : e.fault? = none) :
    (note e : Step σ W κ Unit).Keeps fun s s' => s.Fares false s' := by
  intro s
  have hadds : s.Adds [e] { s with history := e :: s.history } := ⟨rfl, rfl, rfl, rfl⟩
  exact ensures_note (hadds.fares he hfault)

private theorem change_fares {f : Controller σ W → Controller σ W}
    (hfaulty : ∀ c, (f c).faulty = c.faulty) (hseeds : ∀ c, (f c).seeds = c.seeds)
    (hfailed : ∀ c, (f c).stats.candidatesFailed = c.stats.candidatesFailed) :
    (change f : Step σ W κ Unit).Keeps fun s s' => s.Fares false s' := by
  intro s
  exact ensures_change ((Fares.refl s).quiet ⟨rfl, hfaulty _, hseeds _, hfailed _⟩)

private theorem keep_fares (candidate generation : Nat) (m : Mutation) (status : Int) :
    (keep env candidate generation m status : Step σ W κ Unit).Keeps
      fun s s' => s.Fares false s' := by
  have h : Outward env (fun s s' => s.Fares false s' : State σ W κ → State σ W κ → Prop) :=
    Chained.outward ⟨.refl, Fares.trans⟩ (fun s _ => (Fares.refl s).quiet ⟨rfl, rfl, rfl, rfl⟩) env
  have hpush (text : String) : (pushPatch text : Step σ W κ Unit).Keeps fun s s' =>
      s.Fares false s' := change_fares (fun _ => rfl) (fun _ => rfl) fun _ => rfl
  have hcount : (count fun t => { t with patches := t.patches + 1 } : Step σ W κ Unit).Keeps
      fun s s' => s.Fares false s' := change_fares (fun _ => rfl) (fun _ => rfl) fun _ => rfl
  have hrecord : (record env candidate generation : Step σ W κ Unit).Keeps fun s s' =>
      s.Fares false s' := by
    refine h.bind (h.ask _) fun found => h.bind ?_ fun recorded => ?_
    · exact h.bind (h.act fun _ => .record found) fun _ =>
        h.bind (note_fares trivial rfl) fun _ => h.pure _
    · cases recorded with
      | none => exact h.pure _
      | some recorded => exact h.bind hcount fun _ => h.tell _
  refine h.bind (note_fares trivial rfl) fun _ => h.bind (hpush _) fun _ => ?_
  split
  · exact hrecord
  · exact h.pure _

section

variable [Weight W] [RandomSource σ W]

private theorem tryMutations_ends {kind : MutationKind} (n : Nat) (hs : s.controller.Ready)
    (hneeds : kind.needsSeed = true → s.controller.settings.policy.needsSeeds = true) :
    (tryMutations env kind n).Ensures s (GenerationEnds s) := by
  induction n generalizing s with
  | zero => exact ensures_pure (Fares.refl s)
  | succ n ih =>
    refine ensures_bind ((((restores env).drawMutation kind s).and
      (drawMutation_adds kind hs hneeds)).mono ?_)
    rintro r s₁ ⟨hrestored, drawn, rfl, hkind, hpossible, h₁⟩
    replace hrestored := hrestored hs.reachable
    refine ensures_bind ((mutate_adds hrestored.reachable hpossible).mono ?_)
    rintro r s₂ ⟨m, rfl, hmkind, hmfaulty, hmade, h₂⟩
    have hknows := hmade.knows hpossible.faulty
    rw [← hmfaulty] at hknows
    have hdrawn : s.Fares false s₂ := by
      refine ⟨[.made m, .drew m.kind (.ok m.faulty)], ?_, Event.blameless_made m, rfl⟩
      rw [hmkind, hmfaulty, hkind]
      exact h₁.trans h₂
    refine ensures_bind (((tell_restored env _ hmade.reachable).and (tell_adds env _)).mono ?_)
    rintro r s₃ ⟨⟨rfl, h₃⟩, -, hquiet⟩
    have hmade₃ : s.Made m s₃ := (hrestored.made hmade).restored h₃
    refine ensures_bind (ensures_attempted ((((restores env).attempt m s₃).and
      (attempt_ends env (DocumentSet.knows_of_content h₃.content hknows))).mono ?_))
    rintro r s₄ ⟨h₄, hends⟩
    have hmade₄ : s.Made m s₄ := hmade₃.restored (h₄ hmade₃.reachable)
    rcases r with e | _ | status
    · obtain ⟨s', cause, hfares, hcause, hplain, hfault⟩ := hends
      refine ensures_bind (ensures_attempted ((undo_adds hmade₄).mono ?_))
      rintro r s₅ ⟨rfl, -, h₅⟩
      exact ensures_throw ⟨s', m, cause, (hdrawn.quiet hquiet).trans hfares, hcause.trans h₅,
        hplain, hfault⟩
    · refine ensures_bind ((undo_adds hmade₄).mono ?_)
      rintro r s₅ ⟨rfl, hrestored₅, h₅⟩
      have hfares := ((hdrawn.quiet hquiet).trans hends).undid h₅
      refine (ih (hrestored₅.ready_of_fares hs hfares) ?_).mono fun r s' h => h.after hfares
      rw [hrestored₅.settings]
      exact hneeds
    · exact ensures_pure ((hdrawn.quiet hquiet).trans hends)

private theorem generation_ends (hs : s.controller.Ready) :
    (generation env).Ensures s (GenerationEnds s) := by
  refine ensures_bind ((((restores env).chooseKind s).and chooseKind_adds).mono ?_)
  rintro r s₁ ⟨h₁, kind, rfl, hneeds, hadds⟩
  replace h₁ := h₁ hs.reachable
  refine ensures_bind (ensures_ask ?_)
  refine (tryMutations_ends env _ (h₁.ready hs hadds) ?_).mono fun r s' h =>
    h.after (hadds.fares trivial rfl)
  rw [h₁.settings]
  exact hneeds

private theorem descend_fares (candidate left number : Nat) (hs : s.controller.Ready) :
    (descend env candidate left number).Ensures s fun r s' =>
      ∃ failure, r = .ok failure ∧ s.Fares failure.isSome s' := by
  induction left generalizing s number with
  | zero => exact ensures_pure ⟨none, rfl, .refl s⟩
  | succ left ih =>
    refine ensures_bind (ensures_ask ?_)
    refine ensures_bind (((tell_restored env _ hs.reachable).and (tell_adds env _)).mono ?_)
    rintro r s₁ ⟨⟨rfl, h₁⟩, -, hquiet⟩
    have hs₁ := h₁.ready hs hquiet
    refine ensures_bind (ensures_attempted (((generation_ensures env h₁.reachable).and
      (generation_ends env hs₁)).mono ?_))
    rintro r s₂ ⟨h₂, hends⟩
    replace hends := hends.after ((Fares.refl s).quiet hquiet)
    replace h₂ := h₂.after h₁
    rcases r with e | ⟨m, status⟩ | _
    · exact ensures_bind (ensures_note (ensures_pure
        ⟨some e, rfl, hends.failed candidate number⟩))
    · have hs₂ := h₂.ready_of_fares hs hends
      refine ensures_bind (((keep_ensures env candidate number m status h₂.reachable).and
        (keep_fares env candidate number m status s₂)).mono ?_)
      rintro r s₃ ⟨⟨rfl, h₃⟩, hkept⟩
      have hs₃ : s₃.controller.Ready := by
        obtain ⟨es, hadds, -⟩ := hkept
        exact h₃.ready ⟨hs₂.reachable, hs₂.faulty, hs₂.seeds⟩
          ⟨hadds.history, hadds.faulty, hadds.seeds, hadds.candidatesFailed⟩
      refine ensures_bind (((descend_ensures env candidate left (number + 1) h₃.reachable).and
        (ih (number + 1) hs₃)).mono ?_)
      rintro r s₄ ⟨⟨-, h₄⟩, failure, rfl, hbelow⟩
      refine ensures_bind (ensures_change ?_)
      have hpopped := (h₃.trans h₄).popPatch
      refine ensures_bind ((undo_adds (h₂.restored hpopped)).mono ?_)
      rintro r s₅ ⟨rfl, -, h₅⟩
      have hundone : s₄.Fares false s₅ :=
        ⟨_, ⟨h₅.history, h₅.faulty, h₅.seeds, h₅.candidatesFailed⟩, Event.blameless_undid m, rfl⟩
      have hfares := ((hends.trans hkept).trans hbelow).trans hundone
      exact ensures_pure ⟨failure, rfl, by simpa using hfares⟩
    · refine ensures_bind (ensures_ask ?_)
      dsimp only
      split
      · exact ensures_pure ⟨none, rfl, hends⟩
      · refine (ih (number + 1) (h₂.ready_of_fares hs hends)).mono ?_
        rintro r s₃ ⟨failure, rfl, hbelow⟩
        have hfares := hends.trans hbelow
        exact ⟨failure, rfl, by simpa using hfares⟩

private theorem candidate_fares (number : Nat) (hs : s.controller.Ready) :
    (candidate env number).Ensures s fun r s' => r = .ok () ∧ s'.controller.Ready ∧
      ∃ es, s'.history = es ++ s.history ∧ Event.Blameless es ∧ (∀ e ∈ es, e.Inner) ∧
        s'.controller.stats.candidatesFailed = s.controller.stats.candidatesFailed +
          (es.any fun e => e.fault?.isSome).toNat := by
  refine ensures_bind (ensures_ask ?_)
  refine ensures_bind (((descend_ensures env number _ 1 hs.reachable).and
    (descend_fares env number _ 1 hs)).mono ?_)
  rintro r s₁ ⟨⟨-, h₁⟩, failure, rfl, es, hadds, hblameless, hbroken⟩
  have hs₁ := h₁.ready hs hadds
  have hinner := hadds.inner h₁.history
  cases failure with
  | none =>
    refine ensures_pure ⟨rfl, hs₁, es, hadds.history, hblameless, hinner, ?_⟩
    rw [hadds.candidatesFailed, hbroken]
    rfl
  | some e =>
    refine ensures_bind (((tell_restored env _ h₁.reachable).and (tell_adds env _)).mono ?_)
    rintro r s₂ ⟨⟨rfl, h₂⟩, -, hquiet⟩
    have hs₂ := h₂.ready hs₁ hquiet
    refine ensures_change ⟨rfl, ⟨hs₂.reachable, hs₂.faulty, hs₂.seeds⟩, es, ?_, hblameless, hinner,
      ?_⟩
    · exact hquiet.history.trans hadds.history
    · rw [hbroken, ← hadds.candidatesFailed, ← hquiet.candidatesFailed]
      rfl

/-- Candidates from a number on have run, and those were counted as failed that broke. -/
structure Ran (s : State σ W κ) (number left : Nat) (s' : State σ W κ) : Prop where
  ready : s'.controller.Ready
  history : ∃ es, s'.history = es ++ s.history ∧ Event.Blameless es
  earlier : ∀ k < number, Event.broke k s'.history = Event.broke k s.history
  failed : s'.controller.stats.candidatesFailed = s.controller.stats.candidatesFailed +
    (List.range' number left).countP fun k => Event.broke k s'.history

omit [RandomSource σ W] in
private theorem Ran.one {number : Nat} {es : List Event} {ds ds' : DocumentSet}
    {ps ps' : List String} (hready : s'.controller.Ready)
    (hhistory : s'.history = .ended number ds ps :: (es ++ .began number ds' ps' :: s.history))
    (hblameless : Event.Blameless es) (hinner : ∀ e ∈ es, e.Inner)
    (hfailed : s'.controller.stats.candidatesFailed = s.controller.stats.candidatesFailed +
      (es.any fun e => e.fault?.isSome).toNat)
    (hnumber : Event.broke number s.history = false) : Ran s number 1 s' where
  ready := hready
  history := ⟨.ended number ds ps :: (es ++ [.began number ds' ps']), by simp [hhistory],
    Event.blameless_candidate hblameless⟩
  earlier k hk := by
    rw [hhistory, Event.broke_candidate hinner, beq_false_of_ne (by omega), Bool.and_false,
      Bool.false_or]
  failed := by
    have hbroke : Event.broke number s'.history = es.any fun e => e.fault?.isSome := by
      rw [hhistory, Event.broke_candidate hinner, hnumber, beq_self_eq_true, Bool.and_true,
        Bool.or_false]
    rw [hfailed, List.range'_one, List.countP_singleton, hbroke]
    cases es.any fun e => e.fault?.isSome <;> rfl

omit [RandomSource σ W] in
private theorem Ran.trans {number left left' : Nat} (h : Ran s number left s')
    (h' : Ran s' (number + left) left' s'') : Ran s number (left + left') s'' where
  ready := h'.ready
  history := by
    obtain ⟨es, hes, hblameless⟩ := h.history
    obtain ⟨es', hes', hblameless'⟩ := h'.history
    exact ⟨es' ++ es, by rw [hes', hes, List.append_assoc], hblameless'.append hblameless⟩
  earlier k hk := (h'.earlier k (by omega)).trans (h.earlier k hk)
  failed := by
    have hearlier : ((List.range' number left).countP fun k => Event.broke k s''.history) =
        (List.range' number left).countP fun k => Event.broke k s'.history := by
      refine List.countP_congr fun k hk => ?_
      rw [h'.earlier k (List.mem_range'_1.mp hk).2]
    rw [h'.failed, h.failed, ← List.range'_append_1, List.countP_append, hearlier, Nat.add_assoc]

private theorem candidates_ran (left number : Nat) (hs : s.controller.Ready)
    (hfuture : ∀ k, number ≤ k → Event.broke k s.history = false) :
    (candidates env left number).Ensures s fun r s' => r = .ok () ∧ Ran s number left s' := by
  induction left generalizing s number with
  | zero =>
    exact ensures_pure ⟨rfl, hs, ⟨[], rfl, Event.blameless_nil⟩, fun _ _ => rfl, rfl⟩
  | succ left ih =>
    refine ensures_bind (ensures_ask ?_)
    refine ensures_bind (((tell_restored env _ hs.reachable).and (tell_adds env _)).mono ?_)
    rintro r s₁ ⟨⟨rfl, h₁⟩, -, hquiet⟩
    have hs₁ := h₁.ready hs hquiet
    refine ensures_bind (ensures_change (ensures_bind (ensures_ask (ensures_bind
      (ensures_note ?_)))))
    refine ensures_bind (Ensures.mono (candidate_fares env number
      ⟨hs₁.reachable, hs₁.faulty, hs₁.seeds⟩) ?_)
    rintro r s₂ ⟨rfl, hs₂, es, hes, hblameless, hinner, hfailed⟩
    refine ensures_bind (ensures_ask (ensures_bind (ensures_note ?_)))
    generalize hs₃ : ({ s₂ with history := _ } : State σ W κ) = s₃
    obtain ⟨ds, ps, ds', ps', hhistory⟩ : ∃ ds ps ds' ps', s₃.history =
        .ended number ds ps :: (es ++ .began number ds' ps' :: s.history) := by
      rw [← hs₃]
      exact ⟨_, _, _, _, by rw [hes, hquiet.history]; rfl⟩
    have hran : Ran s number 1 s₃ := by
      refine .one ?_ hhistory hblameless hinner ?_ (hfuture number (Nat.le_refl _))
      · rw [← hs₃]
        exact hs₂
      · rw [← hs₃, ← hquiet.candidatesFailed]
        exact hfailed
    refine (ih (number + 1) hran.ready ?_).mono ?_
    · intro k hk
      rw [hhistory, Event.broke_candidate hinner, hfuture k (by omega),
        beq_false_of_ne (by omega), Bool.and_false, Bool.or_false]
    rintro r s₄ ⟨rfl, h₄⟩
    exact ⟨rfl, Nat.add_comm 1 left ▸ hran.trans h₄⟩

private theorem repair_ran (hs : s.controller.Ready)
    (hfuture : ∀ k, 1 ≤ k → Event.broke k s.history = false) :
    (repair env).Ensures s fun _ s' => Ran s 1 s.controller.settings.candidates s' := by
  refine ensures_bind (ensures_ask (ensures_bind ((candidates_ran env _ 1 hs hfuture).mono ?_)))
  rintro r s₁ ⟨rfl, h₁⟩
  exact ensures_ask h₁

private theorem probe_ends (hs : s.controller.Ready) :
    (probe env).Ensures s fun r s' => s'.controller.Ready ∧ ∃ es, s.Adds es s' ∧
      Event.Blameless es ∧ ∀ e, r = .error e → ∃ m ds rest,
        es = .undid m (.ok ()) :: .compiled ds (.error e) :: rest ∨
          es = .undid m (.ok ()) :: .tested ds (.error e) :: rest := by
  refine ensures_bind ((((restores env).drawFaulty .null s).and
    (drawFaulty_adds .null hs.faulty)).mono ?_)
  rintro r s₁ ⟨hrestored, faulty, rfl, hfaulty, hdocuments, h₁⟩
  replace hrestored := hrestored hs.reachable
  rw [← hdocuments] at hfaulty
  obtain ⟨drawn, hcreate⟩ :
      ∃ m, Mutation.create .null faulty none s₁.controller.documents = .ok m :=
    Mutation.create_of_knows hfaulty nofun nofun
  obtain ⟨hkind, haims⟩ := Mutation.aims_of_create hcreate
  obtain ⟨hstage, -, hfirst, hsecond⟩ := Mutation.create_eq_ok hcreate
  refine ensures_bind (ensures_ask (ensures_bind (ensures_ofExcept ?_)))
  rw [hcreate]
  refine ensures_bind ((mutate_adds hrestored.reachable ⟨hstage, hfirst, hsecond⟩).mono ?_)
  rintro r s₂ ⟨m, rfl, hmkind, hmfaulty, hmade, h₂⟩
  have hdrawn : s.Adds [.made m, .drew m.kind (.ok m.faulty)] s₂ := by
    rw [hmkind, hmfaulty, hkind, haims]
    exact h₁.trans h₂
  refine ensures_bind (ensures_attempted ((((restores env).probeApplied s₂).and
    (probeApplied_ends env)).mono ?_))
  rintro outcome s₃ ⟨h₃, es, hadds, hplain, hends⟩
  refine ensures_bind ((undo_adds ((hrestored.made hmade).restored (h₃ hmade.reachable))).mono ?_)
  rintro r s₄ ⟨rfl, hrestored₄, h₄⟩
  have hall := (hdrawn.trans hadds).trans h₄
  refine ensures_ofExcept ⟨hrestored₄.ready hs hall, _, hall, ?_, ?_⟩
  · exact (Event.blameless_undid m).append ((Event.blameless_of_plain hplain).append
      (Event.blameless_made m))
  · intro e he
    obtain ⟨ds, rest, rfl | rfl⟩ := hends e he
    · exact ⟨m, ds, _, .inl rfl⟩
    · exact ⟨m, ds, _, .inr rfl⟩

end

end

end Step

namespace Controller

section

variable {σ : Type} [RandomSource σ Float]

/-- Controllers that were accepted with pools built from their own documents, and what runs make of
them, whatever states their sources are in. -/
inductive Accepted : Controller σ Float → Prop
  | created {documents : DocumentSet} {faulty seeds : Coverage Float} {p q : Pool Float}
      {settings : Settings} {seed : UInt64} {c : Controller σ Float}
      (hreach : documents.Reachable) (hbuild : Pool.build documents faulty seeds = .ok (p, q))
      (hcreate : create documents p q settings seed = .ok c) : Accepted c
  | drawing {c : Controller σ Float} (h : Accepted c) (faultySource seedSource policySource : σ) :
      Accepted { c with faultySource, seedSource, policySource }
  | repaired {κ : Type} {c : Controller σ Float} (h : Accepted c) (env : Collaborators κ)
      (outside : κ) : Accepted (c.repair env outside).2.1
  | probed {κ : Type} {c : Controller σ Float} (h : Accepted c) (env : Collaborators κ)
      (outside : κ) : Accepted (c.probe env outside).2.1

private theorem ready_of_create {documents : DocumentSet} {faulty seeds : Coverage Float}
    {p q : Pool Float} {settings : Settings} {seed : UInt64} {c : Controller σ Float}
    (hreach : documents.Reachable) (hbuild : Pool.build documents faulty seeds = .ok (p, q))
    (hcreate : create documents p q settings seed = .ok c) : c.Ready := by
  obtain ⟨hfaulty, hseeds⟩ := Pool.serves_of_build hbuild
  rw [create] at hcreate
  split at hcreate
  · cases hcreate
  · split at hcreate
    · cases hcreate
    · rename_i hweight
      split at hcreate
      · cases hcreate
      · rename_i hneeds
        obtain rfl := Except.ok.inj hcreate
        refine ⟨hreach, hfaulty (by simpa using hweight), ?_⟩
        intro hpolicy
        change settings.policy.needsSeeds = true at hpolicy
        exact hseeds (by simpa [hpolicy] using hneeds)

private theorem Accepted.ready {c : Controller σ Float} (hc : c.Accepted) : c.Ready := by
  induction hc with
  | created hreach hbuild hcreate => exact ready_of_create hreach hbuild hcreate
  | drawing _ faultySource seedSource policySource ih => exact ⟨ih.reachable, ih.faulty, ih.seeds⟩
  | repaired _ env outside ih =>
    exact (Step.repair_ran env (s := ⟨_, outside, []⟩) ih fun _ _ => rfl).ready
  | probed _ env outside ih => exact (Step.probe_ends env (s := ⟨_, outside, []⟩) ih).1

/-- Whatever the collaborators do and the sources give, neither a repair nor a probe fails to draw a
statement or to create, to make or to undo a mutation. The candidates that a repair counts as failed
are those in which the log or the compiler has failed, and a probe fails as the compiler or the
tests do. -/
theorem repair_probe_blameless {κ : Type} {c : Controller σ Float} (hc : c.Accepted)
    (env : Collaborators κ) (outside : κ) :
    (∃ s : State σ Float κ, c.execute (Step.repair env) outside = (.ok s.controller.stats, s) ∧
      c.repair env outside = (.ok s.controller.stats, s.controller, s.outside) ∧
      Event.Blameless s.history ∧
      s.controller.stats.candidatesFailed = c.stats.candidatesFailed +
        (List.range' 1 c.settings.candidates).countP fun k => Event.broke k s.history) ∧
    ∃ answer, ∃ s : State σ Float κ, c.execute (Step.probe env) outside = (answer, s) ∧
      c.probe env outside = (answer, s.controller, s.outside) ∧ Event.Blameless s.history ∧
      ∀ e, answer = .error e → ∃ m ds rest,
        s.history = .undid m (.ok ()) :: .compiled ds (.error e) :: rest ∨
          s.history = .undid m (.ok ()) :: .tested ds (.error e) :: rest := by
  refine ⟨?_, ?_⟩
  · obtain ⟨hanswer, -⟩ := Step.repair_ensures env (s := ⟨c, outside, []⟩) hc.ready.reachable
    have hran := Step.repair_ran env (s := ⟨c, outside, []⟩) hc.ready fun _ _ => rfl
    have hexec : c.execute (Step.repair env) outside = (_, _) := Prod.ext hanswer rfl
    obtain ⟨es, hes, hblameless⟩ := hran.history
    rw [List.append_nil] at hes
    refine ⟨_, hexec, by rw [repair, run, hexec]; rfl, hes ▸ hblameless, hran.failed⟩
  · obtain ⟨-, es, hadds, hblameless, hends⟩ :=
      Step.probe_ends env (s := ⟨c, outside, []⟩) hc.ready
    have hes := hadds.history
    rw [List.append_nil] at hes
    refine ⟨_, _, rfl, rfl, hes ▸ hblameless, ?_⟩
    intro e he
    exact hes ▸ hends e he

end

private theorem single_accepted : single.Accepted := by
  have hstatements : single.documents.statements =
      [(⟨0, 0⟩, ⟨"if_statement", 0, 10, 1, 0, "", "module"⟩),
        (⟨0, 1⟩, ⟨"expression_statement", 7, 10, 2, 1, "", "block"⟩),
        (⟨0, 2⟩, ⟨"expression_statement", 11, 14, 3, 0, "", "module"⟩)] := by decide +kernel
  obtain ⟨d, hd, hpackage⟩ : ∃ d, single.documents.document 0 = .ok d ∧ d.package = "a" :=
    ⟨_, rfl, rfl⟩
  have hlines : ((⟨"a", "", 2⟩ : CoverageLine) == ⟨"a", "", 1⟩) = false ∧
      ((⟨"a", "", 3⟩ : CoverageLine) == ⟨"a", "", 1⟩) = false := by decide
  have hsum : (Weight.zero + 1 : Float) = 1 := by decide +kernel
  have hbuild : Pool.build single.documents ⟨[(⟨"a", "", 1⟩, (1 : Float))]⟩ ⟨[]⟩ =
      .ok (⟨#[⟨1, 1, ⟨0, 0⟩⟩], 1⟩, .empty) := by
    simp [Pool.build, Pool.ofCoverage, hstatements, hd, hpackage, hlines, Coverage.weight?,
      List.lookup_cons, Pool.add, Pool.empty, Weight.isLegal_one, hsum, bind,
      Except.bind, pure, Except.pure]
  have hcreate : create single.documents single.faulty single.seeds single.settings 0 =
      .ok (start single.documents single.faulty single.seeds single.settings 0 :
        Controller WeylProduct Float) := by
    rw [create, if_neg (by decide +kernel), if_neg (by decide +kernel),
      if_neg (by decide +kernel)]
  exact (Accepted.created single_reachable hbuild hcreate).drawing ⟨0⟩ ⟨1⟩ ⟨2⟩

/-- Two candidates of three generations, whose log cannot be written. -/
theorem single_blameless : single.Accepted ∧ ∃ s : State WeylProduct Float Unit,
    single.execute (Step.repair failing) () = (.ok s.controller.stats, s) ∧
      Event.Blameless s.history ∧ s.controller.stats.candidatesFailed =
        0 + (List.range' 1 2).countP fun k => Event.broke k s.history := by
  obtain ⟨⟨s, hexec, _, hblameless, hfailed⟩, _⟩ :=
    repair_probe_blameless single_accepted failing ()
  exact ⟨single_accepted, s, hexec, hblameless, hfailed⟩

end Controller

end RepairSearch.Search
