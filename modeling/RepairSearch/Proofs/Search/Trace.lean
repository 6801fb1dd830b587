import RepairSearch.Proofs.Search.Step

/-!
# The order of events

Tests run right after the documents were compiled, a mutation is kept right after its tests, and a
program is recorded right after its mutation was kept. What one event asks for comes right after it,
so nothing can change the documents in between and nothing is recorded twice or left out.
-/

namespace RepairSearch.Search

namespace Event

/-- Every event of a history satisfies a condition on it and on what happened before it. -/
def Throughout (cond : Event → List Event → Prop) (history : List Event) : Prop :=
  ∀ later e earlier, history = later ++ e :: earlier → cond e earlier

section

variable {cond : Event → List Event → Prop} {e : Event} {es : List Event}

theorem throughout_nil (cond : Event → List Event → Prop) : Throughout cond [] := by
  intro later e earlier h
  simp at h

theorem throughout_cons : Throughout cond (e :: es) ↔ cond e es ∧ Throughout cond es := by
  constructor
  · intro h
    refine ⟨h [] e es rfl, ?_⟩
    intro later f earlier hes
    exact h (e :: later) f earlier (congrArg (e :: ·) hes)
  · rintro ⟨he, hes⟩ later f earlier h
    rcases List.cons_eq_append_iff.mp h with ⟨rfl, hcons⟩ | ⟨later', rfl, htail⟩
    · obtain ⟨rfl, rfl⟩ := List.cons.inj hcons
      exact he
    · exact hes later' f earlier htail

end

private theorem Throughout.mono {cond cond' : Event → List Event → Prop} {es : List Event}
    (h : Throughout cond es) (himp : ∀ e es, cond e es → cond' e es) : Throughout cond' es :=
  fun later e earlier hes => himp e earlier (h later e earlier hes)

/-- The candidate under way and the mutations that it has kept, each with its generation. -/
def underway : List Event → Option (Nat × List (Nat × Mutation))
  | [] => none
  | .began candidate _ _ :: _ => some (candidate, [])
  | .ended _ _ _ :: _ => none
  | .kept generation m _ :: es =>
    (underway es).map fun (candidate, ms) => (candidate, ms ++ [(generation, m)])
  | _ :: es => underway es

/-- What happens in a generation. -/
def OfGeneration : Event → Prop
  | .chose _ | .drew _ _ | .made _ | .undid _ _ => True
  | e => e.OfTrial

private theorem OfTrial.ofGeneration {e : Event} (h : e.OfTrial) : e.OfGeneration := by
  cases e with
  | chose kind | drew kind answer | made m | undid m answer => trivial
  | _ => exact h

private theorem OfChoice.ofGeneration {e : Event} (h : e.OfChoice) : e.OfGeneration := by
  cases e with
  | chose kind | drew kind answer => trivial
  | _ => exact h.elim

theorem underway_append {es : List Event} (h : ∀ e ∈ es, e.OfGeneration) (history : List Event) :
    underway (es ++ history) = underway history := by
  induction es with
  | nil => rfl
  | cons e es ih =>
    have htail := ih fun f hf => h f (List.mem_cons_of_mem _ hf)
    have he := h e List.mem_cons_self
    cases e with
    | made m | undid m answer | chose kind | drew kind answer => exact htail
    | checked d answer | logged text answer | compiled ds answer | tested ds answer => exact htail
    | _ => exact he.elim

theorem underway_kept {history : List Event} {candidate : Nat} {ms : List (Nat × Mutation)}
    (h : underway history = some (candidate, ms)) (generation : Nat) (m : Mutation) (status : Int) :
    underway (.kept generation m status :: history) =
      some (candidate, ms ++ [(generation, m)]) := by
  rw [underway, h]
  rfl

/-- What has happened right before an event. -/
def Follows (e : Event) (earlier : List Event) : Prop :=
  match e with
  | .tested ds _ => ∃ status es, earlier = .compiled ds (.ok status) :: es ∧ 0 ≤ status
  | .kept _ _ status => ∃ ds es, earlier = .tested ds (.ok status) :: es ∧ 0 ≤ status
  | .recorded found _ => ∃ m status es,
      earlier = .kept found.generation m status :: .tested found.documents (.ok status) :: es ∧
        0 < status ∧ (underway es).map (·.1) = some found.candidate
  | _ => True

/-- Whether an event may come right after another one. -/
def Admits (e next : Event) : Prop :=
  match e with
  | .tested _ (.ok status) => 0 ≤ status → ∃ generation m, next = .kept generation m status
  | .kept generation _ status =>
      0 < status → ∃ found answer, next = .recorded found answer ∧ found.generation = generation
  | _ => True

/-- Anything may come right after the event. -/
def Closed (e : Event) : Prop := ∀ next, e.Admits next

/-- Right before the event stands what it follows, and that admits it. -/
def InPlace (e : Event) (earlier : List Event) : Prop :=
  e.Follows earlier ∧ ∀ f ∈ earlier.head?, f.Admits e

/-- Events that may stand next to anything. -/
def Free : Event → Prop
  | .tested _ _ | .kept _ _ _ | .recorded _ _ => False
  | _ => True

private theorem Free.follows {e : Event} (h : e.Free) (earlier : List Event) :
    e.Follows earlier := by
  cases e with
  | tested ds answer | kept generation m status | recorded found answer => exact h.elim
  | _ => trivial

private theorem OfChoice.free {e : Event} (h : e.OfChoice) : e.Free := by
  cases e with
  | chose kind | drew kind answer => trivial
  | _ => exact h.elim

private theorem Free.closed {e : Event} (h : e.Free) : e.Closed := by
  intro next
  cases e with
  | tested ds answer | kept generation m status => exact h.elim
  | _ => trivial

end Event

namespace State

variable {σ W κ : Type}

/-- All events are in place and the last one asks for nothing more. -/
structure Orderly (s : State σ W κ) : Prop where
  inPlace : Event.Throughout Event.InPlace s.history
  closed : ∀ e ∈ s.history.head?, e.Closed

/-- The last event is a test of the documents as they are. -/
structure Tested (status : Int) (s : State σ W κ) : Prop where
  inPlace : Event.Throughout Event.InPlace s.history
  last : ∃ es, s.history = .tested s.controller.documents (.ok status) :: es
  nonneg : 0 ≤ status

variable {s s' : State σ W κ} {e : Event}

private theorem Orderly.of_history (h : s.Orderly) (heq : s'.history = s.history) : s'.Orderly :=
  ⟨heq ▸ h.inPlace, heq ▸ h.closed⟩

theorem Orderly.follows (h : s.Orderly) : Event.Throughout Event.Follows s.history :=
  h.inPlace.mono fun _ _ h => h.1

private theorem Orderly.cons (h : s.Orderly) (he : e.Follows s.history) :
    Event.Throughout Event.InPlace (e :: s.history) :=
  Event.throughout_cons.mpr ⟨⟨he, fun f hf => h.closed f hf e⟩, h.inPlace⟩

private theorem orderly_of_cons {es : List Event} (hs : s.history = e :: es)
    (h : Event.Throughout Event.InPlace (e :: es)) (he : e.Closed) : s.Orderly := by
  refine ⟨hs ▸ h, ?_⟩
  intro f hf
  rw [hs, List.head?_cons, Option.mem_some] at hf
  exact hf ▸ he

private theorem Orderly.free (h : s.Orderly) (hs' : s'.history = e :: s.history) (he : e.Free) :
    s'.Orderly := orderly_of_cons hs' (h.cons (he.follows _)) he.closed

private theorem Orderly.choosing :
    Choosing (fun s s' => s.Orderly → s'.Orderly : State σ W κ → State σ W κ → Prop) where
  refl _ hs := hs
  trans h h' hs := h' (h hs)
  controller _ _ _ _ _ _ hs := hs.of_history rfl
  choice _ _ he hs := hs.free rfl he.free

/-- Nothing was written down, and what patches are made of is as before. -/
structure Silent (s s' : State σ W κ) : Prop where
  history : s'.history = s.history
  documents : s'.controller.documents = s.controller.documents
  patches : s'.controller.patches = s.controller.patches
  settings : s'.controller.settings = s.controller.settings

theorem Silent.neutral : Neutral (Silent : State σ W κ → State σ W κ → Prop) where
  refl _ := ⟨rfl, rfl, rfl, rfl⟩
  trans h h' := ⟨h'.history.trans h.history, h'.documents.trans h.documents,
    h'.patches.trans h.patches, h'.settings.trans h.settings⟩
  controller _ _ hdocuments hpatches hsettings _ := ⟨rfl, hdocuments, hpatches, hsettings⟩

theorem Silent.outward (env : Collaborators κ) :
    Outward env (Silent : State σ W κ → State σ W κ → Prop) :=
  Silent.neutral.outward (fun _ _ => ⟨rfl, rfl, rfl, rfl⟩) env

private theorem Silent.orderly (h : s.Silent s') (ho : s.Orderly) :
    s'.Orderly := ho.of_history h.history

/-- What an attempt leaves to be done: nothing, or to keep its mutation with a status. -/
def Due (s : State σ W κ) : Option Int → Prop
  | none => s.Orderly
  | some status => s.Tested status

private theorem Due.inPlace {status : Option Int} (h : s.Due status) :
    Event.Throughout Event.InPlace s.history := by
  cases status with
  | none => exact Orderly.inPlace h
  | some status => exact Tested.inPlace h

private theorem Silent.due {status : Option Int} (h : s.Silent s') (hs : s.Due status) :
    s'.Due status := by
  cases status with
  | none => exact h.orderly hs
  | some status =>
    obtain ⟨es, hes⟩ := hs.last
    exact ⟨h.history ▸ hs.inPlace, ⟨es, by rw [h.history, h.documents, hes]⟩, hs.nonneg⟩

end State

namespace Step

open State

variable {σ W κ : Type} {s : State σ W κ}

private theorem mutate_writes (m : Mutation) :
    (mutate m : Step σ W κ Mutation).Keeps (Writes Event.OfGeneration) :=
  Writes.chained.mutate (fun s _ => Writes.refl s) (fun s _ => (Writes.refl s).note trivial) m

theorem undo_writes (m : Mutation) :
    (undo m : Step σ W κ Unit).Keeps (Writes Event.OfGeneration) :=
  Writes.chained.undo (fun s _ => Writes.refl s) (fun s _ _ => (Writes.refl s).note trivial) m

private theorem mutate_orderly (m : Mutation) (hs : s.Orderly) :
    (mutate m).Ensures s fun _ s' => s'.Orderly := by
  refine ensures_bind (ensures_ask (ensures_bind (ensures_ofExcept ?_)))
  cases m.mutate s.controller.documents with
  | error e => exact hs
  | ok made =>
    exact ensures_bind (ensures_change (ensures_bind (ensures_note (ensures_pure
      (hs.free rfl trivial)))))

private theorem undo_orderly (m : Mutation) (hs : s.Orderly) :
    (undo m).Ensures s fun _ s' => s'.Orderly := by
  refine ensures_bind (ensures_ask (ensures_bind (ensures_note (ensures_bind
    (ensures_ofExcept ?_)))))
  cases m.undo s.controller.documents with
  | error e => exact hs.free rfl trivial
  | ok undone => exact ensures_change (hs.free rfl trivial)

section

variable (env : Collaborators κ)

private theorem passesGate_orderly (m : Mutation) (hs : s.Orderly) :
    (passesGate env m).Ensures s fun _ s' => s'.Orderly := by
  refine ensures_bind (ensures_ask (ensures_bind (ensures_ofExcept ?_)))
  cases s.controller.documents.document m.document with
  | error e => exact hs
  | ok d =>
    exact ensures_bind (ensures_call (ensures_bind (ensures_ask (ensures_pure
      (hs.free rfl trivial)))))

private theorem compile_orderly (hs : s.Orderly) :
    (compile env).Ensures s fun r s' => s'.Orderly ∧ ∀ status, r = .ok status →
      ∃ es, s'.history = .compiled s'.controller.documents (.ok status) :: es := by
  refine ensures_bind (ensures_change (ensures_bind (ensures_ask (ensures_bind (ensures_call
    (ensures_ofExcept ⟨hs.free rfl trivial, ?_⟩))))))
  intro status hstatus
  exact ⟨s.history, by rw [hstatus]⟩

private theorem runTests_due {compiled : Int} (hs : s.Orderly)
    (hlast : ∃ es, s.history = .compiled s.controller.documents (.ok compiled) :: es)
    (hcompiled : 0 ≤ compiled) :
    (runTests env).Ensures s fun r s' => match r with
      | .ok status => s'.Due (if status < 0 then none else some status)
      | .error _ => s'.Orderly := by
  obtain ⟨es, hes⟩ := hlast
  refine ensures_bind (ensures_change (ensures_bind (ensures_ask (ensures_bind (ensures_call
    (ensures_ofExcept ?_))))))
  have hcons (answer : Except RepairError Int) := hs.cons
    (e := .tested s.controller.documents answer) ⟨compiled, es, hes, hcompiled⟩
  dsimp only
  cases (env.runTests s.outside).1 with
  | error e => exact orderly_of_cons rfl (hcons _) fun next => trivial
  | ok status =>
    by_cases hneg : status < 0
    · simp only [if_pos hneg]
      refine orderly_of_cons rfl (hcons _) fun next hnonneg => ?_
      omega
    · simp only [if_neg hneg]
      exact ⟨hcons _, ⟨s.history, rfl⟩, by omega⟩

theorem tell_silent (notice : Notice) :
    (tell env notice).Ensures s fun r s' => r = .ok () ∧ s.Silent s' :=
  (Silent.outward env).tell_ok notice s

private theorem attempt_due (m : Mutation) (hs : s.Orderly) :
    (attempt env m).Ensures s fun r s' => match r with
      | .ok status => s'.Due status
      | .error _ => s'.Orderly := by
  refine ensures_bind ((passesGate_orderly env m hs).mono ?_)
  rintro (e | _ | _) s₁ h₁
  · exact h₁
  · exact h₁
  refine ensures_bind (ensures_call (ensures_bind (ensures_ofExcept ?_)))
  dsimp only
  cases (env.appendLog m.text s₁.outside).1 with
  | error e => exact h₁.free rfl trivial
  | ok _ =>
    refine ensures_bind ((compile_orderly env
      (h₁.free (e := .logged m.text (.ok ())) rfl trivial)).mono ?_)
    rintro (e | compiled) s₂ ⟨h₂, hlast⟩
    · exact h₂
    obtain ⟨es, hes⟩ := hlast compiled rfl
    dsimp only
    split
    · refine ensures_bind ((tell_silent env _).mono ?_)
      rintro r s₃ ⟨rfl, h₃⟩
      exact ensures_pure (h₃.orderly h₂)
    · refine ensures_bind ((tell_silent env _).mono ?_)
      rintro r s₃ ⟨rfl, h₃⟩
      refine ensures_bind (ensures_attempted ((runTests_due env (h₃.orderly h₂)
        ⟨es, by rw [h₃.history, h₃.documents, hes]⟩ (by omega)).mono ?_))
      rintro (e | status) s₄ h₄
      · exact ensures_pure h₄
      · refine ensures_bind ((tell_silent env _).mono ?_)
        rintro r s₅ ⟨rfl, h₅⟩
        exact ensures_pure (h₅.due h₄)

private theorem probeApplied_inPlace (hs : s.Orderly) :
    (probeApplied env).Ensures s fun _ s' => Event.Throughout Event.InPlace s'.history := by
  refine ensures_bind ((compile_orderly env hs).mono ?_)
  rintro (e | compiled) s₁ ⟨h₁, hlast⟩
  · exact h₁.inPlace
  dsimp only
  split
  · exact ensures_pure h₁.inPlace
  · refine ensures_bind ((runTests_due env h₁ (hlast compiled rfl) (by omega)).mono ?_)
    rintro (e | status) s₂ h₂
    · exact h₂.inPlace
    · exact ensures_pure (Due.inPlace h₂)

/-- A record does not fail, and is all that it leaves behind. -/
theorem record_silent (candidate generation : Nat) (s : State σ W κ) :
    (record env candidate generation).Ensures s fun r s' => r = .ok () ∧ ∃ answer,
      Silent { s with
        history := .recorded ⟨candidate, generation, s.controller.patches,
          s.controller.documents⟩ answer :: s.history } s' := by
  refine ensures_bind (ensures_ask (ensures_bind (ensures_call ?_)))
  dsimp only
  cases (env.record ⟨candidate, generation, s.controller.patches, s.controller.documents⟩
    s.outside).1 with
  | none => exact ensures_pure ⟨rfl, none, rfl, rfl, rfl, rfl⟩
  | some recorded =>
    refine ensures_bind (ensures_change ((tell_silent env _).mono ?_))
    rintro r s₁ ⟨rfl, h₁⟩
    exact ⟨rfl, some recorded, h₁.history, h₁.documents, h₁.patches, h₁.settings⟩

private theorem record_orderly {candidate generation : Nat} {m : Mutation} {status : Int}
    {es : List Event} (hs : Event.Throughout Event.InPlace s.history) (hlast : s.history =
      .kept generation m status :: .tested s.controller.documents (.ok status) :: es)
    (hpos : 0 < status) (hc : (Event.underway es).map (·.1) = some candidate) :
    (record env candidate generation).Ensures s fun r s' => r = .ok () ∧ s'.Orderly ∧
      Event.underway s'.history = Event.underway s.history := by
  have hcons (answer : Option RecordedPatch) : Event.Throughout Event.InPlace
      (.recorded ⟨candidate, generation, s.controller.patches, s.controller.documents⟩ answer ::
        s.history) := by
    refine Event.throughout_cons.mpr ⟨⟨⟨m, status, es, hlast, hpos, hc⟩, ?_⟩, hs⟩
    -- the generation that was kept asks for this very record
    intro f hf
    rw [hlast, List.head?_cons, Option.mem_some] at hf
    subst hf
    exact fun _ => ⟨_, answer, rfl, rfl⟩
  refine (record_silent env candidate generation s).mono ?_
  rintro r s₁ ⟨rfl, answer, h₁⟩
  refine ⟨rfl, orderly_of_cons h₁.history (hcons answer) fun next => trivial, ?_⟩
  rw [h₁.history]
  rfl

private theorem keep_orderly {candidate : Nat} {status : Int} (generation : Nat) (m : Mutation)
    (hs : s.Tested status) (hc : (Event.underway s.history).map (·.1) = some candidate) :
    (keep env candidate generation m status).Ensures s fun r s' => r = .ok () ∧ s'.Orderly ∧
      (Event.underway s'.history).map (·.1) = some candidate := by
  obtain ⟨es, hes⟩ := hs.last
  have hkept : Event.Throughout Event.InPlace (.kept generation m status :: s.history) := by
    refine Event.throughout_cons.mpr ⟨⟨⟨_, es, hes, hs.nonneg⟩, ?_⟩, hs.inPlace⟩
    intro f hf
    rw [hes, List.head?_cons, Option.mem_some] at hf
    subst hf
    exact fun _ => ⟨generation, m, rfl⟩
  have hc' : (Event.underway (.kept generation m status :: s.history)).map (·.1) =
      some candidate := by
    rw [Event.underway, Option.map_map]
    exact hc
  refine ensures_bind (ensures_note (ensures_bind (ensures_change ?_)))
  dsimp only
  split
  · rename_i hpos
    refine (record_orderly env (m := m) hkept (congrArg (.kept generation m status :: ·) hes)
      hpos (by rwa [hes] at hc)).mono ?_
    rintro r s₁ ⟨rfl, h₁, hu⟩
    exact ⟨rfl, h₁, hu ▸ hc'⟩
  · -- tests that did not all pass ask for no record
    rename_i hpos
    exact ensures_pure ⟨rfl, orderly_of_cons rfl hkept fun next h => absurd h hpos, hc'⟩

section

variable [Weight W] [RandomSource σ W]

private theorem tryMutations_due (kind : MutationKind) (n : Nat) (hs : s.Orderly) :
    (tryMutations env kind n).Ensures s fun r s' => match r with
      | .ok (.kept _ status) => s'.Tested status
      | _ => s'.Orderly := by
  induction n generalizing s with
  | zero => exact ensures_pure hs
  | succ n ih =>
    refine ensures_bind ((Orderly.choosing.drawMutation kind s).mono ?_)
    rintro (e | drawn) s₁ h₁
    · exact h₁ hs
    refine ensures_bind ((mutate_orderly drawn (h₁ hs)).mono ?_)
    rintro (e | m) s₂ h₂
    · exact h₂
    refine ensures_bind ((tell_silent env _).mono ?_)
    rintro r s₃ ⟨rfl, h₃⟩
    refine ensures_bind (ensures_attempted ((attempt_due env m (h₃.orderly h₂)).mono ?_))
    -- only an attempt that is kept leaves something to be done
    rintro (e | _ | status) s₄ h₄
    · refine ensures_bind (ensures_attempted ((undo_orderly m h₄).mono ?_))
      exact fun _ s₅ h₅ => ensures_throw h₅
    · refine ensures_bind ((undo_orderly m h₄).mono ?_)
      rintro (e | _) s₅ h₅
      · exact h₅
      · exact ih h₅
    · exact ensures_pure h₄

private theorem generation_due (hs : s.Orderly) :
    (generation env).Ensures s fun r s' => match r with
      | .ok (.kept _ status) => s'.Tested status
      | _ => s'.Orderly := by
  refine ensures_bind ((Orderly.choosing.chooseKind s).mono ?_)
  rintro (e | kind) s₁ h₁
  · exact h₁ hs
  exact ensures_bind (ensures_ask (tryMutations_due env kind _ (h₁ hs)))

/-- A generation keeps nothing and records nothing by itself. -/
theorem generation_writes :
    (generation env : Step σ W κ Outcome).Keeps (Writes Event.OfGeneration) :=
  (Writes.inert (fun _ h => h.ofGeneration) fun _ h => h.ofGeneration).generation mutate_writes
    undo_writes

private theorem descend_orderly {candidate : Nat} (left number : Nat) (hs : s.Orderly)
    (hc : (Event.underway s.history).map (·.1) = some candidate) :
    (descend env candidate left number).Ensures s fun _ s' => s'.Orderly := by
  induction left generalizing s number with
  | zero => exact ensures_pure hs
  | succ left ih =>
    refine ensures_bind (ensures_ask (ensures_bind ((tell_silent env _).mono ?_)))
    rintro r s₁ ⟨rfl, h₁⟩
    have hc₁ : (Event.underway s₁.history).map (·.1) = some candidate := by
      rw [h₁.history, hc]
    refine ensures_bind (ensures_attempted (((generation_due env (h₁.orderly hs)).and
      (generation_writes env s₁)).mono ?_))
    rintro r s₂ ⟨h₂, es, hes, hgeneration⟩
    have hc₂ : (Event.underway s₂.history).map (·.1) = some candidate := by
      rw [hes, Event.underway_append hgeneration, hc₁]
    rcases r with e | ⟨m, status⟩ | _
    · exact ensures_bind (ensures_note (ensures_pure (h₂.free rfl trivial)))
    · refine ensures_bind ((keep_orderly env number m h₂ hc₂).mono ?_)
      rintro r s₃ ⟨rfl, h₃, hc₃⟩
      refine ensures_bind ((ih (number + 1) h₃ hc₃).mono ?_)
      rintro (e | failure) s₄ h₄
      · exact h₄
      refine ensures_bind (ensures_change (ensures_bind
        ((undo_orderly m ?_).mono ?_)))
      · exact h₄.of_history rfl
      rintro (e | _) s₅ h₅
      · exact h₅
      · exact ensures_pure h₅
    · refine ensures_bind (ensures_ask ?_)
      dsimp only
      split
      · exact ensures_pure h₂
      · exact ih (number + 1) h₂ hc₂

private theorem candidate_orderly (number : Nat) (hs : s.Orderly)
    (hc : (Event.underway s.history).map (·.1) = some number) :
    (candidate env number).Ensures s fun _ s' => s'.Orderly := by
  refine ensures_bind (ensures_ask (ensures_bind ((descend_orderly env _ 1 hs hc).mono ?_)))
  rintro (e | _ | e) s₁ h₁
  · exact h₁
  · exact ensures_pure h₁
  · refine ensures_bind ((tell_silent env _).mono ?_)
    rintro r s₂ ⟨rfl, h₂⟩
    exact ensures_change ((h₂.orderly h₁).of_history rfl)

private theorem candidates_orderly (left number : Nat) (hs : s.Orderly) :
    (candidates env left number).Ensures s fun _ s' => s'.Orderly := by
  induction left generalizing s number with
  | zero => exact ensures_pure hs
  | succ left ih =>
    refine ensures_bind (ensures_ask (ensures_bind ((tell_silent env _).mono ?_)))
    rintro r s₁ ⟨rfl, h₁⟩
    refine ensures_bind (ensures_change (ensures_bind (ensures_ask (ensures_bind
      (ensures_note ?_)))))
    refine ensures_bind (Ensures.mono (candidate_orderly env number ?_ rfl) ?_)
    · exact (h₁.orderly hs).free rfl trivial
    rintro (e | _) s₂ h₂
    · exact h₂
    exact ensures_bind (ensures_ask (ensures_bind (ensures_note
      (ih (number + 1) (h₂.free rfl trivial)))))

theorem repair_orderly (hs : s.Orderly) : (repair env).Ensures s fun _ s' => s'.Orderly := by
  refine ensures_bind (ensures_ask (ensures_bind ((candidates_orderly env _ 1 hs).mono ?_)))
  rintro (e | _) s₁ h₁
  · exact h₁
  · exact ensures_ask h₁

/-- A probe undoes its mutation right after the tests, so only what stands before an event is in
place. -/
theorem probe_follows (hs : s.Orderly) :
    (probe env).Ensures s fun _ s' => Event.Throughout Event.Follows s'.history := by
  refine ensures_bind ((Orderly.choosing.drawFaulty .null s).mono ?_)
  rintro (e | faulty) s₁ h₁
  · exact (h₁ hs).follows
  refine ensures_bind (ensures_ask (ensures_bind (ensures_ofExcept ?_)))
  cases Mutation.create .null faulty none s₁.controller.documents with
  | error e => exact (h₁ hs).follows
  | ok m =>
    refine ensures_bind ((mutate_orderly m (h₁ hs)).mono ?_)
    rintro (e | m) s₂ h₂
    · exact h₂.follows
    refine ensures_bind (ensures_attempted ((probeApplied_inPlace env h₂).mono ?_))
    intro outcome s₃ h₃
    have hundid (answer : Except RepairError Unit) :
        Event.Throughout Event.Follows (.undid m answer :: s₃.history) :=
      Event.throughout_cons.mpr ⟨trivial, h₃.mono fun _ _ h => h.1⟩
    refine ensures_bind (ensures_bind (ensures_ask (ensures_bind (ensures_note
      (ensures_bind (ensures_ofExcept ?_))))))
    cases m.undo s₃.controller.documents with
    | error e => exact hundid _
    | ok undone => exact ensures_change (ensures_ofExcept (hundid _))

theorem probe_writes : (probe env : Step σ W κ Probe).Keeps (Writes Event.OfGeneration) := by
  have h : Inert env (Writes Event.OfGeneration : State σ W κ → State σ W κ → Prop) :=
    Writes.inert (fun _ h => h.ofGeneration) fun _ h => h.ofGeneration
  exact h.bind (h.drawFaulty .null) fun faulty => h.bind (h.ask _) fun ds => h.bind (h.ofExcept _)
    fun m => h.bind (mutate_writes m) fun m => h.bind (h.attempted h.probeApplied)
      fun outcome => h.bind (undo_writes m) fun _ => h.ofExcept _

end

end

end Step

namespace Event

/-- Tests are run right after a build of the same documents that has not failed. -/
def TestedBuilt (history : List Event) : Prop :=
  ∀ later ds answer earlier, history = later ++ .tested ds answer :: earlier →
    ∃ status es, earlier = .compiled ds (.ok status) :: es ∧ 0 ≤ status

/-- A program is recorded right after its build, its tests and the end of its generation, and every
generation that ends with tests that have passed has its program recorded. -/
structure RecordedTested (history : List Event) : Prop where
  recorded : ∀ later found answer earlier, history = later ++ .recorded found answer :: earlier →
    ∃ m status built es, earlier = .kept found.generation m status ::
      .tested found.documents (.ok status) :: .compiled found.documents (.ok built) :: es ∧
        0 < status ∧ 0 ≤ built ∧ (underway es).map (·.1) = some found.candidate
  kept : ∀ later generation m status earlier,
    history = later ++ .kept generation m status :: earlier →
      (∃ ds es, earlier = .tested ds (.ok status) :: es ∧ 0 ≤ status) ∧
      (0 < status → ∃ found answer es, later = es ++ [.recorded found answer] ∧
        found.generation = generation)
  tested : ∀ later ds status earlier, history = later ++ .tested ds (.ok status) :: earlier →
    0 ≤ status → ∃ generation m es, later = es ++ [.kept generation m status]

theorem Throughout.testedBuilt {history : List Event} (h : Throughout Follows history) :
    TestedBuilt history :=
  fun later ds answer earlier hes => h later (.tested ds answer) earlier hes

end Event

namespace State

variable {σ W κ : Type} {s : State σ W κ}

private theorem Orderly.next (h : s.Orderly) {later earlier : List Event} {e : Event}
    (hes : s.history = later ++ e :: earlier) (he : ¬ e.Closed) :
    ∃ es next, later = es ++ [next] ∧ e.Admits next := by
  rcases List.eq_nil_or_concat later with rfl | ⟨es, next, rfl⟩
  · exact absurd (h.closed e (by simp [hes])) he
  · rw [List.concat_eq_append] at hes ⊢
    rw [List.append_assoc] at hes
    exact ⟨es, next, rfl, (h.inPlace es next (e :: earlier) hes).2 e rfl⟩

theorem Orderly.recordedTested (h : s.Orderly) : Event.RecordedTested s.history where
  recorded later found answer earlier hes := by
    obtain ⟨m, status, es, rfl, hpos, hc⟩ := h.follows later _ earlier hes
    -- the tests before the record follow a build in their turn
    have htested : s.history =
        (later ++ [.recorded found answer, .kept found.generation m status]) ++
          .tested found.documents (.ok status) :: es := by rw [hes]; simp
    obtain ⟨built, es, rfl, hbuilt⟩ := h.follows _ _ _ htested
    exact ⟨m, status, built, es, rfl, hpos, hbuilt, hc⟩
  kept later generation m status earlier hes := by
    refine ⟨h.follows later _ earlier hes, fun hpos => ?_⟩
    obtain ⟨es, next, rfl, hnext⟩ := h.next hes fun hclosed => by
      simpa using hclosed (.made m) hpos
    obtain ⟨found, answer, rfl, hfound⟩ := hnext hpos
    exact ⟨found, answer, es, rfl, hfound⟩
  tested later ds status earlier hes hnonneg := by
    obtain ⟨es, next, rfl, hnext⟩ := h.next hes fun hclosed => by
      simpa using hclosed (.began 0 ds []) hnonneg
    obtain ⟨generation, m, rfl⟩ := hnext hnonneg
    exact ⟨generation, m, es, rfl⟩

end State

end RepairSearch.Search
