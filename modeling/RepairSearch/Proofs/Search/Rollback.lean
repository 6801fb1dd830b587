import RepairSearch.Proofs.Document.Force
import RepairSearch.Proofs.Document.Place
import RepairSearch.Proofs.Search.Step

/-!
# Rollback

Whatever a search meets with, it undoes every mutation that it has made: a generation that keeps one
hands it to the descent, and the descent undoes it on the way up. No undo fails, since the documents
then have the content that the mutation left.
-/

namespace RepairSearch.Search

/-- An undo did not fail, and where a candidate starts or is over, the documents and the patches
satisfy a condition. -/
def Event.Sound (cond : DocumentSet → List String → Prop) : Event → Prop
  | .began _ documents patches | .ended _ documents patches => cond documents patches
  | .undid _ answer => answer = .ok ()
  | _ => True

private theorem Event.Sound.mono {cond cond' : DocumentSet → List String → Prop} {e : Event}
    (h : e.Sound cond) (himp : ∀ ds ps, cond ds ps → cond' ds ps) : e.Sound cond' := by
  cases e with
  | began candidate ds ps => exact himp ds ps h
  | ended candidate ds ps => exact himp ds ps h
  | _ => exact h

def Event.began? : Event → Option Nat
  | .began candidate _ _ => some candidate
  | _ => none

def Event.ended? : Event → Option Nat
  | .ended candidate _ _ => some candidate
  | _ => none

/-- The events inside of candidates. -/
abbrev Event.Inner : Event → Prop := Event.Sound fun _ _ => False

private theorem Event.Inner.began?_eq_none {e : Event} (h : e.Inner) : e.began? = none := by
  cases e with
  | began candidate ds ps => exact h.elim
  | _ => rfl

private theorem Event.Inner.ended?_eq_none {e : Event} (h : e.Inner) : e.ended? = none := by
  cases e with
  | ended candidate ds ps => exact h.elim
  | _ => rfl

private theorem Event.OfTrial.inner {e : Event} (h : e.OfTrial) : e.Inner := by
  cases e with
  | checked d answer | logged text answer | compiled ds answer | tested ds answer => trivial
  | _ => exact h.elim

private theorem Event.OfChoice.inner {e : Event} (h : e.OfChoice) : e.Inner := by
  cases e with
  | chose kind | drew kind answer => trivial
  | _ => exact h.elim

namespace State

variable {σ W κ : Type}

/-- What steps inside of a candidate do not touch besides the documents, and what they put on
record. -/
structure Frame (s s' : State σ W κ) : Prop where
  reachable : s'.controller.documents.Reachable
  patches : s'.controller.patches = s.controller.patches
  settings : s'.controller.settings = s.controller.settings
  candidatesRun : s'.controller.stats.candidatesRun = s.controller.stats.candidatesRun
  history : s.Writes Event.Inner s'

/-- The documents have the content again that they had before. -/
structure Restored (s s' : State σ W κ) : Prop extends Frame s s' where
  content : s'.controller.documents.content = s.controller.documents.content

/-- A mutation stands between the documents before and after. -/
structure Made (m : Mutation) (s s' : State σ W κ) : Prop extends Frame s s' where
  undoes : m.Undoes s.controller.documents s'.controller.documents
  inForce : ∀ n, s'.controller.documents.inForce n =
    s.controller.documents.inForce n ++ (m.editOn? n).toList

variable {s s' s'' : State σ W κ} {m : Mutation}

private theorem Frame.trans (h : s.Frame s') (h' : s'.Frame s'') : s.Frame s'' where
  reachable := h'.reachable
  patches := h'.patches.trans h.patches
  settings := h'.settings.trans h.settings
  candidatesRun := h'.candidatesRun.trans h.candidatesRun
  history := h.history.trans h'.history

private theorem Restored.refl (h : s.controller.documents.Reachable) : s.Restored s :=
  ⟨⟨h, rfl, rfl, rfl, .refl s⟩, rfl⟩

theorem Restored.trans (h : s.Restored s') (h' : s'.Restored s'') : s.Restored s'' :=
  ⟨h.toFrame.trans h'.toFrame, h'.content.trans h.content⟩

theorem Restored.made (h : s.Restored s') (h' : s'.Made m s'') : s.Made m s'' := by
  refine ⟨h.toFrame.trans h'.toFrame, ?_, ?_⟩
  · intro ds hds hcontent
    obtain ⟨m', ds', hundo, hreach, hback⟩ := h'.undoes ds hds hcontent
    exact ⟨m', ds', hundo, hreach, hback.trans h.content⟩
  · intro n
    rw [h'.inForce, DocumentSet.inForce_of_content h.content]

theorem Made.restored (h : s.Made m s') (h' : s'.Restored s'') : s.Made m s'' := by
  refine ⟨h.toFrame.trans h'.toFrame, ?_, ?_⟩
  · intro ds hds hcontent
    exact h.undoes ds hds (hcontent.trans h'.content)
  · intro n
    rw [DocumentSet.inForce_of_content h'.content, h.inForce]

private theorem Restored.note (h : s.Restored s') {e : Event} (he : e.Inner) :
    s.Restored { s' with history := e :: s'.history } :=
  ⟨⟨h.reachable, h.patches, h.settings, h.candidatesRun, h.history.note he⟩, h.content⟩

/-- A relation that the documents and the patches come back in. -/
def Restores (s s' : State σ W κ) : Prop := s.controller.documents.Reachable → s.Restored s'

theorem restores (env : Collaborators κ) :
    Inert env (Restores : State σ W κ → State σ W κ → Prop) where
  refl _ hs := .refl hs
  trans h h' hs := (h hs).trans (h' (h hs).reachable)
  asked _ _ _ hs := ⟨⟨hs, rfl, rfl, rfl, .refl _⟩, rfl⟩
  told _ _ _ hs := ⟨⟨hs, rfl, rfl, rfl, .refl _⟩, rfl⟩
  controller _ _ hdocuments hpatches hsettings hrun hs :=
    ⟨⟨hdocuments ▸ hs, hpatches, hsettings, hrun, .refl _⟩,
      congrArg DocumentSet.content hdocuments⟩
  choice _ _ he hs := (Restored.refl hs).note he.inner
  trial _ _ he hs := (Restored.refl hs).note he.inner

/-- The state with other patches. -/
def withPatches (s : State σ W κ) (patches : List String) : State σ W κ :=
  { s with controller := { s.controller with patches := patches } }

/-- What was restored under one more patch is restored without it. -/
theorem Restored.popPatch {text : String}
    (h : (s.withPatches (s.controller.patches ++ [text])).Restored s') :
    s.Restored (s'.withPatches s'.controller.patches.dropLast) := by
  refine ⟨⟨h.reachable, ?_, h.settings, h.candidatesRun, h.history⟩, h.content⟩
  change s'.controller.patches.dropLast = s.controller.patches
  rw [h.patches]
  exact List.dropLast_concat

/-- Candidates have started and candidates are over since an earlier state, and all of them were
rolled back. -/
structure RolledBack (s : State σ W κ) (started finished : List Nat) (s' : State σ W κ) : Prop where
  reachable : s'.controller.documents.Reachable
  content : s'.controller.documents.content = s.controller.documents.content
  patches : s'.controller.patches = s.controller.patches
  candidatesRun :
    s'.controller.stats.candidatesRun = s.controller.stats.candidatesRun + started.length
  history : ∃ es, s'.history = es ++ s.history ∧
    (∀ e ∈ es, e.Sound fun ds ps => ds.content = s.controller.documents.content ∧
      ps = s.controller.patches) ∧
    es.reverse.filterMap Event.began? = started ∧ es.reverse.filterMap Event.ended? = finished

private theorem Restored.rolledBack (h : s.Restored s') : s.RolledBack [] [] s' := by
  obtain ⟨es, hes, hinner⟩ := h.history
  refine ⟨h.reachable, h.content, h.patches, h.candidatesRun, es, hes, ?_, ?_, ?_⟩
  · exact fun e he => (hinner e he).mono fun _ _ hfalse => hfalse.elim
  · rw [List.filterMap_eq_nil_iff]
    exact fun e he => (hinner e (List.mem_reverse.mp he)).began?_eq_none
  · rw [List.filterMap_eq_nil_iff]
    exact fun e he => (hinner e (List.mem_reverse.mp he)).ended?_eq_none

private theorem RolledBack.trans {started finished started' finished' : List Nat}
    (h : s.RolledBack started finished s') (h' : s'.RolledBack started' finished' s'') :
    s.RolledBack (started ++ started') (finished ++ finished') s'' := by
  obtain ⟨es, hes, hsound, hstarted, hfinished⟩ := h.history
  obtain ⟨es', hes', hsound', hstarted', hfinished'⟩ := h'.history
  refine ⟨h'.reachable, h'.content.trans h.content, h'.patches.trans h.patches, ?_, es' ++ es, ?_,
    ?_, ?_, ?_⟩
  · rw [h'.candidatesRun, h.candidatesRun, List.length_append, Nat.add_assoc]
  · rw [hes', hes, List.append_assoc]
  · intro e he
    rcases List.mem_append.mp he with he | he
    · rw [← h.content, ← h.patches]
      exact hsound' e he
    · exact hsound e he
  · rw [List.reverse_append, List.filterMap_append, hstarted, hstarted']
  · rw [List.reverse_append, List.filterMap_append, hfinished, hfinished']

private theorem rolledBack_began (hs : s.controller.documents.Reachable) (candidate : Nat) :
    s.RolledBack [candidate] [] { s with
      controller := { s.controller with
        stats := { s.controller.stats with
          candidatesRun := s.controller.stats.candidatesRun + 1 } }
      history := .began candidate s.controller.documents s.controller.patches :: s.history } := by
  refine ⟨hs, rfl, rfl, rfl, [_], rfl, ?_, rfl, rfl⟩
  intro e he
  rw [List.mem_singleton.mp he]
  exact ⟨rfl, rfl⟩

private theorem rolledBack_ended (hs : s.controller.documents.Reachable) (candidate : Nat) :
    s.RolledBack [] [candidate] { s with
      history := .ended candidate s.controller.documents s.controller.patches :: s.history } := by
  refine ⟨hs, rfl, rfl, rfl, [_], rfl, ?_, rfl, rfl⟩
  intro e he
  rw [List.mem_singleton.mp he]
  exact ⟨rfl, rfl⟩

end State

namespace Step

open State

variable {σ W κ α β : Type} {s s₀ : State σ W κ}

/-- A step after which everything is as before, whatever its answer is. -/
abbrev Restoring (x : Step σ W κ α) : Prop := x.Keeps Restores

theorem Restoring.ensures {x : Step σ W κ α} (h : x.Restoring)
    (hs : s.controller.documents.Reachable) : x.Ensures s fun _ s' => s.Restored s' := h s hs

private theorem Restoring.ensures_ok {x : Step σ W κ α} (h : x.Restoring) (ht : x.Total)
    (hs : s.controller.documents.Reachable) :
    x.Ensures s fun r s' => (∃ a, r = .ok a) ∧ s.Restored s' := (ht s).and (h.ensures hs)

theorem tell_restored (env : Collaborators κ) (notice : Notice)
    (hs : s.controller.documents.Reachable) :
    (tell env notice).Ensures s fun r s' => r = .ok () ∧ s.Restored s' :=
  ((restores env).tell_ok notice s).mono fun _ _ ⟨hr, h⟩ => ⟨hr, h hs⟩

private theorem Restoring.record (env : Collaborators κ) (candidate generation : Nat) :
    (Step.record env candidate generation : Step σ W κ Unit).Restoring := by
  have h := restores (σ := σ) (W := W) env
  refine h.bind (h.ask _) fun found => h.bind ?_ fun recorded => ?_
  · refine h.bind (h.act fun _ => .record found) fun answer => h.bind ?_ fun _ => h.pure _
    exact fun s => ensures_note fun hs => (Restored.refl hs).note trivial
  · cases recorded with
    | none => exact h.pure _
    | some recorded => exact h.bind (h.toNeutral.count fun _ => rfl) fun _ => h.tell _

/-- A mutation that is made stands between the documents; one that fails leaves them. -/
theorem mutate_ensures (m : Mutation) (hs : s.controller.documents.Reachable) :
    (mutate m).Ensures s fun r s' => match r with
      | .ok m' => s.Made m' s'
      | .error _ => s.Restored s' := by
  refine ensures_bind (ensures_ask ?_)
  refine ensures_bind (ensures_ofExcept ?_)
  rcases hm : m.mutate s.controller.documents with e | ⟨m', ds⟩
  · exact .refl hs
  · obtain ⟨hreach, hundoes⟩ := Mutation.undoes_of_mutate hs hm
    refine ensures_bind (ensures_change (ensures_bind (ensures_note (ensures_pure ?_))))
    exact ⟨⟨hreach, rfl, rfl, rfl, (Writes.refl s).note trivial⟩, hundoes,
      Mutation.inForce_mutate hm⟩

/-- The undo of a mutation that stands between the documents does not fail. -/
theorem undo_ensures {m : Mutation} {s' : State σ W κ} (hm : s.Made m s') :
    (undo m).Ensures s' fun r s'' => r = .ok () ∧ s.Restored s'' := by
  obtain ⟨m', ds, hundo, hreach, hcontent⟩ := hm.undoes _ hm.reachable rfl
  refine ensures_bind (ensures_ask ?_)
  simp only [hundo]
  refine ensures_bind (ensures_note (ensures_bind (ensures_ofExcept (ensures_change ?_))))
  exact ⟨rfl, ⟨hreach, hm.patches, hm.settings, hm.candidatesRun, hm.history.note rfl⟩, hcontent⟩

/-- Keeping a mutation adds its patch. -/
theorem keep_ensures (env : Collaborators κ) (candidate generation : Nat) (m : Mutation)
    (status : Int) (hs : s.controller.documents.Reachable) :
    (keep env candidate generation m status).Ensures s fun r s' => r = .ok () ∧
      (s.withPatches (s.controller.patches ++ [patchText candidate generation m])).Restored s' := by
  refine ensures_bind (ensures_note (ensures_bind (ensures_change ?_)))
  have hpushed := (Restored.refl (s := s.withPatches
    (s.controller.patches ++ [patchText candidate generation m])) hs).note
      (e := .kept generation m status) trivial
  dsimp only
  split
  · refine ((Restoring.record env _ _).ensures_ok (.record env _ _) hpushed.reachable).mono ?_
    rintro r s₁ ⟨⟨_, rfl⟩, h₁⟩
    exact ⟨rfl, hpushed.trans h₁⟩
  · exact ensures_pure ⟨rfl, hpushed⟩

section

/-- A generation leaves the mutation that it keeps, and nothing else. -/
def KeepsAtMost (s : State σ W κ) (r : Except RepairError Outcome) (s' : State σ W κ) : Prop :=
  match r with
  | .ok (.kept m _) => s.Made m s'
  | .ok .exhausted | .error _ => s.Restored s'

theorem KeepsAtMost.after {r : Except RepairError Outcome} {s' s'' : State σ W κ}
    (h : s.Restored s') (h' : KeepsAtMost s' r s'') : KeepsAtMost s r s'' := by
  rcases r with e | ⟨m, status⟩ | _
  · exact h.trans h'
  · exact h.made h'
  · exact h.trans h'

variable [Weight W] [RandomSource σ W] (env : Collaborators κ)

private theorem tryMutations_ensures (kind : MutationKind) (n : Nat)
    (hs : s.controller.documents.Reachable) :
    (tryMutations env kind n).Ensures s (KeepsAtMost s) := by
  induction n generalizing s with
  | zero => exact ensures_pure (Restored.refl hs)
  | succ n ih =>
    refine ensures_bind ((Restoring.ensures ((restores env).drawMutation kind) hs).mono ?_)
    rintro (e | m) s₁ h₁
    · exact h₁
    refine ensures_bind ((mutate_ensures m h₁.reachable).mono ?_)
    rintro (e | m) s₂ h₂
    · exact h₁.trans h₂
    have hmade : s.Made m s₂ := h₁.made h₂
    refine ensures_bind ((tell_restored env _ hmade.reachable).mono ?_)
    rintro r s₃ ⟨rfl, h₃⟩
    have hmade : s.Made m s₃ := hmade.restored h₃
    refine ensures_bind (ensures_attempted ((Restoring.ensures ((restores env).attempt m)
      hmade.reachable).mono ?_))
    intro r s₄ h₄
    have hmade : s.Made m s₄ := hmade.restored h₄
    rcases r with e | _ | status
    · refine ensures_bind (ensures_attempted ((undo_ensures hmade).mono ?_))
      rintro r s₅ ⟨rfl, h₅⟩
      exact ensures_throw h₅
    · refine ensures_bind ((undo_ensures hmade).mono ?_)
      rintro r s₅ ⟨rfl, h₅⟩
      exact (ih h₅.reachable).mono fun r s' h => h.after h₅
    · exact ensures_pure hmade

theorem generation_ensures (hs : s.controller.documents.Reachable) :
    (generation env).Ensures s (KeepsAtMost s) := by
  refine ensures_bind ((Restoring.ensures (restores env).chooseKind hs).mono ?_)
  rintro (e | kind) s₁ h₁
  · exact h₁
  refine ensures_bind (ensures_ask ?_)
  exact (tryMutations_ensures env kind _ h₁.reachable).mono fun r s' h => h.after h₁

theorem descend_ensures (candidate left number : Nat) (hs : s.controller.documents.Reachable) :
    (descend env candidate left number).Ensures s fun r s' =>
      (∃ failure, r = .ok failure) ∧ s.Restored s' := by
  induction left generalizing s number with
  | zero => exact ensures_pure ⟨⟨none, rfl⟩, .refl hs⟩
  | succ left ih =>
    refine ensures_bind (ensures_ask ?_)
    refine ensures_bind ((tell_restored env _ hs).mono ?_)
    rintro r s₁ ⟨rfl, h₁⟩
    refine ensures_bind (ensures_attempted ((generation_ensures env h₁.reachable).mono ?_))
    intro r s₂ h₂
    replace h₂ := h₂.after h₁
    rcases r with e | ⟨m, status⟩ | _
    · exact ensures_bind (ensures_note (ensures_pure ⟨⟨some e, rfl⟩, h₂.note trivial⟩))
    · refine ensures_bind ((keep_ensures env candidate number m status h₂.reachable).mono ?_)
      rintro r s₃ ⟨rfl, h₃⟩
      refine ensures_bind ((ih (number + 1) h₃.reachable).mono ?_)
      rintro r s₄ ⟨⟨failure, rfl⟩, h₄⟩
      refine ensures_bind (ensures_change ?_)
      have hpopped := (h₃.trans h₄).popPatch
      refine ensures_bind ((undo_ensures (h₂.restored hpopped)).mono ?_)
      rintro r s₅ ⟨rfl, h₅⟩
      exact ensures_pure ⟨⟨failure, rfl⟩, h₅⟩
    · refine ensures_bind (ensures_ask ?_)
      dsimp only
      split
      · exact ensures_pure ⟨⟨none, rfl⟩, h₂⟩
      · refine (ih (number + 1) h₂.reachable).mono ?_
        rintro r s₃ ⟨hr, h₃⟩
        exact ⟨hr, h₂.trans h₃⟩

theorem candidate_ensures (number : Nat) (hs : s.controller.documents.Reachable) :
    (candidate env number).Ensures s fun r s' => r = .ok () ∧ s.Restored s' := by
  refine ensures_bind (ensures_ask ?_)
  refine ensures_bind ((descend_ensures env number _ 1 hs).mono ?_)
  rintro r s₁ ⟨⟨failure, rfl⟩, h₁⟩
  cases failure with
  | none => exact ensures_pure ⟨rfl, h₁⟩
  | some e =>
    refine ensures_bind ((tell_restored env _ h₁.reachable).mono ?_)
    rintro r s₂ ⟨rfl, h₂⟩
    dsimp only
    refine (Restoring.ensures_ok ((restores env).toNeutral.count (by simp)) (.count _)
      h₂.reachable).mono ?_
    rintro r s₃ ⟨⟨_, rfl⟩, h₃⟩
    exact ⟨rfl, (h₁.trans h₂).trans h₃⟩

private theorem candidates_ensures (left number : Nat) (hs : s.controller.documents.Reachable) :
    (candidates env left number).Ensures s fun r s' => r = .ok () ∧
      s.RolledBack (List.range' number left) (List.range' number left) s' := by
  induction left generalizing s number with
  | zero => exact ensures_pure ⟨rfl, (Restored.refl hs).rolledBack⟩
  | succ left ih =>
    refine ensures_bind (ensures_ask ?_)
    refine ensures_bind ((tell_restored env _ hs).mono ?_)
    rintro r s₁ ⟨rfl, h₁⟩
    refine ensures_bind (ensures_change (ensures_bind (ensures_ask (ensures_bind
      (ensures_note ?_)))))
    have hbegan := rolledBack_began h₁.reachable number
    refine ensures_bind ((candidate_ensures env number hbegan.reachable).mono ?_)
    rintro r s₂ ⟨rfl, h₂⟩
    refine ensures_bind (ensures_ask (ensures_bind (ensures_note ?_)))
    have hended := rolledBack_ended h₂.reachable number
    refine (ih (number + 1) hended.reachable).mono ?_
    rintro r s₃ ⟨rfl, h₃⟩
    refine ⟨rfl, ?_⟩
    rw [List.range'_succ]
    exact h₁.rolledBack.trans (hbegan.trans (h₂.rolledBack.trans (hended.trans h₃)))

theorem repair_ensures (hs : s.controller.documents.Reachable) :
    (repair env).Ensures s fun r s' => r = .ok s'.controller.stats ∧
      s.RolledBack (List.range' 1 s.controller.settings.candidates)
        (List.range' 1 s.controller.settings.candidates) s' := by
  refine ensures_bind (ensures_ask (ensures_bind ((candidates_ensures env _ 1 hs).mono ?_)))
  rintro r s₁ ⟨rfl, h₁⟩
  exact ensures_ask ⟨rfl, h₁⟩

private theorem probe_ensures (hs : s.controller.documents.Reachable) :
    (probe env).Ensures s fun _ s' => s.Restored s' := by
  refine ensures_bind ((Restoring.ensures ((restores env).drawFaulty .null) hs).mono ?_)
  rintro (e | faulty) s₁ h₁
  · exact h₁
  refine ensures_bind (ensures_ask (ensures_bind (ensures_ofExcept ?_)))
  cases Mutation.create .null faulty none s₁.controller.documents with
  | error e => exact h₁
  | ok m =>
    refine ensures_bind ((mutate_ensures m h₁.reachable).mono ?_)
    rintro (e | m) s₂ h₂
    · exact h₁.trans h₂
    refine ensures_bind (ensures_attempted ((Restoring.ensures (restores env).probeApplied
      h₂.reachable).mono ?_))
    intro outcome s₃ h₃
    refine ensures_bind ((undo_ensures ((h₁.made h₂).restored h₃)).mono ?_)
    rintro r s₄ ⟨rfl, h₄⟩
    exact ensures_ofExcept h₄

end

end Step

namespace Controller

variable {σ W κ : Type}

/-- The documents and the patches are those of the controller, and so they were wherever a candidate
started or was over. No undo failed. -/
structure RolledBack (c : Controller σ W) (s : State σ W κ) : Prop where
  reachable : s.controller.documents.Reachable
  documents : s.controller.documents.Same c.documents
  patches : s.controller.patches = c.patches
  events : ∀ e ∈ s.history, e.Sound fun ds ps => ds.Same c.documents ∧ ps = c.patches

private theorem rolledBack_of_state {c : Controller σ W} {outside : κ} {started finished : List Nat}
    {s : State σ W κ} (h : (⟨c, outside, []⟩ : State σ W κ).RolledBack started finished s) :
    c.RolledBack s ∧ s.history.reverse.filterMap Event.began? = started ∧
      s.history.reverse.filterMap Event.ended? = finished := by
  obtain ⟨es, hes, hsound, hstarted, hfinished⟩ := h.history
  rw [List.append_nil] at hes
  refine ⟨⟨h.reachable, DocumentSet.same_of_content h.content, h.patches, ?_⟩, ?_, ?_⟩
  · intro e he
    refine (hsound e (hes ▸ he)).mono fun ds ps hkept => ?_
    exact ⟨DocumentSet.same_of_content hkept.1, hkept.2⟩
  · rw [hes, hstarted]
  · rw [hes, hfinished]

variable [Weight W] [RandomSource σ W]

/-- A repair runs all its candidates, and no candidate leaves a trace on the documents or on the
patches, whatever the collaborators do. The same holds of a probe, which may fail. -/
theorem repair_probe_rolledBack (c : Controller σ W) (env : Collaborators κ) (outside : κ)
    (hc : c.documents.Reachable) :
    (∃ s : State σ W κ, c.execute (Step.repair env) outside = (.ok s.controller.stats, s) ∧
      c.repair env outside = (.ok s.controller.stats, s.controller, s.outside) ∧
      s.controller.stats.candidatesRun = c.stats.candidatesRun + c.settings.candidates ∧
      s.history.reverse.filterMap Event.began? = List.range' 1 c.settings.candidates ∧
      s.history.reverse.filterMap Event.ended? = List.range' 1 c.settings.candidates ∧
      c.RolledBack s) ∧
    ∃ answer, ∃ s : State σ W κ, c.execute (Step.probe env) outside = (answer, s) ∧
      c.probe env outside = (answer, s.controller, s.outside) ∧ c.RolledBack s := by
  refine ⟨?_, ?_⟩
  · obtain ⟨hanswer, hstate⟩ := Step.repair_ensures env (s := ⟨c, outside, []⟩) hc
    obtain ⟨hrolled, hbegan, hended⟩ := rolledBack_of_state hstate
    have hexec : c.execute (Step.repair env) outside = (_, _) := Prod.ext hanswer rfl
    refine ⟨_, hexec, ?_, ?_, hbegan, hended, hrolled⟩
    · rw [repair, run, hexec]
      rfl
    · rw [hstate.candidatesRun, List.length_range']
  · have hstate := Step.probe_ensures env (s := ⟨c, outside, []⟩) hc
    exact ⟨_, _, rfl, rfl, (rolledBack_of_state hstate.rolledBack).1⟩

/-- Collaborators of which none does what it is asked to. -/
def failing : Collaborators Unit where
  checkScope _ k := (.error (.collaborator "scope"), k)
  appendLog _ k := (.error (.collaborator "log"), k)
  compile _ k := (.error (.collaborator "compiler"), k)
  runTests k := (.error (.testExecution "tests"), k)
  record _ k := (none, k)
  tell _ k := k

/-- A controller of one document with one statement to change. -/
def single : Controller WeylProduct Float where
  documents := ⟨[.ofText "a.py" "a" .python Document.nestedText]⟩
  faulty := ⟨#[⟨1, 1, ⟨0, 0⟩⟩], 1⟩
  seeds := .empty
  settings := ⟨2, 3, 1, .fixed .deletion, .always, false, true⟩
  faultySource := ⟨0⟩
  seedSource := ⟨1⟩
  policySource := ⟨2⟩
  patches := []
  stats := Stats.zero

theorem single_reachable : single.documents.Reachable := by
  intro d hd
  rw [List.mem_singleton.mp hd]
  exact Document.reachable_ofText _ _ _ _

/-- Two candidates whose log cannot be written. -/
theorem single_rolledBack : ∃ s : State WeylProduct Float Unit,
    single.execute (Step.repair failing) () = (.ok s.controller.stats, s) ∧
      s.controller.stats.candidatesRun = 2 ∧ s.controller.patches = [] ∧
      s.controller.documents.Same single.documents := by
  obtain ⟨⟨s, hexec, _, hrun, _, _, hrolled⟩, _⟩ :=
    repair_probe_rolledBack single failing () single_reachable
  exact ⟨s, hexec, hrun, hrolled.patches, hrolled.documents⟩

/-- A controller of one document with two statements to change and to take from. -/
def pair : Controller WeylProduct Float where
  documents := single.documents
  faulty := ⟨#[⟨1, 1, ⟨0, 2⟩⟩, ⟨1, 2, ⟨0, 1⟩⟩], 2⟩
  seeds := ⟨#[⟨1, 1, ⟨0, 1⟩⟩, ⟨1, 2, ⟨0, 2⟩⟩], 2⟩
  settings := ⟨3, 2, 2, .random, .always, false, true⟩
  faultySource := ⟨0⟩
  seedSource := ⟨1⟩
  policySource := ⟨2⟩
  patches := []
  stats := Stats.zero

/-- Collaborators that count builds. The first build fails, the fourth one cannot be started, and
the program of every second one passes its tests. -/
def counting : Collaborators Nat where
  checkScope _ k := (.error (.collaborator "scope"), k)
  appendLog _ k := (.ok (), k)
  compile _ k :=
    (if k = 0 then .ok (-1) else if k = 3 then .error (.collaborator "compiler") else .ok 0, k + 1)
  runTests k := (.ok (if k % 2 = 0 then 1 else 0), k)
  record found k :=
    (some ⟨found.candidate, found.generation, "", found.mutations, "", none, ""⟩, k)
  tell _ k := k

end Controller

end RepairSearch.Search
