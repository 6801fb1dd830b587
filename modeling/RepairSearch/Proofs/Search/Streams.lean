import RepairSearch.Proofs.Mutation.Created
import RepairSearch.Proofs.Search.Rollback
import RepairSearch.Proofs.Search.Trace

/-!
# Choices and outcomes

What a search chooses does not depend on what comes of it. Every generation asks the policy once
and every attempt draws a faulty statement once, whatever happens in between, so two searches from
one seed choose the same for as long as both go on.
-/

namespace RepairSearch.Search

/-- A source gives some answers one after another and is then in another state. -/
inductive Yields {σ α : Type} (ask : σ → α × σ) : σ → List α → σ → Prop
  | nil (g : σ) : Yields ask g [] g
  | cons {g g' : σ} {as : List α} (h : Yields ask (ask g).2 as g') :
      Yields ask g ((ask g).1 :: as) g'

namespace Yields

variable {σ α : Type} {ask : σ → α × σ} {g g' g'' : σ} {as bs : List α}

private theorem trans (h : Yields ask g as g') (h' : Yields ask g' bs g'') :
    Yields ask g (as ++ bs) g'' := by
  induction h with
  | nil g => exact h'
  | cons h ih => exact .cons (ih h')

private theorem one (g : σ) : Yields ask g [(ask g).1] (ask g).2 := .cons (.nil _)

private theorem agree (h : Yields ask g as g') (h' : Yields ask g bs g'') {n : Nat} {a b : α}
    (ha : as[n]? = some a) (hb : bs[n]? = some b) : a = b := by
  induction h generalizing bs n with
  | nil g => simp at ha
  | cons h ih =>
    cases h' with
    | nil => simp at hb
    | cons h' =>
      cases n with
      | zero =>
        rw [List.getElem?_cons_zero, Option.some.injEq] at ha hb
        exact ha.symm.trans hb
      | succ n => exact ih h' ha hb

end Yields

namespace Event

def chosen? : Event → Option MutationKind
  | .chose kind => some kind
  | _ => none

def drawn? : Event → Option (Except RepairError StatementRef)
  | .drew _ answer => some answer
  | _ => none

/-- The kinds of mutations that the generations of a history try, oldest first. -/
def kinds (history : List Event) : List MutationKind := history.reverse.filterMap chosen?

/-- The statements that the attempts of a history aim at, oldest first. -/
def targets (history : List Event) : List (Except RepairError StatementRef) :=
  history.reverse.filterMap drawn?

/-- The kind that the latest generation tries. -/
def latestKind (history : List Event) : Option MutationKind := history.findSome? chosen?

/-- What the latest attempt drew, and for a mutation of which kind. -/
def latestDraw : List Event → Option (MutationKind × Except RepairError StatementRef)
  | [] => none
  | .drew kind answer :: _ => some (kind, answer)
  | _ :: es => latestDraw es

/-- An attempt draws for the kind of its generation, and the mutation that is made is the one that
was drawn for. -/
def Intended (e : Event) (earlier : List Event) : Prop :=
  match e with
  | .drew kind _ => latestKind earlier = some kind
  | .made m => latestDraw earlier = some (m.kind, .ok m.faulty)
  | _ => True

variable {e : Event} {es : List Event}

private theorem Passive.intended (h : e.Passive) : e.Intended es := by
  cases e with
  | chose kind | drew kind answer | made m => exact h.elim
  | _ => trivial

private theorem Passive.chosen? (h : e.Passive) : e.chosen? = none := by
  cases e with
  | chose kind | drew kind answer | made m => exact h.elim
  | _ => rfl

private theorem Passive.drawn? (h : e.Passive) : e.drawn? = none := by
  cases e with
  | chose kind | drew kind answer | made m => exact h.elim
  | _ => rfl

end Event

namespace State

variable {σ W κ : Type}

section

variable [Weight W] [RandomSource σ W]

/-- The sources have given what the generations and attempts since have chosen. -/
structure Streamed (s s' : State σ W κ) : Prop where
  faulty : s'.controller.faulty = s.controller.faulty
  policy : s'.controller.settings.policy = s.controller.settings.policy
  history : ∃ es, s'.history = es ++ s.history ∧
    Yields (s.controller.settings.policy.choose (W := W)) s.controller.policySource
      (Event.kinds es) s'.controller.policySource ∧
    Yields s.controller.faulty.draw s.controller.faultySource (Event.targets es)
      s'.controller.faultySource

variable {s s' s'' : State σ W κ}

private theorem Streamed.trans (h : s.Streamed s') (h' : s'.Streamed s'') : s.Streamed s'' := by
  obtain ⟨es, hes, hkinds, htargets⟩ := h.history
  obtain ⟨es', hes', hkinds', htargets'⟩ := h'.history
  rw [h.policy] at hkinds'
  rw [h.faulty] at htargets'
  refine ⟨h'.faulty.trans h.faulty, h'.policy.trans h.policy, es' ++ es, ?_, ?_, ?_⟩
  · rw [hes', hes, List.append_assoc]
  · rw [Event.kinds, List.reverse_append, List.filterMap_append]
    exact hkinds.trans hkinds'
  · rw [Event.targets, List.reverse_append, List.filterMap_append]
    exact htargets.trans htargets'

private theorem Streamed.chained : Chained (Streamed : State σ W κ → State σ W κ → Prop) where
  refl _ := ⟨rfl, rfl, [], rfl, .nil _, .nil _⟩
  trans := Streamed.trans

private theorem Streamed.steady (env : Collaborators κ) :
    Steady env (Streamed : State σ W κ → State σ W κ → Prop) where
  toOutward := Streamed.chained.outward (fun _ _ => ⟨rfl, rfl, [], rfl, .nil _, .nil _⟩) env
  controller s c hfaulty hsettings hfaultySource hpolicySource := by
    refine ⟨hfaulty, congrArg Settings.policy hsettings, [], rfl, ?_, ?_⟩
    · exact hpolicySource ▸ .nil _
    · exact hfaultySource ▸ .nil _
  note s e he := by
    refine ⟨rfl, rfl, [e], rfl, ?_, ?_⟩
    · simpa [Event.kinds, he.chosen?] using Yields.nil _
    · simpa [Event.targets, he.drawn?] using Yields.nil _

end

end State

namespace Step

open State

variable {σ W κ : Type} [Weight W] [RandomSource σ W]

private theorem chooseKind_streamed :
    (chooseKind : Step σ W κ MutationKind).Keeps Streamed := fun _ =>
  ensures_bind (ensures_ask (ensures_bind (ensures_change (ensures_bind (ensures_note
    (ensures_pure ⟨rfl, rfl, [_], rfl, .one _, .nil _⟩))))))

private theorem drawFaulty_streamed (kind : MutationKind) :
    (drawFaulty kind : Step σ W κ StatementRef).Keeps Streamed := fun _ =>
  ensures_bind (ensures_ask (ensures_bind (ensures_change (ensures_bind (ensures_note
    (ensures_ofExcept ⟨rfl, rfl, [_], rfl, .nil _, .one _⟩))))))

private theorem mutate_streamed (m : Mutation) : (mutate m : Step σ W κ Mutation).Keeps Streamed :=
  Streamed.chained.mutate (fun _ _ => ⟨rfl, rfl, [], rfl, .nil _, .nil _⟩)
    (fun _ _ => ⟨rfl, rfl, [_], rfl, .nil _, .nil _⟩) m

private theorem drawMutation_streamed (kind : MutationKind) :
    (drawMutation kind : Step σ W κ Mutation).Keeps Streamed :=
  Streamed.chained.drawMutation (fun _ _ => ⟨rfl, rfl, [], rfl, .nil _, .nil _⟩)
    (drawFaulty_streamed kind)

private theorem repair_streamed (env : Collaborators κ) :
    (repair env : Step σ W κ Stats).Keeps Streamed := by
  have h := Streamed.steady (σ := σ) (W := W) env
  exact h.repair (h.bind chooseKind_streamed fun kind => h.bind (h.ask _) fun _ =>
    h.tryMutations drawMutation_streamed mutate_streamed h.undo kind _)

end Step

namespace State

variable {σ W κ : Type}

/-- All that was chosen and made so far was intended. -/
def Intended (s : State σ W κ) : Prop := Event.Throughout Event.Intended s.history

/-- The generation under way tries this kind of mutations. -/
structure Pursues (kind : MutationKind) (s : State σ W κ) : Prop where
  intended : s.Intended
  latest : Event.latestKind s.history = some kind

private theorem Intended.steady (env : Collaborators κ) :
    Steady env (fun s s' => s.Intended → s'.Intended : State σ W κ → State σ W κ → Prop) where
  refl _ hs := hs
  trans h h' hs := h' (h hs)
  asked _ _ _ hs := hs
  told _ _ _ hs := hs
  controller _ _ _ _ _ _ hs := hs
  note _ _ he hs := Event.throughout_cons.mpr ⟨he.intended, hs⟩

private theorem Pursues.steady (env : Collaborators κ) (kind : MutationKind) : Steady env
    (fun s s' => s.Pursues kind → s'.Pursues kind : State σ W κ → State σ W κ → Prop) where
  refl _ hs := hs
  trans h h' hs := h' (h hs)
  asked _ _ _ hs := ⟨hs.intended, hs.latest⟩
  told _ _ _ hs := ⟨hs.intended, hs.latest⟩
  controller _ _ _ _ _ _ hs := ⟨hs.intended, hs.latest⟩
  note _ e he hs := by
    refine ⟨Event.throughout_cons.mpr ⟨he.intended, hs.intended⟩, ?_⟩
    rw [Event.latestKind, List.findSome?_cons, he.chosen?]
    exact hs.latest

end State

namespace Step

open State

variable {σ W κ : Type} {s : State σ W κ} {kind : MutationKind}

private theorem mutate_intended {m : Mutation} (hs : s.Pursues kind)
    (hm : Event.latestDraw s.history = some (m.kind, .ok m.faulty)) :
    (mutate m).Ensures s fun _ s' => s'.Pursues kind := by
  refine ensures_bind (ensures_ask (ensures_bind (ensures_ofExcept ?_)))
  cases hmade : m.mutate s.controller.documents with
  | error e => exact hs
  | ok made =>
    obtain ⟨made, ds⟩ := made
    have hcontinues := Mutation.continues_of_mutate hmade
    refine ensures_bind (ensures_change (ensures_bind (ensures_note (ensures_pure
      ⟨Event.throughout_cons.mpr ⟨?_, hs.intended⟩, hs.latest⟩))))
    change Event.latestDraw s.history = some (made.kind, .ok made.faulty)
    rw [hm, hcontinues.kind, hcontinues.faulty]

variable [Weight W] [RandomSource σ W]

private theorem drawFaulty_intended (hs : s.Pursues kind) :
    (drawFaulty kind : Step σ W κ StatementRef).Ensures s fun r s' => s'.Pursues kind ∧
      Event.latestDraw s'.history = some (kind, r) :=
  ensures_bind (ensures_ask (ensures_bind (ensures_change (ensures_bind (ensures_note
    (ensures_ofExcept
      ⟨⟨Event.throughout_cons.mpr ⟨hs.latest, hs.intended⟩, hs.latest⟩, rfl⟩))))))

private theorem drawMutation_intended (hs : s.Pursues kind) :
    (drawMutation kind : Step σ W κ Mutation).Ensures s fun r s' => s'.Pursues kind ∧
      ∀ m, r = .ok m → Event.latestDraw s'.history = some (m.kind, .ok m.faulty) := by
  refine ensures_bind ((drawFaulty_intended hs).mono ?_)
  rintro (e | faulty) s₁ ⟨h₁, hdraw⟩
  · exact ⟨h₁, by simp⟩
  -- the seed is drawn without a trace
  have hcreate (seed : Step σ W κ (Option StatementRef)) (hseed : seed.Keeps Silent) :
      (seed >>= fun r => ask (·.documents) >>= fun ds =>
        MonadExcept.ofExcept (Mutation.create kind faulty r ds)).Ensures s₁ fun r s' =>
          s'.Pursues kind ∧
            ∀ m, r = .ok m → Event.latestDraw s'.history = some (m.kind, .ok m.faulty) := by
    refine ensures_bind ((hseed s₁).mono ?_)
    intro r s₂ h₂
    have hs₂ : s₂.Pursues kind := by
      refine ⟨?_, h₂.history ▸ h₁.latest⟩
      rw [State.Intended, h₂.history]
      exact h₁.intended
    cases r with
    | error e => exact ⟨hs₂, by simp⟩
    | ok r =>
      refine ensures_bind (ensures_ask (ensures_ofExcept ⟨hs₂, fun m hm => ?_⟩))
      obtain ⟨hkind, hfaulty⟩ := Mutation.aims_of_create hm
      rw [h₂.history, hdraw, hkind, hfaulty]
  dsimp only
  split
  · exact hcreate _ (Silent.neutral.map some (Silent.neutral.drawSeed
      (fun _ _ => ⟨rfl, rfl, rfl, rfl⟩) faulty))
  · exact hcreate _ (Silent.neutral.pure none)

variable (env : Collaborators κ)

private theorem tryMutations_intended (n : Nat) (hs : s.Pursues kind) :
    (tryMutations env kind n : Step σ W κ Outcome).Ensures s fun _ s' => s'.Pursues kind := by
  have h := Pursues.steady (σ := σ) (W := W) env kind
  induction n generalizing s with
  | zero => exact ensures_pure hs
  | succ n ih =>
    refine ensures_bind ((drawMutation_intended hs).mono ?_)
    rintro (e | drawn) s₁ ⟨h₁, hdrawn⟩
    · exact h₁
    refine ensures_bind ((mutate_intended h₁ (hdrawn drawn rfl)).mono ?_)
    rintro (e | m) s₂ h₂
    · exact h₂
    refine ensures_bind ((h.tell _ s₂).mono ?_)
    rintro (e | _) s₃ h₃
    · exact h₃ h₂
    refine ensures_bind (ensures_attempted ((h.attempt m s₃).mono ?_))
    rintro (e | _ | status) s₄ h₄
    · exact (h.bind (h.attempted (h.undo m)) fun _ => h.throw e) s₄ |>.mono
        fun _ _ h₅ => h₅ (h₄ (h₃ h₂))
    · refine ensures_bind ((h.undo m s₄).mono ?_)
      rintro (e | _) s₅ h₅
      · exact h₅ (h₄ (h₃ h₂))
      · exact ih (h₅ (h₄ (h₃ h₂)))
    · exact ensures_pure (h₄ (h₃ h₂))

private theorem generation_intended (hs : s.Intended) :
    (generation env : Step σ W κ Outcome).Ensures s fun _ s' => s'.Intended := by
  refine ensures_bind (ensures_bind (ensures_ask (ensures_bind (ensures_change (ensures_bind
    (ensures_note (ensures_pure (ensures_bind (ensures_ask
      ((tryMutations_intended env _ ?_).mono fun _ _ h => h.intended))))))))))
  exact ⟨Event.throughout_cons.mpr ⟨trivial, hs⟩, rfl⟩

end Step

namespace Controller

variable {σ W κ₁ κ₂ : Type} [Weight W] [RandomSource σ W]

/-- What has happened when a repair is over, the latest first. -/
abbrev events {κ : Type} (c : Controller σ W) (env : Collaborators κ) (outside : κ) : List Event :=
  (c.execute (Step.repair env) outside).2.history

private theorem events_streamed {κ : Type} (c : Controller σ W) (env : Collaborators κ)
    (outside : κ) :
    ∃ g g', Yields (c.settings.policy.choose (W := W)) c.policySource
        (Event.kinds (c.events env outside)) g ∧
      Yields c.faulty.draw c.faultySource (Event.targets (c.events env outside)) g' := by
  obtain ⟨_, _, es, hes, hkinds, htargets⟩ :=
    Step.repair_streamed env (⟨c, outside, []⟩ : State σ W κ)
  rw [List.append_nil] at hes
  rw [events, execute, hes]
  exact ⟨_, _, hkinds, htargets⟩

private theorem repair_intended {κ : Type} (c : Controller σ W) (env : Collaborators κ)
    (outside : κ) :
    Event.Throughout Event.Intended (c.events env outside) :=
  (State.Intended.steady env).repair (fun _ hs => Step.generation_intended env hs)
    ⟨c, outside, []⟩ (Event.throughout_nil _)

/-- Two searches from one seed try the same kinds of mutations at the same statements for as long as
both go on, whatever comes of them, and every attempt is of the kind that its generation has
chosen. -/
theorem repair_choices_agree (ds : DocumentSet) (faulty seeds : Pool W) (seed : UInt64)
    (settings₁ settings₂ : Settings) (hpolicy : settings₁.policy = settings₂.policy)
    (c₁ c₂ : Controller σ W) (h₁ : c₁ = start ds faulty seeds settings₁ seed)
    (h₂ : c₂ = start ds faulty seeds settings₂ seed)
    (env₁ : Collaborators κ₁) (env₂ : Collaborators κ₂) (outside₁ : κ₁) (outside₂ : κ₂) :
    (∀ (n : Nat) k₁ k₂, (Event.kinds (c₁.events env₁ outside₁))[n]? = some k₁ →
      (Event.kinds (c₂.events env₂ outside₂))[n]? = some k₂ → k₁ = k₂) ∧
    (∀ (n : Nat) t₁ t₂, (Event.targets (c₁.events env₁ outside₁))[n]? = some t₁ →
      (Event.targets (c₂.events env₂ outside₂))[n]? = some t₂ → t₁ = t₂) ∧
    Event.Throughout Event.Intended (c₁.events env₁ outside₁) ∧
    Event.Throughout Event.Intended (c₂.events env₂ outside₂) := by
  obtain ⟨_, _, hkinds₁, htargets₁⟩ := events_streamed c₁ env₁ outside₁
  obtain ⟨_, _, hkinds₂, htargets₂⟩ := events_streamed c₂ env₂ outside₂
  have hkind : c₁.settings.policy = c₂.settings.policy := by rw [h₁, h₂]; exact hpolicy
  have hpolicySource : c₁.policySource = c₂.policySource := by rw [h₁, h₂]; rfl
  have hpool : c₁.faulty = c₂.faulty := by rw [h₁, h₂]; rfl
  have hfaultySource : c₁.faultySource = c₂.faultySource := by rw [h₁, h₂]; rfl
  rw [hkind, hpolicySource] at hkinds₁
  rw [hpool, hfaultySource] at htargets₁
  exact ⟨fun n k₁ k₂ => hkinds₁.agree hkinds₂, fun n t₁ t₂ => htargets₁.agree htargets₂,
    repair_intended c₁ env₁ outside₁, repair_intended c₂ env₂ outside₂⟩

/-- A controller that starts from a seed, with a number of attempts. -/
def pairFrom (seed : UInt64) (attempts : Nat) : Controller WeylProduct Float :=
  start pair.documents pair.faulty pair.seeds { pair.settings with attempts } seed

/-- One search whose log fails in every attempt, and one that tries more often and goes further. -/
theorem failing_counting_agree :
    (pairFrom 9 2).settings.policy = (pairFrom 9 4).settings.policy ∧
    (Event.kinds ((pairFrom 9 2).events failing ()) = [.replacement, .deletion, .addition] ∧
      (Event.targets ((pairFrom 9 2).events failing ())).map Except.toOption =
        [some ⟨0, 1⟩, some ⟨0, 2⟩, some ⟨0, 1⟩]) ∧
    (Event.kinds ((pairFrom 9 4).events counting 0) =
        [.replacement, .deletion, .addition, .replacement, .addition] ∧
      (Event.targets ((pairFrom 9 4).events counting 0)).map Except.toOption =
        [some ⟨0, 1⟩, some ⟨0, 2⟩, some ⟨0, 1⟩, some ⟨0, 1⟩, some ⟨0, 2⟩, some ⟨0, 1⟩]) ∧
    (∀ (n : Nat) k₁ k₂, (Event.kinds ((pairFrom 9 2).events failing ()))[n]? = some k₁ →
      (Event.kinds ((pairFrom 9 4).events counting 0))[n]? = some k₂ → k₁ = k₂) ∧
    ∀ (n : Nat) t₁ t₂, (Event.targets ((pairFrom 9 2).events failing ()))[n]? = some t₁ →
      (Event.targets ((pairFrom 9 4).events counting 0))[n]? = some t₂ → t₁ = t₂ := by
  obtain ⟨hkinds, htargets, _⟩ := repair_choices_agree pair.documents pair.faulty pair.seeds 9
    { pair.settings with attempts := 2 } { pair.settings with attempts := 4 } rfl (pairFrom 9 2)
    (pairFrom 9 4) rfl rfl failing counting () 0
  exact ⟨rfl, by decide +kernel, by decide +kernel, hkinds, htargets⟩

end Controller

end RepairSearch.Search
