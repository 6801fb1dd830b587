import RepairSearch.Search.Run

/-!
# Reasoning about steps

What the steps of a search lead to is stated of the answer and of the state after them. A sequence
of steps is then followed one by one.
-/

namespace RepairSearch.Search

namespace Step

variable {σ W κ α β : Type}

theorem exec_bind (x : Step σ W κ α) (f : α → Step σ W κ β) (s : State σ W κ) :
    exec (x >>= f) s = match exec x s with
      | (.ok a, s') => exec (f a) s'
      | (.error e, s') => (.error e, s') := by
  simp only [exec, ExceptT.run_bind, StateT.run_bind]
  rcases x.run.run s with ⟨_ | _, _⟩ <;> rfl

theorem exec_ofExcept (r : Except RepairError α) (s : State σ W κ) :
    exec (MonadExcept.ofExcept r : Step σ W κ α) s = (r, s) := by
  cases r <;> rfl

/-- The answer of a step and the state after it satisfy a condition. -/
def Ensures (x : Step σ W κ α) (s : State σ W κ)
    (post : Except RepairError α → State σ W κ → Prop) : Prop :=
  post (exec x s).1 (exec x s).2

section Rules

variable {x : Step σ W κ α} {s : State σ W κ}
  {post post' : Except RepairError α → State σ W κ → Prop}

theorem Ensures.mono (h : x.Ensures s post) (himp : ∀ r s', post r s' → post' r s') :
    x.Ensures s post' := himp _ _ h

theorem Ensures.and (h : x.Ensures s post) (h' : x.Ensures s post') :
    x.Ensures s fun r s' => post r s' ∧ post' r s' := ⟨h, h'⟩

theorem ensures_any (h : ∀ r s', post r s') : x.Ensures s post := h _ _

theorem ensures_bind {f : α → Step σ W κ β} {post : Except RepairError β → State σ W κ → Prop}
    (hok : x.Ensures s fun r s' => match r with
      | .ok a => (f a).Ensures s' post
      | .error e => post (.error e) s') : (x >>= f).Ensures s post := by
  rw [Ensures] at hok ⊢
  rw [exec_bind]
  rcases hx : exec x s with ⟨r, s'⟩
  rw [hx] at hok
  cases r with
  | ok a => exact hok
  | error e => exact hok

theorem ensures_pure {a : α} (h : post (.ok a) s) : (pure a : Step σ W κ α).Ensures s post := h

theorem ensures_throw {e : RepairError} (h : post (.error e) s) :
    (throw e : Step σ W κ α).Ensures s post := h

theorem ensures_ofExcept {r : Except RepairError α} (h : post r s) :
    (MonadExcept.ofExcept r : Step σ W κ α).Ensures s post := by
  rw [Ensures, exec_ofExcept]
  exact h

theorem ensures_ask {question : Controller σ W → α} (h : post (.ok (question s.controller)) s) :
    (ask question).Ensures s post := h

theorem ensures_change {f : Controller σ W → Controller σ W}
    {post : Except RepairError Unit → State σ W κ → Prop}
    (h : post (.ok ()) { s with controller := f s.controller }) : (change f).Ensures s post := h

theorem ensures_note {e : Event} {post : Except RepairError Unit → State σ W κ → Prop}
    (h : post (.ok ()) { s with history := e :: s.history }) : (note e).Ensures s post := h

private theorem ensures_act {f : κ → α × κ}
    (h : post (.ok (f s.outside).1) { s with outside := (f s.outside).2 }) :
    (act f).Ensures s post := h

theorem ensures_call {f : κ → α × κ} {event : α → Event}
    (h : post (.ok (f s.outside).1)
      { s with outside := (f s.outside).2, history := event (f s.outside).1 :: s.history }) :
    (call f event).Ensures s post := h

theorem ensures_attempted {post : Except RepairError (Except RepairError α) → State σ W κ → Prop}
    (h : x.Ensures s fun r s' => post (.ok r) s') : (attempted x).Ensures s post := h

end Rules

/-- A step that has an answer in every state. -/
def Total (x : Step σ W κ α) : Prop := ∀ s : State σ W κ, x.Ensures s fun r _ => ∃ a, r = .ok a

namespace Total

private theorem bind {x : Step σ W κ α} {f : α → Step σ W κ β} (hx : x.Total)
    (hf : ∀ a, (f a).Total) :
    (x >>= f).Total := by
  intro s
  refine ensures_bind ((hx s).mono ?_)
  rintro r s' ⟨a, rfl⟩
  exact hf a s'

private theorem pure (a : α) : (Pure.pure a : Step σ W κ α).Total := fun _ => ensures_pure ⟨a, rfl⟩

private theorem ask (question : Controller σ W → α) : (Step.ask question : Step σ W κ α).Total :=
  fun _ => ensures_ask ⟨_, rfl⟩

theorem count (f : Stats → Stats) : (Step.count f : Step σ W κ Unit).Total :=
  fun _ => ensures_change ⟨(), rfl⟩

private theorem act (f : κ → α × κ) :
    (Step.act f : Step σ W κ α).Total := fun _ => ensures_act ⟨_, rfl⟩

private theorem call (f : κ → α × κ) (event : α → Event) :
    (Step.call f event : Step σ W κ α).Total :=
  fun _ => ensures_call ⟨_, rfl⟩

private theorem tell (env : Collaborators κ) (notice : Notice) :
    (Step.tell env notice : Step σ W κ Unit).Total := by
  refine bind (ask _) fun quiet => ?_
  split
  · exact pure _
  · exact act _

theorem record (env : Collaborators κ) (candidate generation : Nat) :
    (Step.record env candidate generation : Step σ W κ Unit).Total := by
  refine bind (ask _) fun found => bind (call _ _) fun recorded => ?_
  cases recorded with
  | none => exact pure _
  | some recorded => exact bind (count _) fun _ => tell env _

end Total

/-- Whatever the answer is, the state after the step stands in a relation to the one before. -/
def Keeps (R : State σ W κ → State σ W κ → Prop) (x : Step σ W κ α) : Prop :=
  ∀ s, x.Ensures s fun _ s' => R s s'

end Step

/-- What the collaborators make of the world outside when they are asked for something. -/
inductive Collaborators.Answers {κ : Type} (env : Collaborators κ) (k : κ) : κ → Prop
  | checkScope (d : Document) : Answers env k (env.checkScope d k).2
  | appendLog (text : String) : Answers env k (env.appendLog text k).2
  | compile (ds : DocumentSet) : Answers env k (env.compile ds k).2
  | runTests : Answers env k (env.runTests k).2
  | record (found : FoundPatch) : Answers env k (env.record found k).2

namespace Event

/-- The choices that a mutation comes from. -/
def OfChoice : Event → Prop
  | .chose _ | .drew _ _ => True
  | _ => False

/-- What happens while a mutation is tried. -/
def OfTrial : Event → Prop
  | .checked _ _ | .logged _ _ | .compiled _ _ | .tested _ _ => True
  | _ => False

/-- Events that choose nothing and make nothing. -/
def Passive : Event → Prop
  | .chose _ | .drew _ _ | .made _ => False
  | _ => True

theorem OfTrial.passive {e : Event} (h : e.OfTrial) : e.Passive := by
  cases e with
  | checked d answer | logged text answer | compiled ds answer | tested ds answer => trivial
  | _ => exact h.elim

end Event

namespace State

variable {σ W κ : Type}

/-- A relation between the states before and after that holds of no steps at all and of one step
after another. -/
structure Chained (R : State σ W κ → State σ W κ → Prop) : Prop where
  refl : ∀ s, R s s
  trans : ∀ {s s' s''}, R s s' → R s' s'' → R s s''

/-- A relation that the collaborators may be asked for things in, and told of things if the search
is not quiet. -/
structure Outward (env : Collaborators κ) (R : State σ W κ → State σ W κ → Prop) : Prop
    extends Chained R where
  asked : ∀ s k, env.Answers s.outside k → R s { s with outside := k }
  told : ∀ s notice, s.controller.settings.quiet = false →
    R s { s with outside := env.tell notice s.outside }

/-- A relation that a step stays in as long as it changes neither the documents nor the patches and
writes nothing down. -/
structure Neutral (R : State σ W κ → State σ W κ → Prop) : Prop extends Chained R where
  controller : ∀ s c, c.documents = s.controller.documents → c.patches = s.controller.patches →
    c.settings = s.controller.settings →
    c.stats.candidatesRun = s.controller.stats.candidatesRun → R s { s with controller := c }

/-- A relation that a step may also choose mutations in. -/
structure Choosing (R : State σ W κ → State σ W κ → Prop) : Prop extends Neutral R where
  choice : ∀ s e, e.OfChoice → R s { s with history := e :: s.history }

/-- A relation that mutations may be tried in, once they are made. -/
structure Trying (env : Collaborators κ) (R : State σ W κ → State σ W κ → Prop) : Prop
    extends Outward env R where
  counting : ∀ (s : State σ W κ) (f : Stats → Stats),
    (∀ t, (f t).candidatesRun = t.candidatesRun) →
      R s { s with controller := { s.controller with stats := f s.controller.stats } }
  trial : ∀ s e, e.OfTrial → R s { s with history := e :: s.history }

/-- A relation that mutations may be chosen and tried in. -/
structure Inert (env : Collaborators κ) (R : State σ W κ → State σ W κ → Prop) : Prop
    extends Choosing R, Trying env R where
  counting := fun s _ hf => controller s _ rfl rfl rfl (hf s.controller.stats)

/-- A relation that a step stays in as long as it neither chooses nor makes a mutation. -/
structure Steady (env : Collaborators κ) (R : State σ W κ → State σ W κ → Prop) : Prop
    extends Trying env R where
  controller : ∀ s c, c.faulty = s.controller.faulty → c.settings = s.controller.settings →
    c.faultySource = s.controller.faultySource → c.policySource = s.controller.policySource →
    R s { s with controller := c }
  note : ∀ s e, e.Passive → R s { s with history := e :: s.history }
  counting := fun s _ _ => controller s _ rfl rfl rfl rfl
  trial := fun s e he => note s e he.passive

/-- All that was written down since is of some kind. -/
def Writes (kind : Event → Prop) (s s' : State σ W κ) : Prop :=
  ∃ es, s'.history = es ++ s.history ∧ ∀ e ∈ es, kind e

namespace Writes

variable {kind : Event → Prop} {s s' s'' : State σ W κ}

theorem refl (s : State σ W κ) : s.Writes kind s :=
  ⟨[], rfl, fun _ he => absurd he List.not_mem_nil⟩

theorem trans (h : s.Writes kind s') (h' : s'.Writes kind s'') : s.Writes kind s'' := by
  obtain ⟨es, hes, hkind⟩ := h
  obtain ⟨es', hes', hkind'⟩ := h'
  refine ⟨es' ++ es, by rw [hes', hes, List.append_assoc], ?_⟩
  intro e he
  rcases List.mem_append.mp he with he | he
  · exact hkind' e he
  · exact hkind e he

theorem note (h : s.Writes kind s') {e : Event} (he : kind e) :
    s.Writes kind { s' with history := e :: s'.history } :=
  h.trans ⟨[e], rfl, fun _ hf => List.mem_singleton.mp hf ▸ he⟩

theorem chained : Chained (Writes kind : State σ W κ → State σ W κ → Prop) := ⟨refl, trans⟩

theorem inert {env : Collaborators κ} (hchoice : ∀ e : Event, e.OfChoice → kind e)
    (htrial : ∀ e : Event, e.OfTrial → kind e) :
    Inert env (Writes kind : State σ W κ → State σ W κ → Prop) where
  toChained := chained
  asked s _ _ := refl s
  told s _ _ := refl s
  controller s _ _ _ _ _ := refl s
  choice s e he := (refl s).note (hchoice e he)
  trial s e he := (refl s).note (htrial e he)

end Writes

namespace Chained

open Step

variable {α β : Type} {R : State σ W κ → State σ W κ → Prop}
  {x : Step σ W κ α} {f : α → Step σ W κ β}

theorem bind (h : Chained R) (hx : x.Keeps R) (hf : ∀ a, (f a).Keeps R) : (x >>= f).Keeps R := by
  intro s
  refine ensures_bind ((hx s).mono ?_)
  intro r s₁ h₁
  cases r with
  | error e => exact h₁
  | ok a => exact (hf a s₁).mono fun _ _ h₂ => h.trans h₁ h₂

theorem pure (h : Chained R) (a : α) : (Pure.pure a : Step σ W κ α).Keeps R :=
  fun s => ensures_pure (h.refl s)

theorem map (h : Chained R) (g : α → β) (hx : x.Keeps R) : (g <$> x).Keeps R := by
  rw [← bind_pure_comp]
  exact h.bind hx fun _ => h.pure _

theorem throw (h : Chained R) (e : RepairError) : (MonadExcept.throw e : Step σ W κ α).Keeps R :=
  fun s => ensures_throw (h.refl s)

theorem ofExcept (h : Chained R) (r : Except RepairError α) :
    (MonadExcept.ofExcept r : Step σ W κ α).Keeps R := fun s => ensures_ofExcept (h.refl s)

theorem ask (h : Chained R) (question : Controller σ W → α) :
    (Step.ask question : Step σ W κ α).Keeps R := fun s => ensures_ask (h.refl s)

theorem attempted (_ : Chained R) (hx : x.Keeps R) : (Step.attempted x).Keeps R :=
  fun s => ensures_attempted (hx s)

theorem outward (h : Chained R) (houtside : ∀ s k, R s { s with outside := k })
    (env : Collaborators κ) : Outward env R :=
  ⟨h, fun s k _ => houtside s k, fun s _ _ => houtside s _⟩

theorem mutate (h : Chained R)
    (hdocuments : ∀ s ds, R s { s with controller := { s.controller with documents := ds } })
    (hmade : ∀ s m, R s { s with history := .made m :: s.history }) (m : Mutation) :
    (Step.mutate m : Step σ W κ Mutation).Keeps R := by
  refine h.bind (h.ask _) fun ds => h.bind (h.ofExcept _) ?_
  rintro ⟨made, ds'⟩
  exact h.bind (fun s => ensures_change (hdocuments s ds')) fun _ =>
    h.bind (fun s => ensures_note (hmade s made)) fun _ => h.pure _

theorem undo (h : Chained R)
    (hdocuments : ∀ s ds, R s { s with controller := { s.controller with documents := ds } })
    (hundid : ∀ s m answer, R s { s with history := .undid m answer :: s.history })
    (m : Mutation) : (Step.undo m : Step σ W κ Unit).Keeps R := by
  refine h.bind (h.ask _) fun ds => h.bind (fun s => ensures_note (hundid s m _)) fun _ =>
    h.bind (h.ofExcept _) ?_
  rintro ⟨undone, ds'⟩
  exact fun s => ensures_change (hdocuments s ds')

section

variable [Weight W] [RandomSource σ W] (h : Chained R)
  (hsource : ∀ s g, R s { s with controller := { s.controller with seedSource := g } })
include h hsource

theorem drawSeed (faulty : StatementRef) :
    (Step.drawSeed faulty : Step σ W κ StatementRef).Keeps R :=
  h.bind (h.ask _) fun _ => h.bind (fun s => ensures_change (hsource s _)) fun _ => h.ofExcept _

/-- A mutation is created from what is drawn. -/
theorem drawMutation {kind : MutationKind}
    (hfaulty : (Step.drawFaulty kind : Step σ W κ StatementRef).Keeps R) :
    (Step.drawMutation kind : Step σ W κ Mutation).Keeps R := by
  refine h.bind hfaulty fun faulty => ?_
  dsimp only
  split
  · exact h.bind (h.map some (h.drawSeed hsource faulty)) fun seed =>
      h.bind (h.ask _) fun _ => h.ofExcept _
  · exact h.bind (h.pure none) fun seed => h.bind (h.ask _) fun _ => h.ofExcept _

end

end Chained

namespace Outward

open Step

variable {α : Type} {env : Collaborators κ} {R : State σ W κ → State σ W κ → Prop}

theorem act (h : Outward env R) {g : κ → α × κ} (hg : ∀ k, env.Answers k (g k).2) :
    (Step.act g : Step σ W κ α).Keeps R := fun s => ensures_act (h.asked s _ (hg s.outside))

theorem tell (h : Outward env R) (notice : Notice) :
    (Step.tell env notice : Step σ W κ Unit).Keeps R := by
  intro s
  refine ensures_bind (ensures_ask ?_)
  dsimp only
  split
  · exact ensures_pure (h.refl s)
  · rename_i hloud
    exact ensures_act (h.told s notice (by simpa using hloud))

/-- Nothing can go wrong when the collaborators are told something. -/
theorem tell_ok (h : Outward env R) (notice : Notice) (s : State σ W κ) :
    (Step.tell env notice).Ensures s fun r s' => r = .ok () ∧ R s s' :=
  ((Total.tell env notice s).and (h.tell notice s)).mono fun _ _ ⟨⟨_, hr⟩, hs⟩ => ⟨hr, hs⟩

end Outward

namespace Neutral

open Step

variable {R : State σ W κ → State σ W κ → Prop}

private theorem change (h : Neutral R) {g : Controller σ W → Controller σ W}
    (hdocuments : ∀ c, (g c).documents = c.documents)
    (hpatches : ∀ c, (g c).patches = c.patches) (hsettings : ∀ c, (g c).settings = c.settings)
    (hstats : ∀ c, (g c).stats.candidatesRun = c.stats.candidatesRun) :
    (Step.change g : Step σ W κ Unit).Keeps R :=
  fun s => ensures_change (h.controller s _ (hdocuments _) (hpatches _) (hsettings _) (hstats _))

theorem count (h : Neutral R) {g : Stats → Stats}
    (hg : ∀ s, (g s).candidatesRun = s.candidatesRun) :
    (Step.count g : Step σ W κ Unit).Keeps R :=
  h.change (fun _ => rfl) (fun _ => rfl) (fun _ => rfl) fun c => hg c.stats

end Neutral

namespace Choosing

open Step

variable {R : State σ W κ → State σ W κ → Prop}

private theorem noteChoice (h : Choosing R) {e : Event} (he : e.OfChoice) :
    (Step.note e : Step σ W κ Unit).Keeps R := fun s => ensures_note (h.choice s e he)

variable [RandomSource σ W]

theorem chooseKind (h : Choosing R) : (Step.chooseKind : Step σ W κ MutationKind).Keeps R :=
  h.bind (h.ask _) fun _ =>
    h.bind (h.change (fun _ => rfl) (fun _ => rfl) (fun _ => rfl) fun _ => rfl) fun _ =>
      h.bind (h.noteChoice trivial) fun _ => h.pure _

variable [Weight W]

theorem drawFaulty (h : Choosing R) (kind : MutationKind) :
    (Step.drawFaulty kind : Step σ W κ StatementRef).Keeps R :=
  h.bind (h.ask _) fun _ =>
    h.bind (h.change (fun _ => rfl) (fun _ => rfl) (fun _ => rfl) fun _ => rfl) fun _ =>
      h.bind (h.noteChoice trivial) fun _ => h.ofExcept _

theorem drawMutation (h : Choosing R) (kind : MutationKind) :
    (Step.drawMutation kind : Step σ W κ Mutation).Keeps R :=
  h.toChained.drawMutation (fun s _ => h.controller s _ rfl rfl rfl rfl) (h.drawFaulty kind)

end Choosing

namespace Trying

open Step

variable {α : Type} {env : Collaborators κ} {R : State σ W κ → State σ W κ → Prop}

private theorem count (h : Trying env R) {g : Stats → Stats}
    (hg : ∀ t, (g t).candidatesRun = t.candidatesRun) :
    (Step.count g : Step σ W κ Unit).Keeps R := fun s => ensures_change (h.counting s g hg)

private theorem call (h : Trying env R) {g : κ → α × κ} (hg : ∀ k, env.Answers k (g k).2)
    {event : α → Event} (hevent : ∀ a, (event a).OfTrial) :
    (Step.call g event : Step σ W κ α).Keeps R :=
  fun s => ensures_call (h.trans (h.asked s _ (hg s.outside)) (h.trial _ _ (hevent _)))

private theorem passesGate (h : Trying env R) (m : Mutation) :
    (Step.passesGate env m : Step σ W κ Bool).Keeps R :=
  h.bind (h.ask _) fun _ => h.bind (h.ofExcept _) fun d =>
    h.bind (h.call (fun _ => .checkScope d) fun _ => trivial) fun _ => h.bind (h.ask _) fun _ =>
      h.pure _

private theorem compile (h : Trying env R) : (Step.compile env : Step σ W κ Int).Keeps R :=
  h.bind (h.count fun _ => rfl) fun _ => h.bind (h.ask _) fun ds =>
    h.bind (h.call (fun _ => .compile ds) fun _ => trivial) fun _ => h.ofExcept _

private theorem runTests (h : Trying env R) : (Step.runTests env : Step σ W κ Int).Keeps R :=
  h.bind (h.count fun _ => rfl) fun _ => h.bind (h.ask _) fun _ =>
    h.bind (h.call (fun _ => .runTests) fun _ => trivial) fun _ => h.ofExcept _

theorem attempt (h : Trying env R) (m : Mutation) :
    (Step.attempt env m : Step σ W κ (Option Int)).Keeps R := by
  refine h.bind (h.passesGate m) fun pass => ?_
  cases pass with
  | false => exact h.pure _
  | true =>
    refine h.bind (h.call (fun _ => .appendLog _) fun _ => trivial) fun _ =>
      h.bind (h.ofExcept _) fun _ => h.bind h.compile fun compiled => ?_
    split
    · exact h.bind (h.tell _) fun _ => h.pure _
    · refine h.bind (h.tell _) fun _ => h.bind (h.attempted h.runTests) fun tested => ?_
      cases tested with
      | ok status => exact h.bind (h.tell _) fun _ => h.pure _
      | error e => exact h.pure _

theorem probeApplied (h : Trying env R) : (Step.probeApplied env : Step σ W κ Probe).Keeps R := by
  refine h.bind h.compile fun status => ?_
  split
  · exact h.pure _
  · exact h.bind h.runTests fun tests => h.pure _

variable [Weight W] [RandomSource σ W]

/-- A relation that mutations may be drawn, made and undone in as well holds of all that are
tried. -/
theorem tryMutations (h : Trying env R) (hdraw : ∀ kind, (Step.drawMutation kind).Keeps R)
    (hmutate : ∀ m, (Step.mutate m).Keeps R) (hundo : ∀ m, (Step.undo m).Keeps R)
    (kind : MutationKind) (n : Nat) :
    (Step.tryMutations env kind n : Step σ W κ Step.Outcome).Keeps R := by
  induction n with
  | zero => exact h.pure _
  | succ n ih =>
    refine h.bind (hdraw kind) fun drawn => h.bind (hmutate drawn) fun m =>
      h.bind (h.tell _) fun _ => h.bind (h.attempted (h.attempt m)) fun answer => ?_
    rcases answer with e | _ | status
    · exact h.bind (h.attempted (hundo m)) fun _ => h.throw e
    · exact h.bind (hundo m) fun _ => ih
    · exact h.pure _

end Trying

/-- A relation that mutations may be made and undone in as well holds of whole generations. -/
theorem Inert.generation [Weight W] [RandomSource σ W] {R : State σ W κ → State σ W κ → Prop}
    {env : Collaborators κ} (h : Inert env R) (hmutate : ∀ m, (Step.mutate m).Keeps R)
    (hundo : ∀ m, (Step.undo m).Keeps R) :
    (Step.generation env : Step σ W κ Step.Outcome).Keeps R :=
  h.bind h.chooseKind fun kind => h.bind (h.ask _) fun _ =>
    h.tryMutations h.drawMutation hmutate hundo kind _

namespace Steady

open Step

variable {env : Collaborators κ} {R : State σ W κ → State σ W κ → Prop}

private theorem change (h : Steady env R) {g : Controller σ W → Controller σ W}
    (hfaulty : ∀ c, (g c).faulty = c.faulty) (hsettings : ∀ c, (g c).settings = c.settings)
    (hfaultySource : ∀ c, (g c).faultySource = c.faultySource)
    (hpolicySource : ∀ c, (g c).policySource = c.policySource) :
    (Step.change g : Step σ W κ Unit).Keeps R := fun s =>
  ensures_change (h.controller s _ (hfaulty _) (hsettings _) (hfaultySource _) (hpolicySource _))

private theorem noted (h : Steady env R) {e : Event} (he : e.Passive) :
    (Step.note e : Step σ W κ Unit).Keeps R := fun s => ensures_note (h.note s e he)

private theorem reported (h : Steady env R) {α : Type} {question : Controller σ W → Event}
    (hquestion : ∀ c, (question c).Passive) {f : Unit → Step σ W κ α} (hf : ∀ u, (f u).Keeps R) :
    (Step.ask question >>= fun e => Step.note e >>= f).Keeps R :=
  fun s => ensures_bind (ensures_ask (h.bind (h.noted (hquestion _)) hf s))

theorem undo (h : Steady env R) (m : Mutation) : (Step.undo m : Step σ W κ Unit).Keeps R :=
  h.toChained.undo (fun s _ => h.controller s _ rfl rfl rfl rfl) (fun s _ _ => h.note s _ trivial) m

private theorem keep (h : Steady env R) (candidate generation : Nat) (m : Mutation) (status : Int) :
    (Step.keep env candidate generation m status : Step σ W κ Unit).Keeps R := by
  refine h.bind (h.noted trivial) fun _ => h.bind
    (h.change (fun _ => rfl) (fun _ => rfl) (fun _ => rfl) fun _ => rfl) fun _ => ?_
  split
  · refine h.bind (h.ask _) fun found => h.bind ?_ fun recorded => ?_
    · exact h.bind (h.act fun _ => .record found) fun recorded =>
        h.bind (h.noted trivial) fun _ => h.pure _
    · cases recorded with
      | none => exact h.pure _
      | some recorded => exact h.bind (h.count fun _ => rfl) fun _ => h.tell _
  · exact h.pure _

variable [Weight W] [RandomSource σ W]

private theorem descend (h : Steady env R) (hgeneration : (Step.generation env).Keeps R)
    (candidate left number : Nat) :
    (Step.descend env candidate left number : Step σ W κ (Option RepairError)).Keeps R := by
  induction left generalizing number with
  | zero => exact h.pure _
  | succ left ih =>
    refine h.bind (h.ask _) fun _ => h.bind (h.tell _) fun _ =>
      h.bind (h.attempted hgeneration) fun outcome => ?_
    rcases outcome with e | ⟨m, status⟩ | _
    · exact h.bind (h.noted trivial) fun _ => h.pure _
    · exact h.bind (h.keep candidate number m status) fun _ => h.bind (ih _) fun failure =>
        h.bind (h.change (fun _ => rfl) (fun _ => rfl) (fun _ => rfl) fun _ => rfl) fun _ =>
          h.bind (h.undo m) fun _ => h.pure _
    · refine h.bind (h.ask _) fun recursion => ?_
      split
      · exact h.pure _
      · exact ih _

private theorem candidates (h : Steady env R) (hgeneration : (Step.generation env).Keeps R)
    (left number : Nat) : (Step.candidates env left number : Step σ W κ Unit).Keeps R := by
  have hcandidate (n : Nat) : (Step.candidate env n : Step σ W κ Unit).Keeps R := by
    refine h.bind (h.ask _) fun generations =>
      h.bind (h.descend hgeneration n generations 1) fun failure => ?_
    cases failure with
    | none => exact h.pure _
    | some e =>
      exact h.bind (h.tell _) fun _ =>
        h.change (fun _ => rfl) (fun _ => rfl) (fun _ => rfl) fun _ => rfl
  induction left generalizing number with
  | zero => exact h.pure _
  | succ left ih =>
    refine h.bind (h.ask _) fun _ => h.bind (h.tell _) fun _ =>
      h.bind (h.change (fun _ => rfl) (fun _ => rfl) (fun _ => rfl) fun _ => rfl) fun _ =>
        h.reported ?_ fun _ => h.bind (hcandidate number) fun _ => h.reported ?_ fun _ => ih _
    · exact fun _ => trivial
    · exact fun _ => trivial

/-- A relation that holds of generations holds of a whole repair. -/
theorem repair (h : Steady env R) (hgeneration : (Step.generation env).Keeps R) :
    (Step.repair env : Step σ W κ Stats).Keeps R :=
  h.bind (h.ask _) fun _ => h.bind (h.candidates hgeneration _ _) fun _ => h.ask _

end Steady

end State

end RepairSearch.Search
