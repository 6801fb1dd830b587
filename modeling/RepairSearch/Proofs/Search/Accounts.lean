import RepairSearch.Proofs.Search.Rollback
import RepairSearch.Session.Basic

/-!
# The accounts of a search

What a search counts is how often it has called its collaborators. It makes no more attempts in a
generation than it may, compiles once in an attempt at most, tests only what it has built and
records only what it has tested, so its settings bound its work.
-/

namespace RepairSearch.Search

namespace Event

/-- An attempt has started. -/
def isDrawn : Event → Bool
  | .drew _ _ => true
  | _ => false

/-- The log has been written. -/
def isLogged : Event → Bool
  | .logged _ (.ok _) => true
  | _ => false

def isCompiled : Event → Bool
  | .compiled _ _ => true
  | _ => false

/-- A build has not failed. -/
def isBuilt : Event → Bool
  | .compiled _ (.ok status) => 0 ≤ status
  | _ => false

def isTested : Event → Bool
  | .tested _ _ => true
  | _ => false

/-- A record has left something. -/
def isRecorded : Event → Bool
  | .recorded _ (some _) => true
  | _ => false

/-- The candidate that an error has ended. -/
def failed? : Event → Option Nat
  | .failed candidate _ _ => some candidate
  | _ => none

end Event

/-- How often things have happened. -/
@[ext]
structure Tally where
  drawn : Nat
  logged : Nat
  compiled : Nat
  built : Nat
  tested : Nat
  recorded : Nat

namespace Tally

instance : Zero Tally := ⟨⟨0, 0, 0, 0, 0, 0⟩⟩

instance : Add Tally where
  add a b := ⟨a.drawn + b.drawn, a.logged + b.logged, a.compiled + b.compiled, a.built + b.built,
    a.tested + b.tested, a.recorded + b.recorded⟩

@[simp] theorem zero_drawn : (0 : Tally).drawn = 0 := rfl
@[simp] theorem zero_logged : (0 : Tally).logged = 0 := rfl
@[simp] theorem zero_compiled : (0 : Tally).compiled = 0 := rfl
@[simp] theorem zero_built : (0 : Tally).built = 0 := rfl
@[simp] theorem zero_tested : (0 : Tally).tested = 0 := rfl
@[simp] theorem zero_recorded : (0 : Tally).recorded = 0 := rfl

variable (a b : Tally)

@[simp] theorem zero_add : 0 + a = a := by
  ext <;> exact Nat.zero_add _

@[simp] theorem add_zero : a + 0 = a := rfl

@[simp] theorem add_drawn : (a + b).drawn = a.drawn + b.drawn := rfl
@[simp] theorem add_logged : (a + b).logged = a.logged + b.logged := rfl
@[simp] theorem add_compiled : (a + b).compiled = a.compiled + b.compiled := rfl
@[simp] theorem add_built : (a + b).built = a.built + b.built := rfl
@[simp] theorem add_tested : (a + b).tested = a.tested + b.tested := rfl
@[simp] theorem add_recorded : (a + b).recorded = a.recorded + b.recorded := rfl

/-- What is in a history. -/
def of (es : List Event) : Tally where
  drawn := es.countP Event.isDrawn
  logged := es.countP Event.isLogged
  compiled := es.countP Event.isCompiled
  built := es.countP Event.isBuilt
  tested := es.countP Event.isTested
  recorded := es.countP Event.isRecorded

private theorem of_append (es es' : List Event) : of (es' ++ es) = of es + of es' := by
  ext <;> simp [of, Nat.add_comm]

/-- Every log entry is followed by a build, and every build that has not failed by tests. -/
structure Balanced (t : Tally) : Prop where
  logged : t.logged = t.compiled
  built : t.built = t.tested

variable {a b}

private theorem Balanced.add (ha : a.Balanced) (hb : b.Balanced) : (a + b).Balanced :=
  ⟨by simp [ha.logged, hb.logged], by simp [ha.built, hb.built]⟩

private theorem balanced_zero : (0 : Tally).Balanced := ⟨rfl, rfl⟩

/-- There are no more attempts than so many. An attempt compiles once at most, and what is recorded
has been tested. -/
structure Within (t : Tally) (n : Nat) : Prop extends Balanced t where
  compiled : t.compiled ≤ t.drawn
  drawn : t.drawn ≤ n
  recorded : t.recorded ≤ t.tested

private theorem Within.add {m n : Nat} (ha : a.Within m) (hb : b.Within n) :
    (a + b).Within (m + n) :=
  ⟨ha.toBalanced.add hb.toBalanced, Nat.add_le_add ha.compiled hb.compiled,
    Nat.add_le_add ha.drawn hb.drawn, Nat.add_le_add ha.recorded hb.recorded⟩

private theorem Within.mono {m n : Nat} (h : a.Within m) (hn : m ≤ n) : a.Within n :=
  ⟨h.toBalanced, h.compiled, Nat.le_trans h.drawn hn, h.recorded⟩

private theorem within_zero (n : Nat) : (0 : Tally).Within n :=
  ⟨balanced_zero, Nat.le_refl 0, Nat.zero_le n, Nat.le_refl 0⟩

end Tally

namespace State

variable {σ W κ : Type}

/-- So much has happened since, and the counts have grown by it. Errors have ended some candidates,
and so many of them are counted. -/
structure Counts (t : Tally) (failed : List Nat) (counted : Nat) (s s' : State σ W κ) : Prop where
  history : ∃ es, s'.history = es ++ s.history ∧ Tally.of es = t ∧
    es.reverse.filterMap Event.failed? = failed
  settings : s'.controller.settings = s.controller.settings
  compilations :
    s'.controller.stats.compilations = s.controller.stats.compilations + t.compiled
  testRuns : s'.controller.stats.testRuns = s.controller.stats.testRuns + t.tested
  patches : s'.controller.stats.patches = s.controller.stats.patches + t.recorded
  failures :
    s'.controller.stats.candidatesFailed = s.controller.stats.candidatesFailed + counted

/-- Nothing that is counted has happened. -/
abbrev Uncounted (s s' : State σ W κ) : Prop := s.Counts 0 [] 0 s'

variable {s s' s'' : State σ W κ} {t t' : Tally} {failed failed' : List Nat}
  {counted counted' : Nat}

private theorem Counts.trans (h : s.Counts t failed counted s')
    (h' : s'.Counts t' failed' counted' s'') :
    s.Counts (t + t') (failed ++ failed') (counted + counted') s'' := by
  obtain ⟨es, hes, ht, hfailed⟩ := h.history
  obtain ⟨es', hes', ht', hfailed'⟩ := h'.history
  refine ⟨⟨es' ++ es, ?_, ?_, ?_⟩, h'.settings.trans h.settings, ?_, ?_, ?_, ?_⟩
  · rw [hes', hes, List.append_assoc]
  · rw [Tally.of_append, ht, ht']
  · rw [List.reverse_append, List.filterMap_append, hfailed, hfailed']
  · rw [h'.compilations, h.compilations, Nat.add_assoc, Tally.add_compiled]
  · rw [h'.testRuns, h.testRuns, Nat.add_assoc, Tally.add_tested]
  · rw [h'.patches, h.patches, Nat.add_assoc, Tally.add_recorded]
  · rw [h'.failures, h.failures, Nat.add_assoc]

private theorem Uncounted.refl (s : State σ W κ) : s.Uncounted s :=
  ⟨⟨[], rfl, rfl, rfl⟩, rfl, rfl, rfl, rfl, rfl⟩

private theorem Uncounted.chained : Chained (Uncounted : State σ W κ → State σ W κ → Prop) where
  refl := Uncounted.refl
  trans := Counts.trans

private theorem Uncounted.outward (env : Collaborators κ) :
    Outward env (Uncounted : State σ W κ → State σ W κ → Prop) :=
  Uncounted.chained.outward (fun _ _ => ⟨⟨[], rfl, rfl, rfl⟩, rfl, rfl, rfl, rfl, rfl⟩) env

private theorem Counts.after (h' : s'.Counts t failed counted s'') (h : s.Uncounted s') :
    s.Counts t failed counted s'' := by
  simpa using h.trans h'

private theorem Counts.before (h : s.Counts t failed counted s') (h' : s'.Uncounted s'') :
    s.Counts t failed counted s'' := by
  simpa using h.trans h'

end State

namespace Step

open State Tally

variable {σ W κ : Type} {s : State σ W κ}

private theorem change_uncounted {f : Controller σ W → Controller σ W}
    (hsettings : ∀ c, (f c).settings = c.settings) (hstats : ∀ c, (f c).stats = c.stats) :
    (change f : Step σ W κ Unit).Keeps Uncounted := by
  intro s
  refine ensures_change ⟨⟨[], rfl, rfl, rfl⟩, hsettings _, ?_, ?_, ?_, ?_⟩
  all_goals
    dsimp only
    rw [hstats]
    rfl

private theorem note_uncounted {e : Event} (he : Tally.of [e] = 0) (hfailed : e.failed? = none) :
    (note e : Step σ W κ Unit).Keeps Uncounted := fun _ =>
  ensures_note ⟨⟨[e], rfl, he, by simp [hfailed]⟩, rfl, rfl, rfl, rfl, rfl⟩

private theorem mutate_uncounted (m : Mutation) :
    (mutate m : Step σ W κ Mutation).Keeps Uncounted :=
  Uncounted.chained.mutate (fun _ _ => ⟨⟨[], rfl, rfl, rfl⟩, rfl, rfl, rfl, rfl, rfl⟩)
    (fun _ _ => ⟨⟨[_], rfl, rfl, rfl⟩, rfl, rfl, rfl, rfl, rfl⟩) m

private theorem undo_uncounted (m : Mutation) : (undo m : Step σ W κ Unit).Keeps Uncounted :=
  Uncounted.chained.undo (fun _ _ => ⟨⟨[], rfl, rfl, rfl⟩, rfl, rfl, rfl, rfl, rfl⟩)
    (fun _ _ _ => ⟨⟨[_], rfl, rfl, rfl⟩, rfl, rfl, rfl, rfl, rfl⟩) m

section

variable (env : Collaborators κ)

private theorem tell_uncounted (notice : Notice) :
    (tell env notice).Ensures s fun r s' => r = .ok () ∧ s.Uncounted s' :=
  (Uncounted.outward env).tell_ok notice s

private theorem passesGate_uncounted (m : Mutation) :
    (passesGate env m : Step σ W κ Bool).Keeps Uncounted := by
  have h := Uncounted.chained (σ := σ) (W := W) (κ := κ)
  refine h.bind (h.ask _) fun ds => h.bind (h.ofExcept _) fun d => h.bind ?_ fun report =>
    h.bind (h.ask _) fun gate => h.pure _
  exact fun s => ensures_call ⟨⟨[_], rfl, rfl, rfl⟩, rfl, rfl, rfl, rfl, rfl⟩

private theorem appendLog_counts (text : String) :
    (call (env.appendLog text) (.logged text)).Ensures s fun r s' => match r with
      | .ok (.ok _) => s.Counts ⟨0, 1, 0, 0, 0, 0⟩ [] 0 s'
      | .ok (.error _) => s.Uncounted s'
      | .error _ => False := by
  refine ensures_call ?_
  cases (env.appendLog text s.outside).1 with
  | error e => exact ⟨⟨[_], rfl, rfl, rfl⟩, rfl, rfl, rfl, rfl, rfl⟩
  | ok _ => exact ⟨⟨[_], rfl, rfl, rfl⟩, rfl, rfl, rfl, rfl, rfl⟩

private theorem compile_counts : (compile env).Ensures s fun r s' => match r with
    | .ok status => s.Counts ⟨0, 0, 1, if 0 ≤ status then 1 else 0, 0, 0⟩ [] 0 s'
    | .error _ => s.Counts ⟨0, 0, 1, 0, 0, 0⟩ [] 0 s' := by
  refine ensures_bind (ensures_change (ensures_bind (ensures_ask (ensures_bind (ensures_call
    (ensures_ofExcept ?_))))))
  cases (env.compile s.controller.documents s.outside).1 with
  | error e => exact ⟨⟨[_], rfl, rfl, rfl⟩, rfl, rfl, rfl, rfl, rfl⟩
  | ok status =>
    refine ⟨⟨[_], rfl, ?_, rfl⟩, rfl, rfl, rfl, rfl, rfl⟩
    by_cases hstatus : 0 ≤ status
    · rw [if_pos hstatus]
      simp [of, hstatus, Event.isDrawn, Event.isLogged, Event.isCompiled, Event.isBuilt,
        Event.isTested, Event.isRecorded]
    · rw [if_neg hstatus]
      simp [of, hstatus, Event.isDrawn, Event.isLogged, Event.isCompiled, Event.isBuilt,
        Event.isTested, Event.isRecorded]

private theorem runTests_counts :
    (runTests env).Ensures s fun _ s' => s.Counts ⟨0, 0, 0, 0, 1, 0⟩ [] 0 s' :=
  ensures_bind (ensures_change (ensures_bind (ensures_ask (ensures_bind (ensures_call
    (ensures_ofExcept ⟨⟨[_], rfl, rfl, rfl⟩, rfl, rfl, rfl, rfl, rfl⟩))))))

private theorem attempt_counts (m : Mutation) :
    (attempt env m).Ensures s fun r s' => ∃ t, s.Counts t [] 0 s' ∧ t.Balanced ∧ t.drawn = 0 ∧
      t.compiled ≤ 1 ∧ t.recorded = 0 ∧ ∀ status, r = .ok (some status) → 0 < t.tested := by
  refine ensures_bind ((passesGate_uncounted env m s).mono ?_)
  rintro (e | _ | _) s₁ h₁
  · exact ⟨0, h₁, balanced_zero, rfl, Nat.zero_le _, rfl, by simp⟩
  · exact ensures_pure ⟨0, h₁, balanced_zero, rfl, Nat.zero_le _, rfl, by simp⟩
  refine ensures_bind ((appendLog_counts env m.text).mono ?_)
  rintro (e | e | _) s₂ h₂
  · exact h₂.elim
  · exact ensures_bind (ensures_ofExcept
      ⟨0, h₂.after h₁, balanced_zero, rfl, Nat.zero_le _, rfl, by simp⟩)
  · replace h₂ := h₂.after h₁
    refine ensures_bind (ensures_ofExcept ?_)
    refine ensures_bind ((compile_counts env).mono ?_)
    rintro (e | status) s₃ h₃
    · exact ⟨_, h₂.trans h₃, ⟨rfl, rfl⟩, rfl, Nat.le_refl 1, rfl, by simp⟩
    replace h₃ := h₂.trans h₃
    dsimp only
    split
    · rename_i hneg
      rw [if_neg (by omega)] at h₃
      refine ensures_bind ((tell_uncounted env _).mono ?_)
      rintro r s₄ ⟨rfl, h₄⟩
      exact ensures_pure ⟨_, h₃.before h₄, ⟨rfl, rfl⟩, rfl, Nat.le_refl 1, rfl, by simp⟩
    · rename_i hnonneg
      rw [if_pos (by omega)] at h₃
      refine ensures_bind ((tell_uncounted env _).mono ?_)
      rintro r s₄ ⟨rfl, h₄⟩
      refine ensures_bind (ensures_attempted ((runTests_counts env).mono ?_))
      intro answer s₅ h₅
      replace h₅ := (h₃.before h₄).trans h₅
      cases answer with
      | error e => exact ensures_pure ⟨_, h₅, ⟨rfl, rfl⟩, rfl, Nat.le_refl 1, rfl, by simp⟩
      | ok status =>
        refine ensures_bind ((tell_uncounted env _).mono ?_)
        rintro r s₆ ⟨rfl, h₆⟩
        exact ensures_pure ⟨_, h₅.before h₆, ⟨rfl, rfl⟩, rfl, Nat.le_refl 1, rfl,
          fun _ _ => Nat.one_pos⟩

private theorem record_counts (candidate generation : Nat) :
    (record env candidate generation).Ensures s fun _ s' => ∃ n ≤ 1,
      s.Counts ⟨0, 0, 0, 0, 0, n⟩ [] 0 s' := by
  refine ensures_bind (ensures_ask (ensures_bind (ensures_call ?_)))
  dsimp only
  cases (env.record ⟨candidate, generation, s.controller.patches, s.controller.documents⟩
    s.outside).1 with
  | none => exact ensures_pure ⟨0, by omega, ⟨⟨[_], rfl, rfl, rfl⟩, rfl, rfl, rfl, rfl, rfl⟩⟩
  | some recorded =>
    refine ensures_bind (ensures_change ?_)
    generalize hs₁ : ({ s with controller := _, outside := _, history := _ } : State σ W κ) = s₁
    have h₁ : s.Counts ⟨0, 0, 0, 0, 0, 1⟩ [] 0 s₁ := by
      rw [← hs₁]
      exact ⟨⟨[_], rfl, rfl, rfl⟩, rfl, rfl, rfl, rfl, rfl⟩
    refine (tell_uncounted env _).mono ?_
    rintro r s₂ ⟨rfl, h₂⟩
    exact ⟨1, Nat.le_refl 1, h₁.before h₂⟩

private theorem keep_counts (candidate generation : Nat) (m : Mutation) (status : Int) :
    (keep env candidate generation m status).Ensures s fun _ s' => ∃ n ≤ 1,
      s.Counts ⟨0, 0, 0, 0, 0, n⟩ [] 0 s' := by
  refine ensures_bind (ensures_note (ensures_bind (ensures_change ?_)))
  generalize hs₁ : ({ s with controller := _, history := _ } : State σ W κ) = s₁
  have h₁ : s.Uncounted s₁ := by
    rw [← hs₁]
    exact ⟨⟨[_], rfl, rfl, rfl⟩, rfl, rfl, rfl, rfl, rfl⟩
  dsimp only
  split
  · refine (record_counts env candidate generation).mono ?_
    rintro r s₂ ⟨n, hn, h₂⟩
    exact ⟨n, hn, h₂.after h₁⟩
  · exact ensures_pure ⟨0, by omega, h₁⟩

section

variable [Weight W] [RandomSource σ W]

private theorem drawFaulty_counts (kind : MutationKind) :
    (drawFaulty kind : Step σ W κ StatementRef).Ensures s fun _ s' =>
      s.Counts ⟨1, 0, 0, 0, 0, 0⟩ [] 0 s' :=
  ensures_bind (ensures_ask (ensures_bind (ensures_change (ensures_bind (ensures_note
    (ensures_ofExcept ⟨⟨[_], rfl, rfl, rfl⟩, rfl, rfl, rfl, rfl, rfl⟩))))))

private theorem drawMutation_counts (kind : MutationKind) :
    (drawMutation kind : Step σ W κ Mutation).Ensures s fun _ s' =>
      s.Counts ⟨1, 0, 0, 0, 0, 0⟩ [] 0 s' := by
  have h := Uncounted.chained (σ := σ) (W := W) (κ := κ)
  refine ensures_bind ((drawFaulty_counts kind).mono ?_)
  rintro (e | faulty) s₁ h₁
  · exact h₁
  have hseed := h.drawSeed (fun _ _ => ⟨⟨[], rfl, rfl, rfl⟩, rfl, rfl, rfl, rfl, rfl⟩) faulty
  dsimp only
  split
  · exact ((h.bind (h.map some hseed) fun _ => h.bind (h.ask _) fun _ => h.ofExcept _)
      s₁).mono fun _ _ h₂ => h₁.before h₂
  · exact ((h.bind (h.pure none) fun _ => h.bind (h.ask _) fun _ => h.ofExcept _)
      s₁).mono fun _ _ h₂ => h₁.before h₂

private theorem tryMutations_counts (kind : MutationKind) (n : Nat) :
    (tryMutations env kind n).Ensures s fun r s' => ∃ t, s.Counts t [] 0 s' ∧ t.Within n ∧
      match r with
      | .ok (.kept _ _) => t.recorded < t.tested
      | .ok .exhausted => t.drawn = n
      | .error _ => True := by
  induction n generalizing s with
  | zero => exact ensures_pure ⟨0, Uncounted.refl s, within_zero 0, rfl⟩
  | succ n ih =>
    have hdrawn : (⟨1, 0, 0, 0, 0, 0⟩ : Tally).Within (n + 1) :=
      ⟨⟨rfl, rfl⟩, Nat.zero_le _, Nat.succ_le_succ (Nat.zero_le n), Nat.le_refl 0⟩
    refine ensures_bind ((drawMutation_counts kind).mono ?_)
    rintro (e | drawn) s₁ h₁
    · exact ⟨_, h₁, hdrawn, trivial⟩
    refine ensures_bind ((mutate_uncounted drawn s₁).mono ?_)
    rintro (e | m) s₂ h₂
    · exact ⟨_, h₁.before h₂, hdrawn, trivial⟩
    refine ensures_bind ((tell_uncounted env _).mono ?_)
    rintro r s₃ ⟨rfl, h₃⟩
    refine ensures_bind (ensures_attempted ((attempt_counts env m).mono ?_))
    rintro r s₄ ⟨t, h₄, hbalanced, hdrew, hcompiled, hrecorded, htested⟩
    replace h₄ := ((h₁.before h₂).before h₃).trans h₄
    have hattempt : ((⟨1, 0, 0, 0, 0, 0⟩ : Tally) + t).Within 1 :=
      ⟨hdrawn.toBalanced.add hbalanced, by simp; omega, by simp; omega, by simp; omega⟩
    -- an error goes on when the mutation is undone, a mutation that failed makes room for others
    rcases r with e | _ | status
    · refine ensures_bind (ensures_attempted ((undo_uncounted m s₄).mono ?_))
      intro r s₅ h₅
      exact ensures_throw ⟨_, h₄.before h₅, hattempt.mono (by omega), trivial⟩
    · refine ensures_bind ((undo_uncounted m s₄).mono ?_)
      rintro (e | _) s₅ h₅
      · exact ⟨_, h₄.before h₅, hattempt.mono (by omega), trivial⟩
      · refine ih.mono ?_
        rintro r s₆ ⟨t', h₆, hrest, hr⟩
        refine ⟨_, (h₄.before h₅).trans h₆, (hattempt.add hrest).mono (by omega), ?_⟩
        rcases r with e | ⟨m, status⟩ | _
        · trivial
        · exact Nat.add_lt_add_of_le_of_lt hattempt.recorded hr
        · change 1 + t.drawn + t'.drawn = n + 1
          rw [hdrew, hr, Nat.add_comm]
    · refine ensures_pure ⟨_, h₄, hattempt.mono (by omega), ?_⟩
      change 0 + t.recorded < 0 + t.tested
      rw [hrecorded]
      exact Nat.add_lt_add_left (htested status rfl) 0

private theorem generation_counts :
    (generation env).Ensures s fun r s' => ∃ t, s.Counts t [] 0 s' ∧
      t.Within (max s.controller.settings.attempts 1) ∧
      match r with
      | .ok (.kept _ _) => t.recorded < t.tested
      | .ok .exhausted => t.drawn = max s.controller.settings.attempts 1
      | .error _ => True := by
  have h := Uncounted.chained (σ := σ) (W := W) (κ := κ)
  have hkind : (chooseKind : Step σ W κ MutationKind).Keeps Uncounted :=
    h.bind (h.ask _) fun _ => h.bind (change_uncounted (fun _ => rfl) fun _ => rfl) fun _ =>
      h.bind (note_uncounted rfl rfl) fun _ => h.pure _
  refine ensures_bind ((hkind s).mono ?_)
  rintro (e | kind) s₁ h₁
  · exact ⟨0, h₁, within_zero _, trivial⟩
  refine ensures_bind (ensures_ask ((tryMutations_counts env kind _).mono ?_))
  rintro r s₂ ⟨t, h₂, hwithin, hr⟩
  rw [h₁.settings] at hwithin hr
  exact ⟨t, h₂.after h₁, hwithin, hr⟩

private theorem descend_counts (candidate left number : Nat) :
    (descend env candidate left number).Ensures s fun r s' => match r with
      | .ok failure => ∃ t, s.Counts t (failure.toList.map fun _ => candidate) 0 s' ∧
          t.Within (left * max s.controller.settings.attempts 1)
      | .error _ => True := by
  induction left generalizing s number with
  | zero => exact ensures_pure ⟨0, Uncounted.refl s, within_zero _⟩
  | succ left ih =>
    refine ensures_bind (ensures_ask (ensures_bind ((tell_uncounted env _).mono ?_)))
    rintro r s₁ ⟨rfl, h₁⟩
    refine ensures_bind (ensures_attempted ((generation_counts env).mono ?_))
    rintro r s₂ ⟨t, h₂, hwithin, hr⟩
    replace h₂ := h₂.after h₁
    rw [h₁.settings] at hwithin hr
    rw [Nat.succ_mul, Nat.add_comm (left * max s.controller.settings.attempts 1)]
    -- the descent ends with the error, or goes on below what was kept or without a mutation
    rcases r with e | ⟨m, status⟩ | _
    · refine ensures_bind (ensures_note (ensures_pure ⟨t, ?_, hwithin.mono (by omega)⟩))
      have hfailed : s₂.Counts 0 [candidate] 0
          { s₂ with history := .failed candidate number e :: s₂.history } :=
        ⟨⟨[_], rfl, rfl, rfl⟩, rfl, rfl, rfl, rfl, rfl⟩
      simpa using h₂.trans hfailed
    · refine ensures_bind ((keep_counts env candidate number m status).mono ?_)
      rintro (e | _) s₃ ⟨n, hn, h₃⟩
      · trivial
      replace h₃ := h₂.trans h₃
      -- what is recorded was tested in this generation
      have hkept : (t + ⟨0, 0, 0, 0, 0, n⟩).Within (max s.controller.settings.attempts 1) :=
        ⟨hwithin.toBalanced.add ⟨rfl, rfl⟩, hwithin.compiled, hwithin.drawn,
          Nat.le_trans (Nat.add_le_add_left hn _) hr⟩
      refine ensures_bind ((ih (number + 1)).mono ?_)
      rintro (e | failure) s₄ h₄
      · trivial
      obtain ⟨t', h₄, hrest⟩ := h₄
      rw [h₃.settings] at hrest
      have hpop : (popPatch : Step σ W κ Unit).Keeps Uncounted :=
        change_uncounted (fun _ => rfl) fun _ => rfl
      refine ensures_bind ((hpop s₄).mono ?_)
      rintro (e | _) s₅ h₅
      · trivial
      refine ensures_bind ((undo_uncounted m s₅).mono ?_)
      rintro (e | _) s₆ h₆
      · trivial
      exact ensures_pure ⟨_, by simpa using ((h₃.trans h₄).before h₅).before h₆, hkept.add hrest⟩
    · refine ensures_bind (ensures_ask ?_)
      dsimp only
      split
      · exact ensures_pure ⟨t, h₂, hwithin.mono (by omega)⟩
      · refine (ih (number + 1)).mono ?_
        rintro (e | failure) s₃ h₃
        · trivial
        obtain ⟨t', h₃, hrest⟩ := h₃
        rw [h₂.settings] at hrest
        exact ⟨_, by simpa using h₂.trans h₃, hwithin.add hrest⟩

private theorem candidate_counts (number : Nat) :
    (candidate env number).Ensures s fun r s' => match r with
      | .ok _ => ∃ t failed, s.Counts t failed failed.length s' ∧ failed.Sublist [number] ∧
          t.Within (s.controller.settings.generations * max s.controller.settings.attempts 1)
      | .error _ => True := by
  refine ensures_bind (ensures_ask (ensures_bind ((descend_counts env number _ 1).mono ?_)))
  rintro (e | _ | e) s₁ h₁
  · trivial
  · obtain ⟨t, h₁, hwithin⟩ := h₁
    exact ensures_pure ⟨t, [], h₁, List.nil_sublist _, hwithin⟩
  · obtain ⟨t, h₁, hwithin⟩ := h₁
    refine ensures_bind ((tell_uncounted env _).mono ?_)
    rintro r s₂ ⟨rfl, h₂⟩
    refine ensures_change ⟨t, [number], ?_, List.Sublist.refl _, hwithin⟩
    have hcounted : s₂.Counts 0 [] 1 { s₂ with
        controller := { s₂.controller with
          stats := { s₂.controller.stats with
            candidatesFailed := s₂.controller.stats.candidatesFailed + 1 } } } :=
      ⟨⟨[], rfl, rfl, rfl⟩, rfl, rfl, rfl, rfl, rfl⟩
    simpa using (h₁.before h₂).trans hcounted

private theorem candidates_counts (left number : Nat) :
    (candidates env left number).Ensures s fun r s' => match r with
      | .ok _ => ∃ t failed, s.Counts t failed failed.length s' ∧
          failed.Sublist (List.range' number left) ∧
          t.Within (left * (s.controller.settings.generations *
            max s.controller.settings.attempts 1))
      | .error _ => True := by
  induction left generalizing s number with
  | zero => exact ensures_pure ⟨0, [], Uncounted.refl s, List.nil_sublist _, within_zero _⟩
  | succ left ih =>
    refine ensures_bind (ensures_ask (ensures_bind ((tell_uncounted env _).mono ?_)))
    rintro r s₁ ⟨rfl, h₁⟩
    refine ensures_bind (ensures_change (ensures_bind (ensures_ask (ensures_bind
      (ensures_note ?_)))))
    generalize hs₂ : ({ s₁ with controller := _, history := _ } : State σ W κ) = s₂
    have h₂ : s.Uncounted s₂ := by
      rw [← hs₂]
      exact h₁.before ⟨⟨[_], rfl, rfl, rfl⟩, rfl, rfl, rfl, rfl, rfl⟩
    refine ensures_bind ((candidate_counts env number).mono ?_)
    rintro (e | _) s₃ h₃
    · trivial
    obtain ⟨t, failed, h₃, hsub, hwithin⟩ := h₃
    rw [h₂.settings] at hwithin
    replace h₃ := h₃.after h₂
    refine ensures_bind (ensures_ask (ensures_bind (ensures_note ?_)))
    generalize hs₄ : ({ s₃ with history := _ } : State σ W κ) = s₄
    have h₄ : s.Counts t failed failed.length s₄ := by
      rw [← hs₄]
      exact h₃.before ⟨⟨[_], rfl, rfl, rfl⟩, rfl, rfl, rfl, rfl, rfl⟩
    refine (ih (number + 1)).mono ?_
    rintro (e | _) s₅ h₅
    · trivial
    obtain ⟨t', failed', h₅, hsub', hrest⟩ := h₅
    rw [h₄.settings] at hrest
    refine ⟨t + t', failed ++ failed', ?_, ?_, ?_⟩
    · rw [List.length_append]
      exact h₄.trans h₅
    · rw [List.range'_succ]
      exact hsub.append hsub'
    · exact (hwithin.add hrest).mono (by rw [Nat.succ_mul]; omega)

private theorem repair_counts :
    (repair env).Ensures s fun r s' => match r with
      | .ok _ => ∃ t failed, s.Counts t failed failed.length s' ∧
          failed.Sublist (List.range' 1 s.controller.settings.candidates) ∧
          t.Within (s.controller.settings.candidates * (s.controller.settings.generations *
            max s.controller.settings.attempts 1))
      | .error _ => True := by
  refine ensures_bind (ensures_ask (ensures_bind ((candidates_counts env _ 1).mono ?_)))
  rintro (e | _) s₁ h₁
  · trivial
  · exact ensures_ask h₁

end

end

end Step

namespace Event

private theorem countP_isBuilt_le (es : List Event) : es.countP isBuilt ≤ es.countP isCompiled := by
  refine List.countP_mono_left fun e _ he => ?_
  cases e with
  | compiled ds answer => rfl
  | _ => cases he

end Event

namespace Controller

variable {σ W κ : Type}

/-- The counts after a repair are those of its calls, and the settings bound them. -/
structure Accounted (c : Controller σ W) (s : State σ W κ) : Prop where
  compilations : s.controller.stats.compilations = s.history.countP Event.isCompiled
  logged : s.controller.stats.compilations = s.history.countP Event.isLogged
  testRuns : s.controller.stats.testRuns = s.history.countP Event.isTested
  built : s.controller.stats.testRuns = s.history.countP Event.isBuilt
  patches : s.controller.stats.patches = s.history.countP Event.isRecorded
  candidatesRun : s.controller.stats.candidatesRun = c.settings.candidates
  candidatesFailed : s.controller.stats.candidatesFailed =
    (s.history.reverse.filterMap Event.failed?).length
  /-- An error ends a candidate once. -/
  failed : (s.history.reverse.filterMap Event.failed?).Sublist
    (List.range' 1 c.settings.candidates)
  patches_le : s.controller.stats.patches ≤ s.controller.stats.testRuns
  testRuns_le : s.controller.stats.testRuns ≤ s.controller.stats.compilations
  compilations_le : s.controller.stats.compilations ≤
    c.settings.candidates * c.settings.generations * max c.settings.attempts 1

private theorem accounted_of_counts {c : Controller σ W} {outside : κ} {t : Tally}
    {failed : List Nat} {s : State σ W κ} (hfresh : c.stats = Stats.zero)
    (h : (⟨c, outside, []⟩ : State σ W κ).Counts t failed failed.length s)
    (hsub : failed.Sublist (List.range' 1 c.settings.candidates))
    (hwithin : t.Within (c.settings.candidates * (c.settings.generations *
      max c.settings.attempts 1)))
    (hrun : s.controller.stats.candidatesRun = c.settings.candidates) : c.Accounted s := by
  obtain ⟨es, hes, rfl, rfl⟩ := h.history
  rw [List.append_nil] at hes
  subst hes
  have hcompilations := h.compilations
  have htestRuns := h.testRuns
  have hpatches := h.patches
  have hfailures := h.failures
  simp only [hfresh, Stats.zero, Nat.zero_add] at hcompilations htestRuns hpatches hfailures
  refine ⟨hcompilations, ?_, htestRuns, ?_, hpatches, hrun, hfailures, hsub, ?_, ?_, ?_⟩
  · exact hcompilations.trans hwithin.logged.symm
  · exact htestRuns.trans hwithin.built.symm
  · rw [hpatches, htestRuns]
    exact hwithin.recorded
  · rw [htestRuns, hcompilations, ← hwithin.built]
    exact Event.countP_isBuilt_le s.history
  · rw [hcompilations, Nat.mul_assoc]
    exact Nat.le_trans hwithin.compiled hwithin.drawn

variable [Weight W] [RandomSource σ W]

/-- A repair comes to its end, whatever the collaborators do, and has counted its calls exactly.
Every generation makes as many attempts as it may at most, and is exhausted only after that many.
The recorder of a session gains what it answers with. -/
theorem repair_accounted (c : Controller σ W) (env : Collaborators κ) (outside : κ)
    (hreach : c.documents.Reachable) (hfresh : c.stats = Stats.zero) :
    (∃ s : State σ W κ, c.execute (Step.repair env) outside = (.ok s.controller.stats, s) ∧
      c.repair env outside = (.ok s.controller.stats, s.controller, s.outside) ∧
      c.Accounted s) ∧
    (∀ s : State σ W κ, ∃ es, ((Step.generation env).exec s).2.history = es ++ s.history ∧
      es.countP Event.isDrawn ≤ max s.controller.settings.attempts 1 ∧
      (((Step.generation env).exec s).1 = .ok .exhausted →
        es.countP Event.isDrawn = max s.controller.settings.attempts 1)) ∧
    ∀ build found (b : Session.Bench), (b.record build found).2.recorded =
      b.recorded ++ (b.record build found).1.toList := by
  refine ⟨?_, ?_, fun build found b => by simp only [Session.Bench.record]⟩
  · obtain ⟨hanswer, hstate⟩ := Step.repair_ensures env (s := ⟨c, outside, []⟩) hreach
    have hexec : c.execute (Step.repair env) outside = (_, _) := Prod.ext hanswer rfl
    refine ⟨_, hexec, by rw [repair, run, hexec]; rfl, ?_⟩
    have hcounts := Step.repair_counts env (s := ⟨c, outside, []⟩)
    rw [Step.Ensures, hanswer] at hcounts
    obtain ⟨t, failed, hcounts, hsub, hwithin⟩ := hcounts
    refine accounted_of_counts hfresh hcounts hsub hwithin ?_
    rw [hstate.candidatesRun, List.length_range', hfresh]
    exact Nat.zero_add _
  · intro s
    obtain ⟨t, hcounts, hwithin, hexhausted⟩ := Step.generation_counts env (s := s)
    obtain ⟨es, hes, rfl, _⟩ := hcounts.history
    refine ⟨es, hes, hwithin.drawn, fun h => ?_⟩
    rw [h] at hexhausted
    exact hexhausted

/-- Of three candidates, one is ended by a build that cannot be started. The programs of the
others are built five times and tested four times, and two of them are recorded. -/
theorem pair_accounted : pair.documents.Reachable ∧ pair.stats = Stats.zero ∧
    ∃ s : State WeylProduct Float Nat,
      pair.execute (Step.repair counting) 0 = (.ok s.controller.stats, s) ∧ pair.Accounted s ∧
        s.controller.stats = ⟨3, 1, 6, 4, 2⟩ ∧ s.history.countP Event.isCompiled = 6 ∧
        s.history.countP Event.isTested = 4 ∧ s.history.countP Event.isRecorded = 2 := by
  obtain ⟨⟨s, hexec, _, hs⟩, _⟩ := repair_accounted pair counting 0 single_reachable rfl
  have hstats : (pair.execute (Step.repair counting) 0).2.controller.stats = ⟨3, 1, 6, 4, 2⟩ := by
    decide +kernel
  rw [hexec] at hstats
  have hcompiled := hs.compilations
  have htested := hs.testRuns
  have hrecorded := hs.patches
  rw [hstats] at hcompiled htested hrecorded
  exact ⟨single_reachable, rfl, s, hexec, hs, hstats, hcompiled.symm, htested.symm, hrecorded.symm⟩

end Controller

end RepairSearch.Search
