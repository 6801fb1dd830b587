import Mathlib.Data.Prod.Lex
import RepairSearch.Proofs.Search.Trace

/-!
# The order of what is recorded

Candidates are numbered upwards and so are the generations of each, and a generation records its
program once at most. So no two records of a repair belong to one generation of one candidate.
-/

namespace RepairSearch.Search

namespace Event

/-- The candidate and the generation whose program was recorded. -/
def recorded? : Event → Option (ℕ ×ₗ ℕ)
  | .recorded found _ => some (toLex (found.candidate, found.generation))
  | _ => none

/-- Whose programs were recorded in a history, oldest first. -/
def recordings (history : List Event) : List (ℕ ×ₗ ℕ) := history.reverse.filterMap recorded?

private theorem recordings_append (es es' : List Event) :
    recordings (es' ++ es) = recordings es ++ recordings es' := by
  rw [recordings, List.reverse_append, List.filterMap_append]
  rfl

private theorem recordings_eq_nil {es : List Event} (h : ∀ e ∈ es, e.recorded? = none) :
    recordings es = [] :=
  List.filterMap_eq_nil_iff.mpr fun e he => h e (List.mem_reverse.mp he)

private theorem OfGeneration.recorded?_eq_none {e : Event} (h : e.OfGeneration) :
    e.recorded? = none := by
  cases e with
  | recorded found answer => exact h.elim
  | _ => rfl

end Event

namespace State

variable {σ W κ : Type}

/-- What was recorded since is strictly increasing and lies between two bounds, the upper one of
which it does not reach. -/
def Records (lo hi : ℕ ×ₗ ℕ) (s s' : State σ W κ) : Prop :=
  ∃ es, s'.history = es ++ s.history ∧ (Event.recordings es).Pairwise (· < ·) ∧
    ∀ p ∈ Event.recordings es, lo ≤ p ∧ p < hi

variable {lo mid hi : ℕ ×ₗ ℕ} {s s' s'' : State σ W κ}

private theorem Records.trans (h : s.Records lo mid s') (h' : s'.Records mid hi s'')
    (hlo : lo ≤ mid) (hhi : mid ≤ hi) : s.Records lo hi s'' := by
  obtain ⟨es, hes, hsorted, hbounds⟩ := h
  obtain ⟨es', hes', hsorted', hbounds'⟩ := h'
  refine ⟨es' ++ es, by rw [hes', hes, List.append_assoc], ?_⟩
  rw [Event.recordings_append]
  constructor
  · rw [List.pairwise_append]
    refine ⟨hsorted, hsorted', ?_⟩
    intro p hp q hq
    exact lt_of_lt_of_le (hbounds p hp).2 (hbounds' q hq).1
  · intro p hp
    rcases List.mem_append.mp hp with hp | hp
    · exact ⟨(hbounds p hp).1, lt_of_lt_of_le (hbounds p hp).2 hhi⟩
    · exact ⟨hlo.trans (hbounds' p hp).1, (hbounds' p hp).2⟩

private theorem Writes.records {kind : Event → Prop} (h : s.Writes kind s')
    (hkind : ∀ e, kind e → e.recorded? = none) (lo hi : ℕ ×ₗ ℕ) : s.Records lo hi s' := by
  obtain ⟨es, hes, hall⟩ := h
  have hnone := Event.recordings_eq_nil fun e he => hkind e (hall e he)
  refine ⟨es, hes, ?_, ?_⟩
  · rw [hnone]
    exact .nil
  · rw [hnone]
    exact fun p hp => absurd hp List.not_mem_nil

private theorem Silent.records (h : s.Silent s') (lo hi : ℕ ×ₗ ℕ) : s.Records lo hi s' := by
  have hwrites : s.Writes (fun _ => False) s' :=
    ⟨[], h.history, fun _ he => absurd he List.not_mem_nil⟩
  exact hwrites.records (fun _ he => he.elim) lo hi

private theorem Records.mono {hi' : ℕ ×ₗ ℕ} (h : s.Records lo hi s') (hle : hi ≤ hi') :
    s.Records lo hi' s' := by
  obtain ⟨es, hes, hsorted, hbounds⟩ := h
  exact ⟨es, hes, hsorted, fun p hp => ⟨(hbounds p hp).1, lt_of_lt_of_le (hbounds p hp).2 hle⟩⟩

private theorem Records.refl (s : State σ W κ) (lo hi : ℕ ×ₗ ℕ) : s.Records lo hi s :=
  ⟨[], rfl, .nil, fun _ hp => absurd hp List.not_mem_nil⟩

private theorem Records.quiet {kind : Event → Prop} (h : s.Records lo hi s')
    (h' : s'.Writes kind s'') (hkind : ∀ e, kind e → e.recorded? = none) : s.Records lo hi s'' := by
  obtain ⟨es, hes, hsorted, hbounds⟩ := h
  obtain ⟨es', hes', hall⟩ := h'
  have hnone := Event.recordings_eq_nil fun e he => hkind e (hall e he)
  refine ⟨es' ++ es, by rw [hes', hes, List.append_assoc], ?_⟩
  rw [Event.recordings_append, hnone, List.append_nil]
  exact ⟨hsorted, hbounds⟩

private theorem Records.note (h : s.Records lo hi s') {e : Event} (he : e.recorded? = none) :
    s.Records lo hi { s' with history := e :: s'.history } := by
  have hwrites : s'.Writes (fun e => e.recorded? = none) { s' with history := e :: s'.history } :=
    (Writes.refl s').note he
  exact h.quiet hwrites fun _ h => h

end State

namespace Step

open State

variable {σ W κ : Type} {s : State σ W κ} (env : Collaborators κ)

private theorem le_next (candidate number : Nat) :
    (toLex (candidate, number) : ℕ ×ₗ ℕ) ≤ toLex (candidate, number + 1) := by
  rw [Prod.Lex.toLex_le_toLex]
  exact .inr ⟨rfl, Nat.le_succ number⟩

private theorem le_last (candidate number : Nat) :
    (toLex (candidate, number) : ℕ ×ₗ ℕ) ≤ toLex (candidate + 1, 0) := by
  rw [Prod.Lex.toLex_le_toLex]
  exact .inl (Nat.lt_succ_self candidate)

private theorem keep_records (candidate number : Nat) (m : Mutation) (status : Int) :
    (keep env candidate number m status).Ensures s fun _ s' =>
      s.Records (toLex (candidate, number)) (toLex (candidate, number + 1)) s' := by
  refine ensures_bind (ensures_note (ensures_bind (ensures_change ?_)))
  have hkept : Event.recorded? (.kept number m status) = none := rfl
  dsimp only
  split
  · refine (record_silent env candidate number _).mono ?_
    rintro r s' ⟨rfl, answer, h⟩
    refine ⟨[.recorded ⟨candidate, number, _, _⟩ answer, .kept number m status], h.history, ?_, ?_⟩
    · exact List.pairwise_singleton _ _
    · intro p hp
      obtain rfl := List.mem_singleton.mp hp
      refine ⟨le_rfl, ?_⟩
      rw [Prod.Lex.toLex_lt_toLex]
      exact .inr ⟨rfl, Nat.lt_succ_self number⟩
  · exact ensures_pure ⟨[.kept number m status], rfl, .nil, fun p hp => absurd hp List.not_mem_nil⟩

section

variable [Weight W] [RandomSource σ W]

private theorem descend_records (candidate left number : Nat) :
    (descend env candidate left number).Ensures s fun _ s' =>
      s.Records (toLex (candidate, number)) (toLex (candidate + 1, 0)) s' := by
  have hnext := le_next candidate
  have hlast := le_last candidate
  induction left generalizing s number with
  | zero => exact ensures_pure (Records.refl s _ _)
  | succ left ih =>
    refine ensures_bind (ensures_ask (ensures_bind ((tell_silent env _).mono ?_)))
    rintro r s₁ ⟨rfl, h₁⟩
    refine ensures_bind (ensures_attempted ((generation_writes env s₁).mono ?_))
    intro r s₂ h₂
    have hstart : s.Records (toLex (candidate, number)) (toLex (candidate, number)) s₂ :=
      (h₁.records _ _).quiet h₂ fun _ he => he.recorded?_eq_none
    rcases r with e | ⟨m, status⟩ | _
    · exact ensures_bind (ensures_note (ensures_pure ((hstart.mono (hlast number)).note rfl)))
    · refine ensures_bind ((keep_records env candidate number m status).mono ?_)
      intro r s₃ h₃
      replace h₃ := hstart.trans h₃ le_rfl (hnext number)
      cases r with
      | error e => exact h₃.mono (hlast _)
      | ok _ =>
        refine ensures_bind ((ih (number + 1)).mono ?_)
        intro r s₄ h₄
        replace h₄ := h₃.trans h₄ (hnext _) (hlast _)
        cases r with
        | error e => exact h₄
        | ok failure =>
          refine ensures_bind (ensures_change (ensures_bind ((undo_writes m _).mono ?_)))
          rintro r s₅ ⟨es, hes, hall⟩
          have hundo : s₄.Writes Event.OfGeneration s₅ := ⟨es, hes, hall⟩
          have hundone := h₄.quiet hundo fun _ he => he.recorded?_eq_none
          cases r with
          | error e => exact hundone
          | ok _ => exact ensures_pure hundone
    · refine ensures_bind (ensures_ask ?_)
      dsimp only
      split
      · exact ensures_pure (hstart.mono (hlast number))
      · refine (ih (number + 1)).mono ?_
        intro r s₃ h₃
        exact (hstart.mono (hnext number)).trans h₃ (hnext _) (hlast _)

private theorem candidate_records (number : Nat) :
    (candidate env number).Ensures s fun _ s' =>
      s.Records (toLex (number, 0)) (toLex (number + 1, 0)) s' := by
  have hgeneration : (toLex (number, 0) : ℕ ×ₗ ℕ) ≤ toLex (number, 1) := le_next number 0
  have hstart := Records.refl s (toLex (number, 0)) (toLex (number, 1))
  refine ensures_bind (ensures_ask (ensures_bind ((descend_records env number _ 1).mono ?_)))
  intro r s₁ h₁
  replace h₁ := hstart.trans h₁ hgeneration (le_last number 1)
  rcases r with e | _ | e
  · exact h₁
  · exact ensures_pure h₁
  · refine ensures_bind ((tell_silent env _).mono ?_)
    rintro r s₂ ⟨rfl, h₂⟩
    exact ensures_change (h₁.trans (h₂.records _ _) (le_last number 0) le_rfl)

private theorem candidates_records (left number : Nat) :
    (candidates env left number).Ensures s fun _ s' =>
      s.Records (toLex (number, 0)) (toLex (number + left, 0)) s' := by
  have hle (n k : Nat) : (toLex (n, 0) : ℕ ×ₗ ℕ) ≤ toLex (n + k, 0) := by
    rw [Prod.Lex.toLex_le_toLex]
    omega
  induction left generalizing s number with
  | zero => exact ensures_pure (Records.refl s _ _)
  | succ left ih =>
    rw [← Nat.add_assoc, Nat.add_right_comm]
    refine ensures_bind (ensures_ask (ensures_bind ((tell_silent env _).mono ?_)))
    rintro r s₁ ⟨rfl, h₁⟩
    have hstart : s.Records (toLex (number, 0)) (toLex (number, 0)) s₁ := h₁.records _ _
    refine ensures_bind (ensures_change (ensures_bind (ensures_ask (ensures_bind
      (ensures_note ?_)))))
    refine ensures_bind ((candidate_records env number).mono ?_)
    intro r s₂ h₂
    replace h₂ := (hstart.note rfl).trans h₂ le_rfl (hle number 1)
    cases r with
    | error e => exact h₂.mono (hle (number + 1) left)
    | ok _ =>
      refine ensures_bind (ensures_ask (ensures_bind (ensures_note ((ih (number + 1)).mono ?_))))
      intro r s₃ h₃
      exact (h₂.note rfl).trans h₃ (hle number 1) (hle (number + 1) left)

theorem repair_records : (repair env).Ensures s fun _ s' =>
    s.Records (toLex (1, 0)) (toLex (1 + s.controller.settings.candidates, 0)) s' := by
  refine ensures_bind (ensures_ask (ensures_bind ((candidates_records env _ 1).mono ?_)))
  intro r s₁ h₁
  cases r with
  | error e => exact h₁
  | ok _ => exact ensures_ask h₁

end

end Step

end RepairSearch.Search
