import RepairSearch.Search.Collaborators
import RepairSearch.Search.Controller
import RepairSearch.Search.Event

/-!
# The descent of a candidate

A candidate goes down through generations. Each tries mutations of one kind until one compiles
and its tests can be run, keeps that one and hands over to the next generation. On the way up
every kept mutation is undone, so that the documents are again what they were.
-/

namespace RepairSearch.Search

structure State (σ W κ : Type) where
  controller : Controller σ W
  outside : κ
  /-- What has happened, the latest first. The search writes it down and never reads it. -/
  history : List Event

/-- Steps of a search. What a step changes stays changed when it fails. -/
abbrev Step (σ W κ : Type) := ExceptT RepairError (StateM (State σ W κ))

namespace Step

variable {σ W κ : Type}

/-- Takes a step: its answer, and the state that it leads to. -/
def exec {α : Type} (step : Step σ W κ α) (s : State σ W κ) :
    Except RepairError α × State σ W κ := step.run.run s

/-- Something that the controller says about itself. -/
def ask {α : Type} (question : Controller σ W → α) : Step σ W κ α :=
  return question (← get).controller

def change (f : Controller σ W → Controller σ W) : Step σ W κ Unit :=
  modify fun s => { s with controller := f s.controller }

def count (f : Stats → Stats) : Step σ W κ Unit :=
  change fun c => { c with stats := f c.stats }

def note (e : Event) : Step σ W κ Unit :=
  modify fun s => { s with history := e :: s.history }

/-- Lets something happen outside. -/
def act {α : Type} (f : κ → α × κ) : Step σ W κ α :=
  modifyGet fun s => let (a, k) := f s.outside; (a, { s with outside := k })

/-- Lets something happen outside, and writes down what came of it. -/
def call {α : Type} (f : κ → α × κ) (event : α → Event) : Step σ W κ α := do
  let a ← act f
  note (event a)
  return a

/-- A step whose failure is an answer like others. -/
def attempted {α : Type} (step : Step σ W κ α) : Step σ W κ (Except RepairError α) :=
  ExceptT.mk do return .ok (← step.run)

variable (env : Collaborators κ)

def tell (notice : Notice) : Step σ W κ Unit := do
  unless ← ask (·.settings.quiet) do act fun k => ((), env.tell notice k)

def mutate (m : Mutation) : Step σ W κ Mutation := do
  let (m, ds) ← MonadExcept.ofExcept (m.mutate (← ask (·.documents)))
  change fun c => { c with documents := ds }
  note (.made m)
  return m

def undo (m : Mutation) : Step σ W κ Unit := do
  let answer := m.undo (← ask (·.documents))
  note (.undid m (answer.map fun _ => ()))
  let (_, ds) ← MonadExcept.ofExcept answer
  change fun c => { c with documents := ds }

section

variable [Weight W] [RandomSource σ W]

/-- The kind that a generation tries. -/
def chooseKind : Step σ W κ MutationKind := do
  let (kind, g) ← ask fun c => c.settings.policy.choose (W := W) c.policySource
  change fun c => { c with policySource := g }
  note (.chose kind)
  return kind

/-- The statement that a mutation of a kind aims at. -/
def drawFaulty (kind : MutationKind) : Step σ W κ StatementRef := do
  let (drawn, g) ← ask fun c => c.faulty.draw c.faultySource
  change fun c => { c with faultySource := g }
  note (.drew kind drawn)
  MonadExcept.ofExcept drawn

def drawSeed (faulty : StatementRef) : Step σ W κ StatementRef := do
  let (drawn, g) ← ask fun c => c.seeds.drawExcluding faulty c.seedSource
  change fun c => { c with seedSource := g }
  MonadExcept.ofExcept drawn

def drawMutation (kind : MutationKind) : Step σ W κ Mutation := do
  let faulty ← drawFaulty kind
  let seed ← if kind.needsSeed then some <$> drawSeed faulty else pure none
  MonadExcept.ofExcept (Mutation.create kind faulty seed (← ask (·.documents)))

end

/-- Whether a mutation may be compiled. Only a gate turns one away; a check that fails lets it
pass. -/
def passesGate (m : Mutation) : Step σ W κ Bool := do
  let d ← MonadExcept.ofExcept ((← ask (·.documents)).document m.document)
  let report ← call (env.checkScope d) (.checked d)
  let gate ← ask (·.settings.scopeGate)
  return !gate || match report with
    | .ok r => r.inScope
    | .error _ => true

def compile : Step σ W κ Int := do
  count fun s => { s with compilations := s.compilations + 1 }
  let ds ← ask (·.documents)
  MonadExcept.ofExcept (← call (env.compile ds) (.compiled ds))

def runTests : Step σ W κ Int := do
  count fun s => { s with testRuns := s.testRuns + 1 }
  let ds ← ask (·.documents)
  MonadExcept.ofExcept (← call env.runTests (.tested ds))

/-- The status of the tests under a mutation that is made. There is none if the mutation does not
pass the gate or does not compile, or if the tests could not be run. -/
def attempt (m : Mutation) : Step σ W κ (Option Int) := do
  if ← passesGate env m then
    MonadExcept.ofExcept (← call (env.appendLog m.text) (.logged m.text))
    if (← compile env) < 0 then
      tell env .compileFailed
      return none
    tell env .compiled
    match ← attempted (runTests env) with
    | .ok status =>
      tell env (.tests status)
      return if status < 0 then none else some status
    | .error _ => return none
  else
    return none

/-- How a generation ends without an error. -/
inductive Outcome where
  | kept (m : Mutation) (status : Int)
  | exhausted

section

variable [Weight W] [RandomSource σ W]

/-- Tries mutations of one kind, so many times at most. Only a mutation that is kept stays made. -/
def tryMutations (kind : MutationKind) : Nat → Step σ W κ Outcome
  | 0 => return .exhausted
  | n + 1 => do
    let m ← mutate (← drawMutation kind)
    tell env (.mutation m.text)
    match ← attempted (attempt env m) with
    | .ok (some status) => return .kept m status
    | .ok none =>
      undo m
      tryMutations kind n
    | .error e =>
      let _ ← attempted (undo m)
      throw e

def generation : Step σ W κ Outcome := do
  let kind ← chooseKind
  tryMutations env kind (max (← ask (·.settings.attempts)) 1)

end

/-- The text that a kept mutation has in patches. -/
def patchText (candidate generation : Nat) (m : Mutation) : String :=
  s!"Candidate {candidate}, Generation {generation}\n" ++ m.text

def pushPatch (text : String) : Step σ W κ Unit :=
  change fun c => { c with patches := c.patches ++ [text] }

def popPatch : Step σ W κ Unit :=
  change fun c => { c with patches := c.patches.dropLast }

/-- Records the program as it is now. -/
def record (candidate generation : Nat) : Step σ W κ Unit := do
  let found ← ask fun c => (⟨candidate, generation, c.patches, c.documents⟩ : FoundPatch)
  if let some recorded ← call (env.record found) (.recorded found) then
    count fun s => { s with patches := s.patches + 1 }
    tell env (.patch recorded)

/-- Keeps the mutation of a generation, and records the program if its tests have passed. -/
def keep (candidate generation : Nat) (m : Mutation) (status : Int) : Step σ W κ Unit := do
  note (.kept generation m status)
  pushPatch (patchText candidate generation m)
  if 0 < status then record env candidate generation

section

variable [Weight W] [RandomSource σ W]

/-- Goes down from a generation as many generations as are left, and undoes what was kept on the
way up. The answer is the error that ended the way down, if one did. -/
def descend (candidate : Nat) : Nat → Nat → Step σ W κ (Option RepairError)
  | 0, _ => return none
  | left + 1, number => do
    tell env (.generation number (← ask (·.settings.generations)))
    match ← attempted (generation env) with
    | .error e =>
      note (.failed candidate number e)
      return some e
    | .ok .exhausted =>
      if (← ask (·.settings.recursion)) = .stopWhenExhausted then return none
      descend candidate left (number + 1)
    | .ok (.kept m status) =>
      keep env candidate number m status
      let failure ← descend candidate left (number + 1)
      popPatch
      undo m
      return failure

def candidate (number : Nat) : Step σ W κ Unit := do
  if let some e ← descend env number (← ask (·.settings.generations)) 1 then
    tell env (.candidateFailed number e)
    count fun s => { s with candidatesFailed := s.candidatesFailed + 1 }

/-- Runs as many candidates as are left, from a number on. -/
def candidates : Nat → Nat → Step σ W κ Unit
  | 0, _ => return
  | left + 1, number => do
    tell env (.candidate number (← ask (·.settings.candidates)))
    count fun s => { s with candidatesRun := s.candidatesRun + 1 }
    note (← ask fun c => .began number c.documents c.patches)
    candidate env number
    note (← ask fun c => .ended number c.documents c.patches)
    candidates left (number + 1)

end

end Step

end RepairSearch.Search
