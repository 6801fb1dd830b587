import RepairSearch.Search.Descent

/-!
# Running a search

A controller repairs, which is to run all its candidates, or probes, which is to compile and test
the program as it is.
-/

namespace RepairSearch.Search

namespace Step

variable {σ W κ : Type} [Weight W] [RandomSource σ W] (env : Collaborators κ)

def repair : Step σ W κ Stats := do
  candidates env (← ask (·.settings.candidates)) 1
  ask (·.stats)

/-- Compiles the documents and tests them if they compile. -/
def probeApplied : Step σ W κ Probe := do
  let status ← compile env
  if status < 0 then return ⟨status, none⟩
  return ⟨status, some (← runTests env)⟩

/-- A probe goes the way of a mutation that changes nothing. -/
def probe : Step σ W κ Probe := do
  let faulty ← drawFaulty .null
  let m ← MonadExcept.ofExcept (Mutation.create .null faulty none (← ask (·.documents)))
  let m ← mutate m
  let outcome ← attempted (probeApplied env)
  undo m
  MonadExcept.ofExcept outcome

end Step

namespace Controller

variable {σ W κ : Type}

/-- Takes steps with a controller and a world outside, from an empty history on. -/
def execute {α : Type} (c : Controller σ W) (step : Step σ W κ α) (outside : κ) :
    Except RepairError α × State σ W κ := step.exec ⟨c, outside, []⟩

/-- What is left of the steps when their history is forgotten. -/
def run {α : Type} (c : Controller σ W) (step : Step σ W κ α) (outside : κ) :
    Except RepairError α × Controller σ W × κ :=
  let (answer, s) := c.execute step outside
  (answer, s.controller, s.outside)

variable [Weight W] [RandomSource σ W]

def repair (c : Controller σ W) (env : Collaborators κ) (outside : κ) :
    Except RepairError Stats × Controller σ W × κ :=
  c.run (Step.repair env) outside

def probe (c : Controller σ W) (env : Collaborators κ) (outside : κ) :
    Except RepairError Probe × Controller σ W × κ :=
  c.run (Step.probe env) outside

end Controller

end RepairSearch.Search
