import RepairSearch.Pool
import RepairSearch.Search.Settings

/-!
# Controllers

A controller holds what a search has to itself: the documents, the pools to draw from, three
sources of random numbers, the descriptions of the mutations in force and the counts.
-/

namespace RepairSearch.Search

structure Controller (σ W : Type) where
  documents : DocumentSet
  faulty : Pool W
  seeds : Pool W
  settings : Settings
  /-- The source that faulty statements are drawn with. -/
  faultySource : σ
  /-- The source that seed statements are drawn with. -/
  seedSource : σ
  /-- The source that kinds of mutations are chosen with. -/
  policySource : σ
  /-- The descriptions of the mutations that are kept, oldest first. -/
  patches : List String
  stats : Stats

namespace Controller

variable {σ W : Type} [Weight W] [RandomSource σ W]

/-- A controller before its first candidate. The first three words from the seed are the seeds of
its sources. -/
def start (documents : DocumentSet) (faulty seeds : Pool W) (settings : Settings)
    (seed : UInt64) : Controller σ W :=
  let (a, g) := RandomSource.word (RandomSource.ofSeed seed : σ)
  let (b, g) := RandomSource.word g
  let (c, _) := RandomSource.word g
  { documents, faulty, seeds, settings
    faultySource := RandomSource.ofSeed a
    seedSource := RandomSource.ofSeed b
    policySource := RandomSource.ofSeed c
    patches := []
    stats := Stats.zero }

/-- A controller needs a document, and weight in the pools that it draws from. -/
def create (documents : DocumentSet) (faulty seeds : Pool W) (settings : Settings)
    (seed : UInt64) : Except RepairError (Controller σ W) :=
  if documents.isEmpty then .error (.setup "no source documents to repair")
  else if !faulty.hasWeight then .error .emptyPool
  else if settings.policy.needsSeeds && !seeds.hasWeight then .error .emptyPool
  else .ok (start documents faulty seeds settings seed)

end Controller

end RepairSearch.Search
