import RepairSearch.Proofs.Diff.Unified
import RepairSearch.Proofs.Project.Duplicate
import RepairSearch.Proofs.Project.Snapshot
import RepairSearch.Proofs.Search.Rollback
import RepairSearch.Proofs.Search.Trace
import RepairSearch.Session.Recorder

/-!
# Tested programs

What is recorded was built and has passed its tests as it is. The record shows its changes and keeps
a snapshot of it: the current texts of its documents, or a copy of what the build has made.
-/

namespace RepairSearch

open Files Project

/-- A text shows the changes of documents, one after the other. -/
def DocumentSet.ShownBy (ds : DocumentSet) (text : String) : Prop :=
  ∃ diffs, List.Forall₂ (fun d diff => Diff.Shows d.path d.original d.current diff)
    (ds.documents.filter fun d => d.current ≠ d.original) diffs ∧ text = String.join diffs

private theorem DocumentSet.diff_shows (ds : DocumentSet) : ds.ShownBy ds.diff := by
  have hmodified : ds.documents.filter (·.isModified) =
      ds.documents.filter fun d => d.current ≠ d.original :=
    List.filter_congr fun d _ => Bool.eq_iff_iff.mpr (by simp [Document.isModified])
  refine ⟨_, ?_, rfl⟩
  rw [hmodified, List.forall₂_map_right_iff]
  exact List.forall₂_same.mpr fun d _ => Diff.unified_shows d.path d.original d.current

/-- A record of a program. The list of its mutations is written first, then it is stored, and the
file that tells of it is written last, if it can be. -/
structure BuildDirectory.Records (b : BuildDirectory)
    (store : String → System → Except RepairError Unit × System) (found : FoundPatch)
    (timestamp : String) (fs fs' : System) (recorded : RecordedPatch) : Prop where
  shown : found.documents.ShownBy recorded.diff
  file : recorded.file = b.patchPath found.candidate found.generation timestamp
  stored : ∃ fs₁ answer fs₂,
    fs.write (b.patchPath found.candidate found.generation timestamp)
      (Text.ofString found.listing) = .ok fs₁ ∧
    store (b.classesPath found.candidate found.generation timestamp) fs₁ = (answer, fs₂) ∧
    recorded.compiled = (if answer = .ok () then
      some (b.classesPath found.candidate found.generation timestamp) else none) ∧
    (fs' = fs₂ ∨ ∃ text, fs₂.write (sidecarPath
      (b.patchPath found.candidate found.generation timestamp)) text = .ok fs')

theorem BuildDirectory.records {b : BuildDirectory}
    {store : String → System → Except RepairError Unit × System} {found : FoundPatch}
    {timestamp : String} {fs fs' : System} {recorded : RecordedPatch}
    (h : b.record store found timestamp fs = (some recorded, fs')) :
    b.Records store found timestamp fs fs' recorded := by
  unfold BuildDirectory.record at h
  dsimp only at h
  split at h
  · cases h
  · rename_i fs₁ hwrite
    obtain ⟨hrecorded, hfs'⟩ := Prod.mk.inj h
    obtain rfl := Option.some.inj hrecorded
    refine ⟨DocumentSet.diff_shows _, rfl, fs₁, _, _, hwrite, rfl, ?_, ?_⟩
    · cases (store (b.classesPath found.candidate found.generation timestamp) fs₁).1 with
      | ok _ => rfl
      | error _ => rfl
    · rw [← hfs']
      cases hsidecar : System.write _ _ _ with
      | ok fs₃ => exact .inr ⟨_, hsidecar⟩
      | error _ => exact .inl rfl

/-- What was stored of documents: each has a file, these files got the current texts in the order of
the documents, and no other text is changed. So they hold all texts if they are different files. -/
structure Project.Holds (directory : String) (docs : List Document) (fs fs' : System)
    (places : List (List String)) : Prop where
  leads : List.Forall₂ (Leads fs' directory) docs places
  writes : System.Writes (places.zip (docs.map (·.current))) fs fs'
  read : places.Nodup → ∀ d ∈ docs, fs'.read (snapshotPath directory d) = .ok d.current

private theorem Project.storeSnapshot_holds {directory : String} {docs : List Document}
    {fs fs' : System}
    (hground : fs.Grounded) (h : storeSnapshot directory docs fs = (.ok (), fs')) :
    ∃ places, Holds directory docs fs fs' places := by
  obtain ⟨places, hleads, hwrites⟩ := storeSnapshot_eq_ok hground h
  exact ⟨places, hleads, hwrites, fun hnodup d hd => read_of_nodup hleads hwrites hnodup hd⟩

private theorem Project.Compiler.store_copies (c : Compiler) {fs : System} {target : String}
    {origin place : List String} {es : List (String × Node)} (hlegal : Legal fs.root)
    (hsource : fs.find (c.artifacts.elim c.workspace.root (Path.join c.workspace.root)) =
      .ok (origin, .directory es))
    (htarget : Vacant fs target place) (houtside : ¬ origin <+: place) :
    ∃ fs' copied, c.store target fs = (.ok (), fs') ∧
      fs'.find target = .ok (place, .directory copied) ∧ IsCopy es copied := by
  have hes : Legal (.directory es) := hlegal.get? (System.get?_of_find hsource)
  refine ⟨_, keptEntries es, ?_, find_copied htarget _, isCopy_keptEntries hes⟩
  rw [← copy_vacant hsource hes htarget houtside, Compiler.store]
  cases c.artifacts <;> rfl

end RepairSearch

namespace RepairSearch.Search.Controller

open Files Project

variable {σ W κ : Type} [Weight W] [RandomSource σ W]

/-- Whatever the collaborators do, tests run only on what was just built, and what a repair records
is what was just built and has passed its tests, once for every such generation. A probe records
nothing. What is recorded shows the changes of the program, and what is stored with it holds the
current texts, or what the build has made. -/
theorem repair_probe_tested (c : Controller σ W) (env : Collaborators κ) (outside : κ) :
    Event.TestedBuilt (c.execute (Step.repair env) outside).2.history ∧
    Event.RecordedTested (c.execute (Step.repair env) outside).2.history ∧
    Event.TestedBuilt (c.execute (Step.probe env) outside).2.history ∧
    (∀ found answer, .recorded found answer ∉ (c.execute (Step.probe env) outside).2.history) ∧
    (∀ (b : BuildDirectory) store found timestamp fs recorded fs',
      b.record store found timestamp fs = (some recorded, fs') →
        b.Records store found timestamp fs fs' recorded) ∧
    (∀ (fs fs' : System) directory docs, fs.Grounded →
      storeSnapshot directory docs fs = (.ok (), fs') →
        ∃ places, Holds directory docs fs fs' places) ∧
    ∀ (compiler : Compiler) (fs : System) target origin place es, Legal fs.root →
      fs.find (compiler.artifacts.elim compiler.workspace.root
        (Path.join compiler.workspace.root)) = .ok (origin, .directory es) →
      Vacant fs target place → ¬ origin <+: place →
        ∃ fs' copied, compiler.store target fs = (.ok (), fs') ∧
          fs'.find target = .ok (place, .directory copied) ∧ IsCopy es copied := by
  have hstart : (⟨c, outside, []⟩ : State σ W κ).Orderly :=
    ⟨Event.throughout_nil _, fun e he => by simp at he⟩
  have hrepaired := Step.repair_orderly env hstart
  refine ⟨hrepaired.follows.testedBuilt, hrepaired.recordedTested,
    (Step.probe_follows env hstart).testedBuilt, ?_, fun _ _ _ _ _ _ _ => BuildDirectory.records,
    fun _ _ _ _ => storeSnapshot_holds,
    fun compiler _ _ _ _ _ hlegal hsource htarget houtside =>
      compiler.store_copies hlegal hsource htarget houtside⟩
  intro found answer hmem
  obtain ⟨es, hes, hgeneration⟩ := Step.probe_writes env (⟨c, outside, []⟩ : State σ W κ)
  rw [List.append_nil] at hes
  exact hgeneration _ (hes ▸ hmem)

/-- Two programs are recorded, and a build that makes all of a workspace is stored. -/
theorem pair_tested :
    (pair.execute (Step.repair counting) 0).2.history.filterMap
      (fun | .recorded found _ => some (found.candidate, found.generation) | _ => none) =
      [(3, 2), (1, 1)] ∧
    Event.RecordedTested (pair.execute (Step.repair counting) 0).2.history ∧
    ∃ fs' copied,
      (Compiler.create ⟨"/p", "/q"⟩ none none none Twice.fs).store "/w" Twice.fs = (.ok (), fs') ∧
      fs'.find "/w" = .ok (["w"], .directory copied) ∧ IsCopy Twice.entries copied := by
  obtain ⟨_, hrecorded, _, _, _, _, hstored⟩ := repair_probe_tested pair counting 0
  exact ⟨by decide +kernel, hrecorded, hstored _ Twice.fs "/w" ["p"] ["w"] Twice.entries Twice.legal
    Twice.find_project (.empty Twice.find_target) (by decide)⟩

end RepairSearch.Search.Controller
