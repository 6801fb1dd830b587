import RepairSearch.Proofs.Document.Revision
import RepairSearch.Proofs.Files.Place
import RepairSearch.Proofs.Files.Write
import RepairSearch.Proofs.Project.Workspace

/-!
# A workspace kept up to date

Documents are edited and built in any order, and any write of a build may fail and spoil its file.
A document is not written again as long as its revision is the one that was written. After a build
that ends well, every file in the workspace that belongs to a document has its current text.
-/

namespace RepairSearch.Project

open Files

/-- A place that one of several paths leads to. -/
def Led (fs : System) (targets : List String) (names : List String) : Prop :=
  ∃ target ∈ targets, ∃ n, fs.find target = .ok (names, n)

/-- Paths that lead to files, each to one of its own. -/
structure Separate (fs : System) (targets : List String) : Prop where
  file : ∀ target ∈ targets, ∃ names content x, fs.find target = .ok (names, .file content x)
  apart : ∀ (i j : Nat) (target target' : String) (names : List String) (n n' : Node),
    targets[i]? = some target → targets[j]? = some target' → fs.find target = .ok (names, n) →
      fs.find target' = .ok (names, n') → i = j

/-- What writing does to the files of the outside: a write that succeeds gives its file the content,
and one that fails does nothing or leaves this file with any content. -/
structure WritesFiles {κ : Type} (files : κ → System)
    (write : String → Text → κ → Except Fault Unit × κ) : Prop where
  ok : ∀ {path text k k'}, write path text k = (.ok (), k') →
    (files k).write path text = .ok (files k')
  error : ∀ {path text k fault k'}, write path text k = (.error fault, k') →
    files k' = files k ∨ ∃ content, (files k).write path content = .ok (files k')

/-- The writes of the file system itself, which do nothing when they fail. -/
theorem writesFiles_writeFile : WritesFiles id Compiler.writeFile := by
  constructor
  · intro path text fs fs' h
    rw [Compiler.writeFile] at h
    split at h
    · cases h
      assumption
    · cases h
  · intro path text fs fault fs' h
    rw [Compiler.writeFile] at h
    split at h
    · cases h
    · cases h
      exact .inl rfl

/-- A compiler without a command that is right about what it has written: where it knows the
revision of a document as written, the file has the text of the document. No other file has
changed since the targets were led to. -/
structure Compiler.Tracks (c : Compiler) (fs₀ : System) (targets : List String)
    (ds : DocumentSet) (fs : System) : Prop where
  command : c.buildCommand = none
  context : c.targets = targets
  written : c.written.length = targets.length
  documents : ds.documents.length = targets.length
  alike : System.AlikeBut (Led fs₀ targets) fs₀ fs
  revision : ∀ (i : Nat) (d : Document) (r : Nat), ds.documents[i]? = some d →
    c.written[i]? = some (some r) → r ≤ d.revision
  holds : ∀ (i : Nat) (d : Document) (target : String), ds.documents[i]? = some d →
    targets[i]? = some target → c.written[i]? = some (some d.revision) →
      fs.read target = .ok d.current

namespace Compiler.Tracks

variable {fs₀ fs fs' : System} {targets : List String} {ds ds' : DocumentSet} {c c' : Compiler}

private theorem advance (h : c.Tracks fs₀ targets ds fs) (hds : ds.Advances ds') :
    c.Tracks fs₀ targets ds' fs where
  command := h.command
  context := h.context
  written := h.written
  documents := hds.length.trans h.documents
  alike := h.alike
  revision i d' r hd' hr := by
    obtain ⟨d, hd, hadvances⟩ := hds.document i d' hd'
    exact Nat.le_trans (h.revision i d r hd hr) hadvances.revision
  holds i d' target hd' htarget hr := by
    obtain ⟨d, hd, hadvances⟩ := hds.document i d' hd'
    -- what is known as written is no later than the document was, so nothing has changed since
    have heq : d'.revision = d.revision :=
      Nat.le_antisymm (h.revision i d _ hd hr) hadvances.revision
    rw [hadvances.current heq]
    exact h.holds i d target hd htarget (heq ▸ hr)

private theorem spoil (h : c.Tracks fs₀ targets ds fs) (hsep : Separate fs₀ targets) {n : Nat}
    {target : String} {content : Text} (htarget : targets[n]? = some target)
    (hstale : ∀ d, ds.documents[n]? = some d → c.written[n]? ≠ some (some d.revision))
    (hwrite : fs.write target content = .ok fs') :
    fs'.read target = .ok content ∧ c.Tracks fs₀ targets ds fs' := by
  have hmem := List.mem_of_getElem? htarget
  obtain ⟨names, old₀, x₀, hfind₀⟩ := hsep.file target hmem
  obtain ⟨m, hfind, hout⟩ := h.alike.grows.find hfind₀
  obtain ⟨old, x, rfl⟩ := Node.outline_eq_file hout
  obtain ⟨hread, halike⟩ := System.write_eq_ok hfind hwrite
  refine ⟨hread, h.command, h.context, h.written, h.documents, h.alike.trans (halike.mono ?_),
    h.revision, ?_⟩
  · rintro _ rfl
    exact ⟨target, hmem, _, hfind₀⟩
  · intro i d other hd hother hr
    obtain ⟨names', content', x', hfind'₀⟩ := hsep.file other (List.mem_of_getElem? hother)
    obtain ⟨m', hfind', _⟩ := h.alike.grows.find hfind'₀
    have hne : names' ≠ names := by
      rintro rfl
      obtain rfl := hsep.apart i n other target _ _ _ hother htarget hfind'₀ hfind₀
      exact hstale d hd hr
    rw [halike.read hfind' hne]
    exact h.holds i d other hd hother hr

private theorem note (h : c.Tracks fs₀ targets ds fs) {n : Nat} {d : Document} {target : String}
    (hd : ds.documents[n]? = some d) (htarget : targets[n]? = some target)
    (hread : fs.read target = .ok d.current) :
    Tracks { c with written := c.written.set n (some d.revision) } fs₀ targets ds fs where
  command := h.command
  context := h.context
  written := List.length_set.trans h.written
  documents := h.documents
  alike := h.alike
  revision i e r he hr := by
    rw [List.getElem?_set] at hr
    split at hr
    · rename_i hi
      obtain rfl : d = e := Option.some.inj (hd.symm.trans (hi ▸ he))
      split at hr
      · exact Nat.le_of_eq (by simpa using hr.symm)
      · cases hr
    · exact h.revision i e r he hr
  holds i e other he hother hr := by
    rw [List.getElem?_set] at hr
    split at hr
    · rename_i hi
      obtain rfl : d = e := Option.some.inj (hd.symm.trans (hi ▸ he))
      obtain rfl : target = other := Option.some.inj (htarget.symm.trans (hi ▸ hother))
      exact hread
    · exact h.holds i e other he hother hr

end Compiler.Tracks

section

variable {κ : Type} {files : κ → System} {write : String → Text → κ → Except Fault Unit × κ}
  {launch : Job → κ → Except Fault Finished × κ} {fs₀ : System} {targets : List String}
  {ds : DocumentSet} {c c' : Compiler} {k k' : κ}

private theorem Compiler.written_writeFrom {n : Nat} {rest : List Document}
    {r : Except RepairError Unit} (hlength : n + rest.length ≤ c.written.length)
    (hrun : c.writeFrom write n rest k = (r, c', k')) :
    (∀ i < n, c'.written[i]? = c.written[i]?) ∧
      (r = .ok () → ∀ (i : Nat) (d : Document), rest[i]? = some d →
        c'.written[n + i]? = some (some d.revision)) := by
  induction rest generalizing n c k with
  | nil =>
    cases hrun
    exact ⟨fun _ _ => rfl, by simp⟩
  | cons d rest ih =>
    rw [List.length_cons] at hlength
    -- what the rest does once this document is known as written
    have hnext : ∀ {c₁ : Compiler} {k₁ : κ}, n + 1 + rest.length ≤ c₁.written.length →
        c₁.writeFrom write (n + 1) rest k₁ = (r, c', k') →
        c₁.written[n]? = some (some d.revision) → (∀ i < n, c₁.written[i]? = c.written[i]?) →
        (∀ i < n, c'.written[i]? = c.written[i]?) ∧
          (r = .ok () → ∀ (i : Nat) (e : Document), (d :: rest)[i]? = some e →
            c'.written[n + i]? = some (some e.revision)) := by
      intro c₁ k₁ hlength₁ hrun₁ hwritten hbefore
      obtain ⟨hfirst, hall⟩ := ih hlength₁ hrun₁
      refine ⟨fun i hi => (hfirst i (by omega)).trans (hbefore i hi), fun hok i e he => ?_⟩
      cases i with
      | zero =>
        obtain rfl : d = e := by simpa using he
        exact (hfirst n (Nat.lt_succ_self n)).trans hwritten
      | succ i =>
        rw [show n + (i + 1) = n + 1 + i by omega]
        exact hall hok i e (by simpa using he)
    rw [Compiler.writeFrom] at hrun
    split at hrun
    · cases hrun
      exact ⟨fun _ _ => rfl, fun hok => by cases hok⟩
    · split at hrun
      · rename_i hwritten
        exact hnext (by omega) hrun hwritten fun _ _ => rfl
      · split at hrun
        · cases hrun
          exact ⟨fun _ _ => rfl, fun hok => by cases hok⟩
        · refine hnext (by simpa using by omega) hrun ?_ fun i hi => ?_
          · exact List.getElem?_set_self (by omega)
          · exact List.getElem?_set_ne (by omega)

private theorem Compiler.Tracks.writeFrom (hwrite : WritesFiles files write)
    (hsep : Separate fs₀ targets) {n : Nat} {rest : List Document} {r : Except RepairError Unit}
    (h : c.Tracks fs₀ targets ds (files k)) (hrest : ds.documents.drop n = rest)
    (hrun : c.writeFrom write n rest k = (r, c', k')) :
    c'.Tracks fs₀ targets ds (files k') := by
  induction rest generalizing n c k with
  | nil =>
    cases hrun
    exact h
  | cons d rest ih =>
    have hd : ds.documents[n]? = some d := by
      rw [← List.head?_drop, hrest]
      rfl
    have hrest' : ds.documents.drop (n + 1) = rest := by
      rw [← List.drop_drop, hrest]
      rfl
    rw [Compiler.writeFrom] at hrun
    split at hrun
    · cases hrun
      exact h
    · rename_i target htarget
      rw [h.context] at htarget
      split at hrun
      · exact ih h hrest' hrun
      · rename_i hstale
        have hstale' : ∀ e, ds.documents[n]? = some e →
            c.written[n]? ≠ some (some e.revision) := by
          intro e he
          obtain rfl := Option.some.inj (hd.symm.trans he)
          exact hstale
        split at hrun
        · rename_i fault k₁ hw
          cases hrun
          rcases hwrite.error hw with hsame | ⟨content, hcontent⟩
          · rwa [hsame]
          · exact (h.spoil hsep htarget hstale' hcontent).2
        · rename_i k₁ hw
          obtain ⟨hread, h₁⟩ := h.spoil hsep htarget hstale' (hwrite.ok hw)
          exact ih (h₁.note hd htarget hread) hrest' hrun

private theorem Compiler.Tracks.build (hwrite : WritesFiles files write)
    (hsep : Separate fs₀ targets)
    {r : Except RepairError (Int × Nat)} (h : c.Tracks fs₀ targets ds (files k))
    (hrun : c.build write launch ds k = (r, c', k')) :
    c'.Tracks fs₀ targets ds (files k') ∧ ∀ answer, r = .ok answer →
      ∀ (i : Nat) (d : Document) (target : String), ds.documents[i]? = some d →
        targets[i]? = some target → (files k').read target = .ok d.current := by
  rcases hw : c.writeChanged write ds k with ⟨e | ⟨⟩, c₁, k₁⟩
  · simp only [Compiler.build, hw] at hrun
    cases hrun
    exact ⟨h.writeFrom hwrite hsep List.drop_zero hw, fun _ hok => by cases hok⟩
  · have htracks := h.writeFrom hwrite hsep List.drop_zero hw
    simp only [Compiler.build, hw, htracks.command] at hrun
    cases hrun
    refine ⟨htracks, fun _ _ i d target hd htarget => htracks.holds i d target hd htarget ?_⟩
    have hlength : 0 + ds.documents.length ≤ c.written.length := by
      rw [h.written, h.documents, Nat.zero_add]
    have hwritten := (Compiler.written_writeFrom hlength hw).2 rfl i d hd
    rwa [Nat.zero_add] at hwritten

end

/-- Documents that are edited and a compiler that builds them. -/
structure Upkeep (κ : Type) where
  documents : DocumentSet
  compiler : Compiler
  outside : κ

namespace Upkeep

inductive Call where
  | apply (target : StatementRef) (op : Operation)
  | undo (document edit : Nat)
  | compile

section

variable {κ : Type} (write : String → Text → κ → Except Fault Unit × κ)
  (launch : Job → κ → Except Fault Finished × κ)

/-- A build with what it answers. -/
def compile (u : Upkeep κ) : Except RepairError (Int × Nat) × Upkeep κ :=
  let (answer, c, k) := u.compiler.build write launch u.documents u.outside
  (answer, { u with compiler := c, outside := k })

/-- One call. An edit or an undo that is rejected changes nothing. -/
def step (u : Upkeep κ) : Call → Upkeep κ
  | .apply target op =>
    match u.documents.apply target op with
    | .ok (_, ds) => { u with documents := ds }
    | .error _ => u
  | .undo n edit =>
    match u.documents.undo n edit with
    | .ok ds => { u with documents := ds }
    | .error _ => u
  | .compile => (u.compile write launch).2

def run (u : Upkeep κ) (calls : List Call) : Upkeep κ := calls.foldl (step write launch) u

variable {write launch} in
private theorem step_cases (u : Upkeep κ) (call : Call) :
    (∃ ds, u.documents.Advances ds ∧ u.step write launch call = { u with documents := ds }) ∨
      u.step write launch call = (u.compile write launch).2 := by
  cases call with
  | apply target op =>
    refine .inl ?_
    rw [step]
    split
    · exact ⟨_, .apply ‹_›, rfl⟩
    · exact ⟨_, .refl _, rfl⟩
  | undo n edit =>
    refine .inl ?_
    rw [step]
    split
    · exact ⟨_, .undo ‹_›, rfl⟩
    · exact ⟨_, .refl _, rfl⟩
  | compile => exact .inr rfl

/-- Two moments of a run at which a document has the same revision show the same text. -/
theorem advances_run (u : Upkeep κ) (calls : List Call) :
    u.documents.Advances (u.run write launch calls).documents := by
  induction calls generalizing u with
  | nil => exact .refl _
  | cons call calls ih =>
    refine .trans ?_ (ih (u.step write launch call))
    rcases u.step_cases call with ⟨ds, hds, hstep⟩ | hstep
    · rwa [hstep]
    · rw [hstep]
      exact .refl _

end

section

variable {κ : Type} {files : κ → System} {write : String → Text → κ → Except Fault Unit × κ}
  {launch : Job → κ → Except Fault Finished × κ} {fs₀ : System} {targets : List String}
  {u : Upkeep κ}

private theorem tracks_run (hwrite : WritesFiles files write) (hsep : Separate fs₀ targets)
    (h : u.compiler.Tracks fs₀ targets u.documents (files u.outside)) (calls : List Call) :
    let v := u.run write launch calls
    v.compiler.Tracks fs₀ targets v.documents (files v.outside) := by
  induction calls generalizing u with
  | nil => exact h
  | cons call calls ih =>
    refine ih (u := u.step write launch call) ?_
    rcases u.step_cases call with ⟨ds, hds, hstep⟩ | hstep
    · rw [hstep]
      exact h.advance hds
    · rw [hstep]
      exact (h.build hwrite hsep rfl).1

end

end Upkeep

namespace Compiler

variable {c₀ c : Compiler} {ds : DocumentSet} {sources classpath : List String} {fs : System}
  {place : List String}

private theorem find_target (hroot : c₀.workspace.Isolated fs place)
    (hcontext : c₀.setContext ds sources classpath fs = .ok c) (hpaths : ∀ d ∈ ds.documents,
      Path.isAbsolute d.path = true ∧ .parent ∉ Path.components d.path)
    {i : Nat} {target : String} {names : List String} {n : Node}
    (hi : c.targets[i]? = some target) (hfind : fs.find target = .ok (names, n)) :
    ∃ d below, ds.documents[i]? = some d ∧ names = place ++ below ∧
      Path.components d.path = Path.components c₀.workspace.projectRoot ++ below.map .name := by
  obtain ⟨_, _, _, htargets⟩ := setContext_eq_ok hcontext
  obtain ⟨d, hd, hmap⟩ := htargets i target hi
  obtain ⟨habs, hup⟩ := hpaths d (List.mem_of_getElem? hd)
  obtain ⟨below, hnames, hcomponents⟩ := hroot.find_mapPath habs hup hmap hfind
  exact ⟨d, below, hd, hnames, hcomponents⟩

private theorem separate_of_setContext (hroot : c₀.workspace.Isolated fs place)
    (hcontext : c₀.setContext ds sources classpath fs = .ok c) (hpaths : ∀ d ∈ ds.documents,
      Path.isAbsolute d.path = true ∧ .parent ∉ Path.components d.path)
    (hdistinct : (ds.documents.map fun d => Path.components d.path).Nodup)
    (hplaced : ∀ (i : Nat) (d : Document) (target : String), ds.documents[i]? = some d →
      c.targets[i]? = some target → fs.read target = .ok d.current) :
    Separate fs c.targets ∧
      ∀ target ∈ c.targets, ∃ below n, fs.find target = .ok (place ++ below, n) := by
  obtain ⟨_, _, _, htargets⟩ := setContext_eq_ok hcontext
  have hfile : ∀ target ∈ c.targets, ∃ names content x,
      fs.find target = .ok (names, .file content x) := by
    intro target hmem
    obtain ⟨i, hi⟩ := List.mem_iff_getElem?.mp hmem
    obtain ⟨d, hd, _⟩ := htargets i target hi
    exact System.find_of_read (hplaced i d target hd hi)
  refine ⟨⟨hfile, ?_⟩, ?_⟩
  · intro i j target target' names n n' hi hj hfind hfind'
    obtain ⟨d, below, hd, rfl, hcomponents⟩ := find_target hroot hcontext hpaths hi hfind
    obtain ⟨d', below', hd', hnames, hcomponents'⟩ := find_target hroot hcontext hpaths hj hfind'
    rw [← List.append_cancel_left hnames, ← hcomponents] at hcomponents'
    have hmapped : ∀ {i : Nat} {d : Document}, ds.documents[i]? = some d →
        (ds.documents.map fun d => Path.components d.path)[i]? = some (Path.components d.path) :=
      fun hd => by rw [List.getElem?_map, hd, Option.map_some]
    have hlt := (List.getElem?_eq_some_iff.mp (hmapped hd)).1
    refine (List.getElem?_inj hlt hdistinct).mp ?_
    rw [hmapped hd, hmapped hd', hcomponents']
  · intro target hmem
    obtain ⟨i, hi⟩ := List.mem_iff_getElem?.mp hmem
    obtain ⟨names, content, x, hfind⟩ := hfile target hmem
    obtain ⟨_, below, _, rfl, _⟩ := find_target hroot hcontext hpaths hi hfind
    exact ⟨below, _, hfind⟩

private theorem tracks_of_setContext (hcommand : c₀.buildCommand = none)
    (hcontext : c₀.setContext ds sources classpath fs = .ok c)
    (hplaced : ∀ (i : Nat) (d : Document) (target : String), ds.documents[i]? = some d →
      c.targets[i]? = some target → fs.read target = .ok d.current) :
    c.Tracks fs c.targets ds fs := by
  obtain ⟨hnone, hlength, hwritten, _⟩ := setContext_eq_ok hcontext
  refine ⟨hnone.trans hcommand, rfl, ?_, hlength.symm, .refl _ _, ?_, ?_⟩
  · rw [hwritten, List.length_map, hlength]
  · intro i d r hd hr
    rw [hwritten, List.getElem?_map, hd] at hr
    exact Nat.le_of_eq (by simpa using hr.symm)
  · exact fun i d target hd htarget _ => hplaced i d target hd htarget

end Compiler

namespace Upkeep

variable {κ : Type} {files : κ → System} {write : String → Text → κ → Except Fault Unit × κ}

/-- Documents with different absolute paths that lead nowhere upwards are in a workspace of their
own with their current texts. Then, whatever calls are made and whichever writes fail, a build that
ends well leaves every target with the current text of its document. All targets are files below
the root of the workspace, nothing that stands elsewhere than at a target ever changes, and no path
that leads out of the workspace reads differently. -/
theorem run_upToDate (hwrite : WritesFiles files write)
    (launch : Job → κ → Except Fault Finished × κ) {c₀ c : Compiler} {ds : DocumentSet}
    {sources classpath : List String} {k : κ} {place : List String}
    (hcommand : c₀.buildCommand = none) (hroot : c₀.workspace.Isolated (files k) place)
    (hcontext : c₀.setContext ds sources classpath (files k) = .ok c)
    (hpaths : ∀ d ∈ ds.documents,
      Path.isAbsolute d.path = true ∧ .parent ∉ Path.components d.path)
    (hdistinct : (ds.documents.map fun d => Path.components d.path).Nodup)
    (hplaced : ∀ (i : Nat) (d : Document) (target : String), ds.documents[i]? = some d →
      c.targets[i]? = some target → (files k).read target = .ok d.current)
    (calls : List Call) :
    let u : Upkeep κ := run write launch ⟨ds, c, k⟩ calls
    (∀ answer v, u.compile write launch = (.ok answer, v) →
      ∀ (i : Nat) (d : Document) (target : String), v.documents.documents[i]? = some d →
        c.targets[i]? = some target → (files v.outside).read target = .ok d.current) ∧
    (∀ target ∈ c.targets, ∃ below content x,
      (files k).find target = .ok (place ++ below, .file content x)) ∧
    (∀ names, ¬ Led (files k) c.targets names →
      ((files u.outside).get? names).map Node.bare = ((files k).get? names).map Node.bare) ∧
    ∀ path names n, (files k).find path = .ok (names, n) → ¬ place <+: names →
      (files u.outside).read path = (files k).read path := by
  intro u
  obtain ⟨hsep, hinside⟩ :=
    Compiler.separate_of_setContext hroot hcontext hpaths hdistinct hplaced
  have htracks : u.compiler.Tracks (files k) c.targets u.documents (files u.outside) :=
    tracks_run hwrite hsep (Compiler.tracks_of_setContext hcommand hcontext hplaced) calls
  refine ⟨?_, ?_, htracks.alike.elsewhere, ?_⟩
  · intro answer v hcompile i d target hd htarget
    rcases hbuild : u.compiler.build write launch u.documents u.outside with ⟨r, c', k'⟩
    simp only [compile, hbuild, Prod.mk.injEq] at hcompile
    obtain ⟨rfl, rfl⟩ := hcompile
    exact (htracks.build hwrite hsep hbuild).2 answer rfl i d target hd htarget
  · intro target hmem
    obtain ⟨names, content, x, hfind⟩ := hsep.file target hmem
    obtain ⟨below, n, hfind'⟩ := hinside target hmem
    obtain ⟨rfl, rfl⟩ : names = place ++ below ∧ Node.file content x = n := by
      simpa using hfind.symm.trans hfind'
    exact ⟨below, content, x, hfind⟩
  · intro path names n hfind hout
    refine htracks.alike.read hfind ?_
    rintro ⟨target, hmem, m, hled⟩
    obtain ⟨below, m', hled'⟩ := hinside target hmem
    obtain ⟨rfl, _⟩ : names = place ++ below ∧ m = m' := by simpa using hled.symm.trans hled'
    exact hout (List.prefix_append place below)

/-- Writing with a plan of what fails: a write that fails leaves its file with some content. -/
def writeFailing (path : String) (text : Text) :
    System × List (Option Text) → Except Fault Unit × System × List (Option Text)
  | (fs, some spoiled :: plan) =>
    match fs.write path spoiled with
    | .ok fs => (.error (.system 28), fs, plan)
    | .error fault => (.error fault, fs, plan)
  | (fs, plan) =>
    match fs.write path text with
    | .ok fs => (.ok (), fs, plan.tail)
    | .error fault => (.error fault, fs, plan.tail)

private theorem writesFiles_writeFailing : WritesFiles Prod.fst writeFailing := by
  constructor
  · intro path text k k' h
    rw [writeFailing.eq_def] at h
    split at h
    · split at h <;> cases h
    · split at h
      · rename_i fs _ _ _ fs' hwrite
        cases h
        exact hwrite
      · cases h
  · intro path text k fault k' h
    rw [writeFailing.eq_def] at h
    split at h
    · split at h
      · rename_i spoiled _ _ fs' hwrite
        cases h
        exact .inr ⟨spoiled, hwrite⟩
      · cases h
        exact .inl rfl
    · split at h
      · cases h
      · cases h
        exact .inl rfl

/-- A document that an edit has changed from `x` to `y`. -/
def edited : Document where
  path := "/p/a.py"
  package := "a"
  language := .python
  original := [120]
  originalTree := (Language.python.parse [120]).tree
  statements := []
  current := [121]
  parsed := Language.python.parse [121]
  edits := [⟨0, 0, 1, [121]⟩]
  nextEdit := 1
  revision := 1

/-- The project with the original and the workspace with the edited text. -/
def copied : System where
  root := .directory [("p", .directory [("a.py", .file [120] false)]),
    ("w", .directory [("a.py", .file [121] false)])]
  workingDirectory := []

def copier : Compiler := .create ⟨"/w", "/p"⟩ none none none copied

def aware : Compiler :=
  { copier with targets := ["/w/a.py"], written := [some 1],
                environment := [("RSREPAIR_SOURCEPATH", ""), ("RSREPAIR_CLASSPATH", "")] }

/-- No command can be started. -/
def idle {κ : Type} (_ : Job) (k : κ) : Except Fault Finished × κ := (.error .denied, k)

/-- What the write that fails makes of it. -/
def spoiled : System := copied.put ["w", "a.py"] (.file [122] false)

/-- What the write that follows makes of that. -/
def restored : System := spoiled.put ["w", "a.py"] (.file [120] false)

private theorem find_copied : copied.find "/w/a.py" = .ok (["w", "a.py"], .file [121] false) :=
  System.find_of_path rfl (by decide) (by decide) rfl (by simp)

private theorem find_spoiled : spoiled.find "/w/a.py" = .ok (["w", "a.py"], .file [122] false) :=
  System.find_of_path rfl (by decide) (by decide) rfl (by simp)

private theorem isolated_copier : copier.workspace.Isolated copied ["w"] := by
  have hroot : copied.find "/w" = .ok (["w"], .directory [("a.py", .file [121] false)]) :=
    System.find_of_path rfl (by decide) (by decide) rfl (by simp)
  refine ⟨by decide, _, hroot, Node.unlinked_directory ?_⟩
  simpa using Node.unlinked_file [121] false

private theorem aware_stale : aware.written[0]? ≠ some (some edited.pop.revision) := by decide

private theorem build_spoils : aware.build writeFailing idle ⟨[edited.pop]⟩ (copied, [some [122]]) =
    (.error (.io "/w/a.py" (.system 28)), aware, spoiled, []) := by
  have htarget : aware.targets[0]? = some "/w/a.py" := rfl
  have hspoil : copied.write "/w/a.py" [122] = .ok spoiled := System.write_of_find find_copied
  simp only [Compiler.build, Compiler.writeChanged, Compiler.writeFrom, htarget,
    if_neg aware_stale, writeFailing, hspoil]

private theorem build_restores : ∃ answer c,
    aware.build writeFailing idle ⟨[edited.pop]⟩ (spoiled, []) = (.ok answer, c, restored, []) := by
  have htarget : aware.targets[0]? = some "/w/a.py" := rfl
  have hcurrent : edited.pop.current = [120] := rfl
  have hwrite : spoiled.write "/w/a.py" [120] = .ok restored := System.write_of_find find_spoiled
  simp only [Compiler.build, Compiler.writeChanged, Compiler.writeFrom, htarget,
    if_neg aware_stale, hcurrent, writeFailing, hwrite]
  exact ⟨_, _, rfl⟩

/-- The edit is taken back, but the build that follows fails and leaves `z` in the file. The next
build writes the original text, and so ends well. -/
theorem run_upToDate_failing :
    let u := run writeFailing idle ⟨⟨[edited]⟩, aware, copied, [some [122]]⟩ [.undo 0 0, .compile]
    u.outside.1.read "/w/a.py" = .ok [122] ∧
    ∃ answer v, u.compile writeFailing idle = (.ok answer, v) ∧
      v.outside.1.read "/w/a.py" = .ok [120] := by
  intro u
  have hundo : DocumentSet.undo ⟨[edited]⟩ 0 0 = .ok ⟨[edited.pop]⟩ := rfl
  have hu : u = ⟨⟨[edited.pop]⟩, aware, spoiled, []⟩ := by
    simp only [u, run, List.foldl_cons, List.foldl_nil, step, hundo, compile, build_spoils]
  obtain ⟨answer, c, hbuild⟩ := build_restores
  have hcompile : u.compile writeFailing idle =
      (.ok answer, ⟨⟨[edited.pop]⟩, c, restored, []⟩) := by
    simp only [hu, compile, hbuild]
  have hcontext : copier.setContext ⟨[edited]⟩ [] [] (Prod.fst (copied, [some [122]])) =
      .ok aware := rfl
  have hplaced : ∀ (i : Nat) (d : Document) (target : String), [edited][i]? = some d →
      aware.targets[i]? = some target →
        (Prod.fst (copied, [some ([122] : Text)])).read target = .ok d.current := by
    intro i d target hd htarget
    cases i with
    | zero =>
      obtain rfl := Option.some.inj hd
      obtain rfl := Option.some.inj htarget
      rw [System.read, find_copied]
      rfl
    | succ i => cases hd
  have hresult := (run_upToDate writesFiles_writeFailing idle rfl isolated_copier hcontext
    (by simpa using by decide) (by simp) hplaced [.undo 0 0, .compile]).1
      answer _ hcompile
  refine ⟨by rw [hu, System.read, find_spoiled], answer, _, hcompile, ?_⟩
  exact hresult 0 edited.pop "/w/a.py" rfl rfl

end Upkeep

end RepairSearch.Project
