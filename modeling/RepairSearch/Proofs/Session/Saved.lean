import RepairSearch.CommandLine.Run
import RepairSearch.Proofs.Coverage
import RepairSearch.Proofs.Files.Saved
import RepairSearch.Proofs.Pool
import RepairSearch.Proofs.Project.Duplicate
import RepairSearch.Proofs.Project.Sources
import RepairSearch.Proofs.Project.Workspace
import RepairSearch.Proofs.Search.Quiet
import RepairSearch.Proofs.Session.Records
import RepairSearch.Proofs.Text.Boundary

/-!
# Records on the disk

Summaries and recorded patches are read back as they were written. So the summary of a session that
is shown later is the one that the session has shown.
-/

namespace RepairSearch

open Files

private theorem readString_of_write {fs fs' : System} {path s : String}
    (h : fs.write path (Text.ofString s) = .ok fs') : fs'.readString path = .ok s := by
  rw [System.readString, System.read_of_write h]
  simp only [Text.toString?_ofString]

private theorem Summary.load?_of_read {s : Summary} (hfits : s.Fits) {b : BuildDirectory}
    {fs : System}
    (h : fs.read b.summaryPath = .ok (Text.ofString s.toJson.pretty)) : load? b fs = some s := by
  have hread : fs.readString b.summaryPath = .ok s.toJson.pretty := by
    rw [System.readString, h]
    simp only [Text.toString?_ofString]
  rw [load?, hread]
  dsimp only
  rw [ofText?, Json.read?_pretty s.printable_toJson, Option.bind_some, ofJson?_toJson hfits]

private theorem Summary.read_of_save {s : Summary} {b : BuildDirectory} {fs fs' : System}
    (h : s.save b fs = .ok fs') :
    fs'.read b.summaryPath = .ok (Text.ofString s.toJson.pretty) := by
  rw [save] at h
  split at h
  · rename_i hwrite
    obtain rfl := Except.ok.inj h
    exact System.read_of_write hwrite
  · cases h

private theorem Summary.save_of_save {s : Summary} {b : BuildDirectory} {fs fs' : System}
    (h : s.save b fs = .ok fs') (t : Summary) : ∃ fs'', t.save b fs' = .ok fs'' := by
  obtain ⟨names, content, x, hfind⟩ := System.find_of_read (read_of_save h)
  exact ⟨_, by rw [save, System.write_of_find hfind]⟩

/-- What the file beside the list of a patch says of it. -/
def RecordedPatch.load? (patchFile : String) (fs : System) : Option RecordedPatch :=
  match fs.readString (BuildDirectory.sidecarPath patchFile) with
  | .ok text => (Json.read? text).bind ofJson?
  | .error _ => none

private theorem RecordedPatch.load?_of_write {p : RecordedPatch} (hfits : p.Fits)
    {patchFile : String} {fs fs' : System} (h : fs.write (BuildDirectory.sidecarPath patchFile)
      (Text.ofString p.toJson.pretty) = .ok fs') : load? patchFile fs' = some p := by
  unfold load?
  rw [readString_of_write h]
  dsimp only
  rw [Json.read?_pretty p.printable_toJson, Option.bind_some, ofJson?_toJson hfits]

private theorem BuildDirectory.record_eq_some {b : BuildDirectory}
    {store : String → System → Except RepairError Unit × System} {found : FoundPatch} {t : String}
    {fs fs' : System} {p : RecordedPatch} (h : b.record store found t fs = (some p, fs')) :
    p.candidate = found.candidate ∧ p.generation = found.generation ∧ ∃ fs₁ : System,
      fs' = written fs₁ (fs₁.write (sidecarPath p.file) (Text.ofString p.toJson.pretty)) := by
  unfold record at h
  dsimp only at h
  split at h
  · cases h
  · rename_i fs₀ _
    obtain ⟨hp, hfs⟩ := Prod.mk.inj h
    obtain rfl := Option.some.inj hp
    exact ⟨rfl, rfl, _, hfs.symm⟩

private theorem BuildDirectory.record_eq {b : BuildDirectory}
    {store : String → System → Except RepairError Unit × System} {found : FoundPatch} {t : String}
    {fs fs₁ fs₂ fs₃ : System} {p : RecordedPatch}
    (hp : p = ⟨found.candidate, found.generation, t, found.mutations,
      b.patchPath found.candidate found.generation t,
      some (b.classesPath found.candidate found.generation t), found.documents.diff⟩)
    (hlist : fs.write p.file (Text.ofString found.listing) = .ok fs₁)
    (hstore : store (b.classesPath found.candidate found.generation t) fs₁ = (.ok (), fs₂))
    (hsidecar : fs₂.write (sidecarPath p.file) (Text.ofString p.toJson.pretty) = .ok fs₃) :
    b.record store found t fs = (some p, fs₃) := by
  have hstored (path : String) :
      (Except.ok () : Except RepairError Unit).toOption.map (fun _ => path) = some path := rfl
  subst hp
  dsimp only at hlist hsidecar
  unfold record
  dsimp only
  rw [hlist]
  dsimp only
  rw [hstore]
  dsimp only
  rw [hstored, hsidecar, written]

private theorem BuildDirectory.load?_of_record {b : BuildDirectory}
    {store : String → System → Except RepairError Unit × System} {found : FoundPatch} {t : String}
    {fs fs' : System} {p : RecordedPatch} (h : b.record store found t fs = (some p, fs'))
    (hcandidate : found.candidate < UInt64.size) (hgeneration : found.generation < UInt64.size) :
    (∃ fault, fs'.write (sidecarPath p.file) (Text.ofString p.toJson.pretty) = .error fault) ∨
      RecordedPatch.load? p.file fs' = some p := by
  obtain ⟨hc, hg, fs₁, rfl⟩ := record_eq_some h
  cases hwrite : fs₁.write (sidecarPath p.file) (Text.ofString p.toJson.pretty) with
  | error fault => exact .inl ⟨fault, hwrite⟩
  | ok fs₂ =>
    have hfits : p.Fits := ⟨hc ▸ hcandidate, hg ▸ hgeneration⟩
    exact .inr (RecordedPatch.load?_of_write hfits hwrite)

namespace Session

open CommandLine

private theorem report_json {s : Setting} (hjson : s.json = true) (hquiet : s.quiet = false)
    (message : Console.Message) (json : Json) (w : World) :
    report s message json w = w.print (.line json.compact) := by
  rw [report, hquiet, hjson]
  rfl

private theorem collaborators_preserve (s : Setting) (site : Site) (o : Console.Output) :
    (collaborators s site).Preserves fun b => b.world.output = o where
  checkScope _ _ h := h
  appendLog text b h := by
    change (Bench.appendLog site.build text b).2.world.output = o
    rw [Bench.appendLog]
    split
    · exact h
    · exact h
  compile _ _ h := h
  runTests _ h := h
  record _ _ h := by
    unfold collaborators Bench.record
    exact h

private theorem repair_eq_ok {s : Setting} (hjson : s.json = true) (hquiet : s.quiet = false)
    {c : Config} {site : Site} (hsettings : site.controller.settings.quiet = true) {started : Nat}
    {w w' : World} {status : Nat} (h : repair s c site started w = (.ok status, w')) :
    ∃ summary : Summary, w'.output = w.output ++ .line summary.toJson.compact ∧
      ((∃ e, summary.save site.build w'.files = .error e) ∨
        w'.files.read site.build.summaryPath = .ok (Text.ofString summary.toJson.pretty)) := by
  have hsilent :
      (site.controller.repair (collaborators s site) ⟨w, site.compiler, []⟩).2.2.world.output =
        w.output :=
    Search.Controller.repair_preserves (collaborators_preserve s site w.output) hsettings rfl
  unfold repair at h
  dsimp only at h
  split at h
  · cases h
  · rw [report_json hjson hquiet] at h
    obtain ⟨_, rfl⟩ := Prod.mk.inj h
    refine ⟨_, congrArg (· ++ _) hsilent, ?_⟩
    dsimp only [World.print]
    split
    · rename_i hsave
      exact .inr (Summary.read_of_save hsave)
    · rename_i e hsave
      exact .inl ⟨e, hsave⟩

private theorem repair_of_search {s : Setting} (hjson : s.json = true) (hquiet : s.quiet = false)
    {c : Config} {site : Site} {started : Nat} {w : World} {stats : Search.Stats}
    {controller : Search.Controller WeylProduct Float} {b : Bench} {summary : Summary} {fs : System}
    (hsearch : site.controller.repair (collaborators s site) ⟨w, site.compiler, []⟩ =
      (.ok stats, controller, b))
    (hsummary : summary = ⟨c, Timestamp.ofMilliseconds started, stats.candidatesRun,
      stats.candidatesFailed, stats.compilations, stats.testRuns, b.recorded,
      b.world.clock - started⟩) (hsave : summary.save site.build b.world.files = .ok fs) :
    repair s c site started w = (.ok (if summary.patches.isEmpty then 1 else 0),
      ⟨fs, b.world.clock, b.world.output ++ .line summary.toJson.compact⟩) := by
  subst hsummary
  unfold repair
  rw [hsearch]
  dsimp only
  rw [hsave, report_json hjson hquiet]
  rfl

private theorem bind_eq_ok {α β : Type} {x : Setup α} {f : α → Setup β} {b : β} {fs fs' : System}
    (h : (x >>= f).run.run fs = (.ok b, fs')) :
    ∃ a fs₁, x.run.run fs = (.ok a, fs₁) ∧ (f a).run.run fs₁ = (.ok b, fs') := by
  rw [ExceptT.run_bind, StateT.run_bind] at h
  cases hx : x.run.run fs with
  | mk r fs₁ =>
    rw [hx] at h
    cases r with
    | error e => cases h
    | ok a => exact ⟨a, fs₁, rfl, h⟩

private theorem run_of_repair {s : Setting} {c : Config} {w after : World} {site : Site}
    {fs : System}
    {r : Except RepairError Nat} (hprepare : (prepare s c).run.run w.files = (.ok site, fs))
    (hrepair : repair s c site w.clock { w with files := fs } = (r, after)) :
    run s c .repair w = (r, after.remove s.scratch) := by
  unfold run
  rw [hprepare]
  dsimp only
  rw [hrepair]

private theorem eq_of_append_line {o : Console.Output} {a b : String}
    (h : o ++ Console.Output.line a = o ++ Console.Output.line b) : a = b := by
  have hout : o.out ++ (a ++ "\n") = o.out ++ (b ++ "\n") := congrArg Console.Output.out h
  have hlist := congrArg String.toList hout
  simp only [String.toList_append, List.append_cancel_left_eq, List.append_cancel_right_eq] at hlist
  exact String.toList_inj.mp hlist

private theorem create_settings {ds : DocumentSet} {faulty seeds : Pool Float}
    {settings : Search.Settings} {seed : UInt64} {c : Search.Controller WeylProduct Float}
    (h : Search.Controller.create ds faulty seeds settings seed = .ok c) :
    c.settings = settings := by
  rw [Search.Controller.create] at h
  repeat' split at h
  · cases h
  · cases h
  · cases h
  · obtain rfl := Except.ok.inj h
    rfl

private theorem start_eq (ds : DocumentSet) (faulty seeds : Pool Float) (settings : Search.Settings)
    (seed : UInt64) : (Search.Controller.start ds faulty seeds settings seed :
      Search.Controller WeylProduct Float) =
      ⟨ds, faulty, seeds, settings,
        (Search.Controller.start ds faulty seeds settings seed).faultySource,
        (Search.Controller.start ds faulty seeds settings seed).seedSource,
        (Search.Controller.start ds faulty seeds settings seed).policySource, [], .zero⟩ := rfl

private theorem prepare_eq_ok {s : Setting} {c : Config} {fs fs' : System} {site : Site}
    (h : (prepare s c).run.run fs = (.ok site, fs')) :
    site.build = ⟨c.buildDirectory⟩ ∧
      site.controller.settings = c.settings (s.quiet || s.json) := by
  unfold prepare at h
  -- the files, the sources and the copy of the project
  obtain ⟨_, _, _, h⟩ := bind_eq_ok h
  obtain ⟨⟨ds, faulty, seeds, root⟩, _, _, h⟩ := bind_eq_ok h
  obtain ⟨workspace, _, _, h⟩ := bind_eq_ok h
  -- the compiler and the tests
  obtain ⟨_, _, _, h⟩ := bind_eq_ok h
  obtain ⟨_, _, _, h⟩ := bind_eq_ok h
  obtain ⟨compiler, _, _, h⟩ := bind_eq_ok h
  obtain ⟨_, _, _, h⟩ := bind_eq_ok h
  -- the build directory and the controller
  obtain ⟨build, fs₁, hbuild, h⟩ := bind_eq_ok h
  obtain ⟨controller, fs₂, hcontroller, h⟩ := bind_eq_ok h
  have hsite : Except.ok (Site.mk build compiler _ controller) = Except.ok site :=
    congrArg Prod.fst h
  obtain rfl := Except.ok.inj hsite
  constructor
  · change BuildDirectory.create c.buildDirectory _ = _ at hbuild
    rw [BuildDirectory.create] at hbuild
    split at hbuild
    · simpa using (Prod.mk.inj hbuild).1.symm
    · cases hbuild
  · cases hcreate : (Search.Controller.create ds faulty seeds (c.settings (s.quiet || s.json))
        (UInt64.ofNat c.seed) : Except RepairError (Search.Controller WeylProduct Float)) with
    | error e =>
      rw [hcreate] at hcontroller
      cases hcontroller
    | ok made =>
      rw [hcreate] at hcontroller
      obtain rfl := Except.ok.inj (Prod.mk.inj hcontroller).1
      exact create_settings hcreate

private theorem status_of_read {summary : Summary} (hfits : summary.Fits) {directory : String}
    {w : World} (h : w.files.read (BuildDirectory.summaryPath ⟨directory⟩) =
      .ok (Text.ofString summary.toJson.pretty))
    (s : Surroundings) {vs : Values} (hdirectory : buildDirectory vs = directory)
    (hjson : asksForJson vs = true) :
    status s vs w = (0, w.print (.line summary.toJson.compact)) := by
  have hload : Summary.load? ⟨directory⟩ w.files = some summary := Summary.load?_of_read hfits h
  unfold status
  dsimp only
  rw [hdirectory, hload, hjson]
  rfl

/-- What a session writes down survives. A summary that could be saved is loaded as it was, and
so is what was said of a patch when it was recorded. A session that prints JSON prints one line,
and its summary is shown with that line ever after, as long as the file with the summary is not
touched. -/
theorem records_survive :
    (∀ (summary : Summary) (b : BuildDirectory) (fs fs' : System), summary.Fits →
      summary.save b fs = .ok fs' → Summary.load? b fs' = some summary) ∧
    (∀ (b : BuildDirectory) (store : String → System → Except RepairError Unit × System)
      (found : FoundPatch) (t : String) (fs fs' : System) (p : RecordedPatch),
      found.candidate < UInt64.size → found.generation < UInt64.size →
      b.record store found t fs = (some p, fs') →
      (∃ fault, fs'.write (BuildDirectory.sidecarPath p.file) (Text.ofString p.toJson.pretty) =
        .error fault) ∨ RecordedPatch.load? p.file fs' = some p) ∧
    ∀ (s : Setting) (c : Config) (w w' : World) (code : Nat), s.json = true → s.quiet = false →
      run s c .repair w = (.ok code, w') →
      ∃ site fs after, ∃ summary : Summary, (prepare s c).run.run w.files = (.ok site, fs) ∧
        repair s c site w.clock { w with files := fs } = (.ok code, after) ∧
        w' = after.remove s.scratch ∧
        after.output = w.output ++ .line summary.toJson.compact ∧
        ((∃ e, summary.save ⟨c.buildDirectory⟩ after.files = .error e) ∨
          ∀ later : World, summary.Fits →
            later.files.read (BuildDirectory.summaryPath ⟨c.buildDirectory⟩) =
              after.files.read (BuildDirectory.summaryPath ⟨c.buildDirectory⟩) →
            ∀ (surroundings : Surroundings) (vs : Values), buildDirectory vs = c.buildDirectory →
              asksForJson vs = true →
              status surroundings vs later = (0, later.print (.line summary.toJson.compact))) := by
  refine ⟨?_, ?_, ?_⟩
  · intro summary b fs fs' hfits hsave
    exact Summary.load?_of_read hfits (Summary.read_of_save hsave)
  · intro b store found t fs fs' p hcandidate hgeneration hrecord
    exact BuildDirectory.load?_of_record hrecord hcandidate hgeneration
  · intro s c w w' code hjson hquiet hrun
    rcases hprepare : (prepare s c).run.run w.files with ⟨prepared, fs⟩
    unfold run at hrun
    rw [hprepare] at hrun
    obtain ⟨hcode, rfl⟩ := Prod.mk.inj hrun
    cases prepared with
    | error e => cases hcode
    | ok site =>
      obtain ⟨hbuild, hsettings⟩ := prepare_eq_ok hprepare
      have hsilent : site.controller.settings.quiet = true := by
        rw [hsettings]
        simp [Config.settings, hjson]
      obtain ⟨summary, houtput, hsaved⟩ :=
        repair_eq_ok hjson hquiet hsilent (Prod.ext hcode rfl)
      rw [hbuild] at hsaved
      refine ⟨site, fs, _, summary, rfl, Prod.ext hcode rfl, rfl, houtput, hsaved.imp_right ?_⟩
      intro hread later hfits hlater surroundings vs hdirectory hvs
      exact status_of_read hfits (hlater.trans hread) surroundings hdirectory hvs

private theorem run_bind {α β : Type} {x : Setup α} (f : α → Setup β) {a : α} {fs fs' : System}
    (h : x.run.run fs = (.ok a, fs')) : (x >>= f).run.run fs = (f a).run.run fs' := by
  rw [ExceptT.run_bind, StateT.run_bind, h]
  rfl

private theorem run_ofExcept {α : Type} {r : Except RepairError α} {a : α} (h : r = .ok a)
    (fs : System) : (MonadExcept.ofExcept r : Setup α).run.run fs = (.ok a, fs) := by
  subst h
  rfl

private theorem run_prepare {s : Setting} {c : Config} {fs fs₁ fs₂ : System} {ds : DocumentSet}
    {faulty seeds : Pool Float} {root : String} {workspace : Project.Workspace}
    {compiler : Project.Compiler} {build : BuildDirectory}
    {controller : Search.Controller WeylProduct Float}
    (hload : load c fs = .ok (ds, faulty, seeds, root))
    (hworkspace : Project.Workspace.create root s.scratch fs = (.ok workspace, fs₁))
    (hcompiler : (Project.Compiler.create workspace c.buildCommand c.artifacts
      (c.timeoutSeconds.map (· * 1000)) fs₁).setContext ds c.sources c.classpath fs₁ =
        .ok compiler)
    (hbuild : BuildDirectory.create c.buildDirectory fs₁ = (.ok build, fs₂))
    (hcontroller : Search.Controller.create ds faulty seeds (c.settings (s.quiet || s.json))
      (UInt64.ofNat c.seed) = .ok controller) :
    ∃ tests, (prepare s c).run.run fs = (.ok ⟨build, compiler, tests, controller⟩, fs₂) := by
  refine ⟨.create c.testCommand workspace.root (c.timeoutSeconds.map (· * 1000)) fs₁, ?_⟩
  unfold prepare
  rw [run_bind (x := get) _ rfl, run_bind _ (run_ofExcept hload fs)]
  dsimp only
  rw [run_bind (x := ExceptT.mk (Project.Workspace.create root s.scratch)) _ hworkspace,
    run_bind (x := get) _ rfl, run_bind (x := get) _ rfl,
    run_bind _ (run_ofExcept hcompiler fs₁), run_bind (x := get) _ rfl,
    run_bind (x := ExceptT.mk (BuildDirectory.create c.buildDirectory)) _ hbuild,
    run_bind _ (run_ofExcept hcontroller fs₂)]
  rfl

namespace Once

open Project

/-- A program of one statement. -/
def code : Text := [120]

/-- The line of the statement, as one that a run has reached. -/
def coverage : Json := .array [.ofMembers [("package", .ofString "a"), ("line", .ofNat 1)]]

def project : List (String × Node) :=
  [("setup.py", .file [] false), ("a.py", .file code false)]

/-- The files when the copy of the program has these entries, and there are these patches and these
other entries of the build directory. -/
def files (copied patches others : List (String × Node)) : System where
  root := .directory [("p", .directory project),
    ("c", .file (Text.ofString coverage.pretty) false), ("w", .directory copied),
    ("out", .directory (("patches", .directory patches) :: others))]
  workingDirectory := []

def fs : System := files [] [] []

def config : Config where
  sources := ["/p/a.py"]
  classpath := []
  faultyCoverage := "/c"
  seedCoverage := "/c"
  candidates := 1
  generations := 1
  attempts := 1
  seed := 7
  buildDirectory := "/out"
  buildCommand := none
  testCommand := "test \"a\"\t\u00e9\u0001"
  artifacts := none
  timeoutSeconds := none
  mutation := .fixed .deletion
  recursion := .always
  scopeGate := false

def setting : Setting where
  launch _ fs := (.ok ⟨.success, 5⟩, fs)
  scratch := "/w"
  colors := false
  json := true
  quiet := false

def world : World := ⟨fs, 0, .empty⟩

def documents : DocumentSet := ⟨[.ofText "/p/a.py" "a" .python code]⟩

def pool : Pool Float := ⟨#[⟨1, 1, ⟨0, 0⟩⟩], 1⟩

private theorem find_source : fs.find "/p/a.py" = .ok (["p", "a.py"], .file code false) :=
  System.find_of_path rfl (by decide) (by decide) rfl (by simp)

private theorem find_project : fs.find "/p" = .ok (["p"], .directory project) :=
  System.find_of_path rfl (by decide) (by decide) rfl (by simp)

private theorem load_coverage : Coverage.load fs "/c" = .ok ⟨[(⟨"a", "", 1⟩, (1 : Float))]⟩ := by
  have hfind : fs.find "/c" = .ok (["c"], .file (Text.ofString coverage.pretty) false) :=
    System.find_of_path rfl (by decide) (by decide) rfl (by simp)
  have hstring : fs.readString "/c" = .ok coverage.pretty := by
    rw [System.readString, System.read, hfind]
    simp only [Text.toString?_ofString]
  have hprintable : Json.Printable coverage := by
    refine .array ?_
    simp only [List.mem_singleton, forall_eq]
    refine .object ?_
    simp [Json.Printable.nat, Json.Printable.string]
  have hrecords : coverage.asList? CoverageRecord.ofJson? =
      some [⟨⟨"a", "", 1⟩, (1 : Float)⟩] := rfl
  rw [Coverage.load, hstring]
  dsimp only
  rw [Coverage.ofText, Json.read?_pretty hprintable, Option.bind_some, hrecords]
  exact Coverage.ofRecords_eq_ok_iff.mpr ⟨by simp [Weight.isLegal_one], rfl⟩

private theorem build_pools : Pool.build documents ⟨[(⟨"a", "", 1⟩, (1 : Float))]⟩
    ⟨[(⟨"a", "", 1⟩, (1 : Float))]⟩ = .ok (pool, pool) := by
  have hstatements : documents.statements =
      [(⟨0, 0⟩, ⟨"expression_statement", 0, 1, 1, 0, "", "module"⟩)] := by decide +kernel
  obtain ⟨d, hd, hpackage⟩ : ∃ d, documents.document 0 = .ok d ∧ d.package = "a" :=
    ⟨_, rfl, rfl⟩
  have hsum : (Weight.zero + 1 : Float) = 1 := by decide +kernel
  have hone : (Weight.one : Float) = 1 := rfl
  simp [Pool.build, Pool.ofCoverage, hstatements, hd, hpackage, Coverage.weight?,
    List.lookup_cons, Pool.add, Pool.empty, Weight.isLegal_one, hsum, hone, bind, Except.bind, pure,
    Except.pure, pool]

private theorem rootOf_fs : rootOf fs "/p/a.py" = "/p" := by
  have hfile : fs.isDirectory "/p/a.py" = false := by rw [System.isDirectory, find_source]
  have hparent : Path.parent? "/p/a.py" = some "/p" := by decide
  have hmarked : (markers.any fun m => fs.contains (Path.join "/p" m)) = true := by
    refine List.any_eq_true.mpr ⟨"setup.py", by decide, ?_⟩
    rw [System.contains, System.find_join find_project (by decide) rfl (by simp)]
    rfl
  rw [rootOf, hfile, hparent]
  simp only [Bool.false_eq_true, if_false, Option.getD_some]
  rw [markedAbove, hmarked]
  rfl

private theorem load_config : Session.load config fs = .ok (documents, pool, pool, "/p") := by
  have hexpand : expand fs "/p/a.py" = .ok [⟨"/p/a.py", "a", .python⟩] := by
    rw [expand, find_source]
    rfl
  have hdiscover : discover fs ["/p/a.py"] = .ok [⟨"/p/a.py", "a", .python⟩] := by
    simp only [discover, List.mapM_cons, List.mapM_nil, hexpand]
    rfl
  have hload : Project.load fs ⟨"/p/a.py", "a", .python⟩ =
      .ok (.ofText "/p/a.py" "a" .python code) :=
    load_of_read (by rw [System.read, find_source]) (.ascii (by decide))
  have hloadAll : loadAll fs [⟨"/p/a.py", "a", .python⟩] = .ok documents := by
    simp only [loadAll, List.mapM_cons, List.mapM_nil, hload]
    rfl
  simp only [Session.load, config, hdiscover, hloadAll, load_coverage, build_pools, rootOf_fs, bind,
    Except.bind, pure, Except.pure]

/-- The mutation that the session makes: it deletes the statement. -/
def drawn : Mutation where
  kind := .deletion
  faulty := ⟨0, 0⟩
  seed := none
  stage := .pending
  skipped := none
  description := "Deletion mutation\n  faulty: /p/a.py:1\n    x\n"

/-- The mutation when it is made, and the documents then. -/
def made : Mutation × DocumentSet := (drawn.mutate documents).toOption.getD (drawn, documents)

private theorem eq_ok {α : Type} {r : Except RepairError α} (h : r.toOption.isSome) (a : α) :
    r = .ok (r.toOption.getD a) := by
  cases r with
  | error e => cases h
  | ok a => rfl

private theorem create_drawn : Mutation.create .deletion ⟨0, 0⟩ none documents = .ok drawn := by
  have hdrawn : (Mutation.create .deletion ⟨0, 0⟩ none documents).toOption.getD drawn = drawn := by
    decide +kernel
  exact (eq_ok (by decide +kernel) drawn).trans (congrArg Except.ok hdrawn)

private theorem mutate_drawn : drawn.mutate documents = .ok made := eq_ok (by decide +kernel) _

private theorem exists_document :
    ∃ d, made.2.documents = [d] ∧ made.2.document made.1.document = .ok d ∧
    d.revision = 1 := by
  have hrevisions : made.2.documents.map (·.revision) = [1] := by decide +kernel
  have hdocument : made.1.document = 0 := by decide +kernel
  obtain ⟨d, ds, hd, hrevision, hds⟩ := List.map_eq_cons_iff.mp hrevisions
  obtain rfl := List.map_eq_nil_iff.mp hds
  refine ⟨d, hd, ?_, hrevision⟩
  rw [hdocument, DocumentSet.document, hd]
  rfl

private theorem syntaxStatus_made : made.2.syntaxStatus = 0 := by decide +kernel

private theorem undo_made : ∃ undone, made.1.undo made.2 = .ok undone :=
  ⟨_, eq_ok (by decide +kernel) made⟩

section

variable {copied patches others : List (String × Node)} {name : String}

private theorem find_out : (files copied patches others).find "/out" =
    .ok (["out"], .directory (("patches", .directory patches) :: others)) :=
  System.find_of_path rfl (by decide) (by decide) rfl (by simp)

private theorem find_patches : (files copied patches others).find "/out/patches" =
    .ok (["out", "patches"], .directory patches) :=
  System.find_of_path rfl (by decide) (by decide) rfl (by simp)

private theorem find_copied :
    (files copied patches others).find "/w" = .ok (["w"], .directory copied) :=
  System.find_of_path rfl (by decide) (by decide) rfl (by simp)

private theorem update_new (hname : IsName name)
    (hnew : List.lookup name (("patches", .directory patches) :: others) = none)
    (content : Text → Text) (executable : Bool) :
    (files copied patches others).update (Path.join "/out" name) content executable =
      .ok (files copied patches (others ++ [(name, .file (content []) executable)])) := by
  rw [System.update_new find_out hname hnew]
  rfl

private theorem write_patch (hname : IsName name) (hnew : patches.lookup name = none)
    (text : Text) :
    (files copied patches others).write (Path.join "/out/patches" name) text =
      .ok (files copied (patches ++ [(name, .file text false)]) others) := by
  rw [System.write, System.update_new find_patches hname hnew]
  rfl

private theorem copy_copied (hlegal : Legal (.directory copied)) (hname : IsName name)
    (hnew : List.lookup name (("patches", .directory patches) :: others) = none) :
    copy "/w" (Path.join "/out" name) (files copied patches others) =
      (.ok (), files copied patches (others ++ [(name, .directory (keptEntries copied))])) := by
  rw [copy_vacant find_copied hlegal (.new find_out hname hnew) (by simp),
    System.put_concat (System.get?_of_find find_out) hnew]
  rfl

end

/-- The copy of the program with a text in it. -/
def withText (text : Text) : List (String × Node) :=
  [("setup.py", .file [] false), ("a.py", .file text false)]

private theorem write_program (old text : Text) (patches others : List (String × Node)) :
    (files (withText old) patches others).write "/w/a.py" text =
      .ok (files (withText text) patches others) := by
  have hfind : (files (withText old) patches others).find "/w/a.py" =
      .ok (["w", "a.py"], .file old false) :=
    System.find_of_path rfl (by decide) (by decide) rfl (by simp)
  rw [System.write_of_find hfind]
  rfl

private theorem legal_withText (text : Text) : Legal (.directory (withText text)) := by
  refine legal_directory (by simp [withText]) ?_
  simp only [withText, List.mem_cons, List.not_mem_nil, or_false, forall_eq_or_imp, forall_eq]
  exact ⟨⟨by decide, legal_file _ _⟩, by decide, legal_file _ _⟩

def controller : Search.Controller WeylProduct Float :=
  let start : Search.Controller WeylProduct Float :=
    .start documents pool pool (config.settings true) 7
  ⟨documents, pool, pool, config.settings true, start.faultySource, start.seedSource,
    start.policySource, [], .zero⟩

private theorem draws : controller.Draws .deletion made.1 made.2
    (controller.faulty.draw controller.faultySource).2 := by
  have hdraw : (controller.faulty.draw controller.faultySource).1.toOption = some ⟨0, 0⟩ := by
    decide +kernel
  refine ⟨rfl, ⟨0, 0⟩, drawn, ?_, create_drawn, mutate_drawn⟩
  cases hanswer : (controller.faulty.draw controller.faultySource).1 with
  | error e => simp [hanswer, Except.toOption] at hdraw
  | ok s =>
    obtain rfl : s = ⟨0, 0⟩ := by simpa [hanswer, Except.toOption] using hdraw
    exact Prod.ext hanswer rfl

section

variable (environment : List (String × String)) (tests : TestRunner)

/-- A compiler that has written a revision of the document. -/
def compiler (revision : Nat) : Compiler where
  workspace := ⟨"/w", "/p"⟩
  buildCommand := none
  artifacts := none
  timeout := none
  targets := ["/w/a.py"]
  written := [some revision]
  environment := environment

def site : Site := ⟨⟨"/out"⟩, compiler environment 0, tests, controller⟩

def bench (fs : System) (clock revision : Nat) (recorded : List RecordedPatch) : Bench :=
  ⟨⟨fs, clock, .empty⟩, compiler environment revision, recorded⟩

private theorem appendLog_bench (text : String) :
    Bench.appendLog ⟨"/out"⟩ text (bench environment (files (withText code) [] []) 0 0 []) =
      (.ok (), bench environment (files (withText code) []
        [("log", .file (Text.ofString (text ++ "\n")) false)]) 0 0 []) := by
  have hlog : BuildDirectory.logPath ⟨"/out"⟩ = Path.join "/out" "log" := rfl
  rw [Bench.appendLog, BuildDirectory.appendLog, bench, System.append, hlog,
    update_new (by decide) (by decide)]
  rfl

private theorem compile_bench {d : Document} (hd : made.2.documents = [d])
    (hrevision : d.revision = 1) (others : List (String × Node)) :
    Bench.compile setting made.2 (bench environment (files (withText code) [] others) 0 0 []) =
      (.ok 0, bench environment (files (withText d.current) [] others) 0 1 []) := by
  have hwrite : Compiler.writeFile "/w/a.py" d.current (files (withText code) [] others) =
      (.ok (), files (withText d.current) [] others) := by
    rw [Compiler.writeFile, write_program]
  have hchanged : (compiler environment 0).writeChanged Compiler.writeFile made.2
      (files (withText code) [] others) =
        (.ok (), compiler environment 1, files (withText d.current) [] others) := by
    have htarget : (compiler environment 0).targets[0]? = some "/w/a.py" := rfl
    have hwritten : (compiler environment 0).written[0]? = some (some 0) := rfl
    rw [Compiler.writeChanged, hd, Compiler.writeFrom, htarget, hwritten, hrevision]
    dsimp only
    rw [if_neg (by decide), hwrite]
    rfl
  have hcompile : (compiler environment 0).compile setting.launch made.2
      (files (withText code) [] others) =
        (.ok (0, 0), compiler environment 1, files (withText d.current) [] others) := by
    rw [Compiler.compile, Compiler.build, hchanged, ← syntaxStatus_made]
    rfl
  rw [Bench.compile, bench]
  dsimp only
  rw [hcompile]
  rfl

private theorem runTests_bench (fs : System) (revision : Nat) :
    Bench.runTests setting tests (bench environment fs 0 revision []) =
      (.ok 1, bench environment fs 5 revision []) := rfl

private theorem passes : ∃ d log, made.2.documents = [d] ∧
    (collaborators setting (site environment tests)).Passes made.1 made.2
      (bench environment (files (withText code) [] []) 0 0 [])
      (bench environment (files (withText d.current) [] [("log", .file log false)]) 5 1 []) := by
  obtain ⟨d, hd, hdocument, hrevision⟩ := exists_document
  refine ⟨d, _, hd, d, _, _, hdocument, appendLog_bench environment _,
    compile_bench environment hd hrevision _, runTests_bench environment tests _ _⟩

def patchName : String := "Candidate1_Generation1_19700101000000005"

/-- What is recorded of the program. -/
def patch (mutations : List String) : RecordedPatch where
  candidate := 1
  generation := 1
  timestamp := "19700101000000005"
  mutations := mutations
  file := Path.join "/out/patches" patchName
  compiled := some (Path.join "/out" ("classes_" ++ patchName))
  diff := made.2.diff

/-- The build directory when the patch is recorded: it has the mutations, what is known of the
patch, and the program. -/
def recorded (mutations : List String) (text log : Text) : System :=
  files (withText text)
    [(patchName, .file (Text.ofString (String.join (mutations.map (· ++ "\n")))) false),
      (patchName ++ ".json", .file (Text.ofString (patch mutations).toJson.pretty) false)]
    [("log", .file log false),
      ("classes_" ++ patchName, .directory (keptEntries (withText text)))]

private theorem sidecarPath_patch (mutations : List String) :
    BuildDirectory.sidecarPath (patch mutations).file =
      Path.join "/out/patches" (patchName ++ ".json") := by
  have hpath : BuildDirectory.sidecarPath (Path.join "/out/patches" patchName) =
      Path.join "/out/patches" (patchName ++ ".json") := by decide +kernel
  exact hpath

private theorem record_made (mutations : List String) (text log : Text) :
    BuildDirectory.record ⟨"/out"⟩ (compiler environment 1).store ⟨1, 1, mutations, made.2⟩
      "19700101000000005" (files (withText text) [] [("log", .file log false)]) =
        (some (patch mutations), recorded mutations text log) := by
  have hfile : BuildDirectory.patchPath ⟨"/out"⟩ 1 1 "19700101000000005" =
      Path.join "/out/patches" patchName := by decide +kernel
  have hclasses : BuildDirectory.classesPath ⟨"/out"⟩ 1 1 "19700101000000005" =
      Path.join "/out" ("classes_" ++ patchName) := by decide +kernel
  have hstore (patches : List (String × Node)) : (compiler environment 1).store
      (Path.join "/out" ("classes_" ++ patchName))
      (files (withText text) patches [("log", .file log false)]) =
        (.ok (), files (withText text) patches [("log", .file log false),
          ("classes_" ++ patchName, .directory (keptEntries (withText text)))]) :=
    copy_copied (legal_withText text) (by decide +kernel) (by simp [List.lookup_cons, patchName])
  refine BuildDirectory.record_eq ?_ (write_patch (by decide +kernel) rfl _)
    (by rw [hclasses]; exact hstore _) ?_
  · rw [hfile, hclasses]
    rfl
  · rw [sidecarPath_patch]
    exact write_patch (by decide +kernel) (by simp [List.lookup_cons, patchName]) _

private theorem record_bench (mutations : List String) (text log : Text) :
    (collaborators setting (site environment tests)).record ⟨1, 1, mutations, made.2⟩
      (bench environment (files (withText text) [] [("log", .file log false)]) 5 1 []) =
        (some (patch mutations), bench environment (recorded mutations text log) 5 1
          [patch mutations]) := by
  have hbuild : (collaborators setting (site environment tests)).record =
    Bench.record ⟨"/out"⟩ := rfl
  have hstamp : Timestamp.ofMilliseconds 5 = "19700101000000005" := by decide +kernel
  rw [hbuild, Bench.record, bench]
  dsimp only
  rw [hstamp, record_made]
  rfl

private theorem write_recorded (mutations : List String) (text log content : Text) :
    ∃ fs', (recorded mutations text log).write (BuildDirectory.sidecarPath (patch mutations).file)
      content = .ok fs' := by
  have hfind : (recorded mutations text log).find
      (Path.join "/out/patches" (patchName ++ ".json")) =
        .ok (["out", "patches", patchName ++ ".json"],
          .file (Text.ofString (patch mutations).toJson.pretty) false) :=
    System.find_join find_patches (by decide +kernel) (by simp [List.lookup_cons, patchName])
      (by simp)
  rw [← sidecarPath_patch mutations] at hfind
  exact ⟨_, System.write_of_find hfind⟩

/-- What the session leaves: one candidate was run, built and tested, and its patch recorded. -/
def summary (mutations : List String) : Summary where
  config := config
  started := Timestamp.ofMilliseconds 0
  candidatesRun := 1
  candidatesFailed := 0
  compilations := 1
  testRuns := 1
  patches := [patch mutations]
  milliseconds := 5

private theorem search_site : ∃ mutations c copied patches others,
    List.lookup "summary.json" (("patches", Node.directory patches) :: others) = none ∧
    controller.repair (collaborators setting (site environment tests))
      (bench environment (files (withText code) [] []) 0 0 []) =
        (.ok ⟨1, 0, 1, 1, 1⟩, c,
          bench environment (files copied patches others) 5 1 [patch mutations]) := by
  obtain ⟨d, log, _, hpasses⟩ := passes environment tests
  obtain ⟨undone, hundo⟩ := undo_made
  have hrecord := record_bench environment tests
    (controller.patches ++ [Search.Step.patchText 1 1 made.1]) d.current log
  obtain ⟨c, hrepair⟩ :=
    Search.Controller.repair_once (c := controller) rfl rfl draws hpasses hrecord hundo
  exact ⟨_, c, _, _, _, by simp [List.lookup_cons, patchName], hrepair⟩

private theorem save_summary (mutations : List String) (copied : List (String × Node))
    (hnew : List.lookup "summary.json" (("patches", Node.directory patches) :: others) = none) :
    (summary mutations).save ⟨"/out"⟩ (files copied patches others) =
      .ok (files copied patches (others ++
        [("summary.json", .file (Text.ofString (summary mutations).toJson.pretty) false)])) := by
  have hpath : BuildDirectory.summaryPath ⟨"/out"⟩ = Path.join "/out" "summary.json" := rfl
  rw [Summary.save, System.write, hpath, update_new (by decide) hnew]

private theorem repair_site : ∃ mutations fs₁ fs₂,
    repair setting config (site environment tests) world.clock
      { world with files := files (withText code) [] [] } =
        (.ok 0, ⟨fs₂, 5, world.output ++ .line (summary mutations).toJson.compact⟩) ∧
    (summary mutations).save ⟨"/out"⟩ fs₁ = .ok fs₂ := by
  obtain ⟨mutations, c, copied, patches, others, hnew, hsearch⟩ := search_site environment tests
  have hsave := save_summary mutations copied hnew
  refine ⟨mutations, _, _, ?_, hsave⟩
  exact repair_of_search rfl rfl hsearch rfl hsave

end

private theorem prepare_config : ∃ environment tests, (prepare setting config).run.run fs =
    (.ok (site environment tests), files (withText code) [] []) := by
  have hlegal : Legal (.directory project) := by decide
  have hkept : fs.put ["w"] (.directory (keptEntries project)) = files (withText code) [] [] := by
    have hproject : keptEntries project = withText code := by
      simp only [keptEntries, kept?, project]
      rfl
    rw [hproject]
    rfl
  have hworkspace : Workspace.create "/p" "/w" fs =
      (.ok ⟨"/w", "/p"⟩, files (withText code) [] []) := by
    rw [Workspace.create_eq find_project hlegal find_copied, hkept]
  have hmap : documents.documents.mapM (fun d => Workspace.mapPath ⟨"/w", "/p"⟩ d.path) =
      .ok ["/w/a.py"] := rfl
  have hcreate (fs : System) : Compiler.create ⟨"/w", "/p"⟩ none none none fs =
      ⟨⟨"/w", "/p"⟩, none, none, none, [], [], []⟩ := rfl
  obtain ⟨environment, hcompiler⟩ := Compiler.exists_setContext
    (c := Compiler.create ⟨"/w", "/p"⟩ none none none (files (withText code) [] [])) hmap
    ["/p/a.py"] [] (files (withText code) [] [])
  have hbuild : BuildDirectory.create "/out" (files (withText code) [] []) =
      (.ok ⟨"/out"⟩, files (withText code) [] []) := by
    have hpath : BuildDirectory.patchesPath ⟨"/out"⟩ = "/out/patches" := by decide
    rw [BuildDirectory.create, hpath, System.makeDirectories_of_find find_patches]
  have hcontroller : Search.Controller.create documents pool pool (config.settings true) 7 =
      .ok controller := by
    rw [Search.Controller.create, if_neg (by decide +kernel), if_neg (by decide +kernel),
      if_neg (by decide +kernel)]
    exact congrArg Except.ok (start_eq _ _ _ _ _)
  obtain ⟨tests, hprepare⟩ := run_prepare (s := setting) (c := config) load_config hworkspace
    hcompiler hbuild hcontroller
  rw [hcreate] at hprepare
  exact ⟨environment, tests, hprepare⟩

/-- Texts with quotes, backslashes, line breaks and characters beyond ASCII. -/
def quoted : List String := ["a \"b\"\n\tc\\", "\u00e9\u0001\u2028"]

private theorem fits_summary (mutations : List String) : (summary mutations).Fits := by
  have hone : 1 < UInt64.size := by decide
  have hconfig : config.Fits :=
    ⟨hone, hone, hone, (by decide : 7 < UInt64.size), by simp [config]⟩
  refine ⟨hconfig, hone, (by decide : 0 < UInt64.size), hone, hone, ?_,
    (by decide : 5 < UInt64.size)⟩
  intro p hp
  obtain rfl : p = patch mutations := List.mem_singleton.mp hp
  exact ⟨hone, hone⟩

end Once

open Once in
/-- A summary and a patch with texts that have to be escaped, and a session that records a patch.
Its summary is shown with the line that it has printed. -/
theorem records_survive_once :
    (∃ fs', (summary quoted).save ⟨"/out"⟩ fs = .ok fs' ∧
      Summary.load? ⟨"/out"⟩ fs' = some (summary quoted)) ∧
    (∃ before fs', BuildDirectory.record ⟨"/out"⟩ (compiler [] 1).store ⟨1, 1, quoted, made.2⟩
      "19700101000000005" before = (some (patch quoted), fs') ∧
        RecordedPatch.load? (patch quoted).file fs' = some (patch quoted)) ∧
    ∃ mutations w', ∃ after : World, run setting config .repair world = (.ok 0, w') ∧
      w' = after.remove "/w" ∧
      after.output = Console.Output.empty ++ .line (summary mutations).toJson.compact ∧
      ∀ surroundings (later : World),
        later.files.read (BuildDirectory.summaryPath ⟨"/out"⟩) =
          after.files.read (BuildDirectory.summaryPath ⟨"/out"⟩) →
        status surroundings [("build-dir", ["/out"]), ("json", ["true"])] later =
          (0, later.print (.line (summary mutations).toJson.compact)) := by
  refine ⟨?_, ?_, ?_⟩
  · have hsave := @save_summary [] [] quoted [] rfl
    exact ⟨_, hsave, records_survive.1 _ _ _ _ (fits_summary _) hsave⟩
  · have hrecord := record_made [] quoted [] []
    refine ⟨_, _, hrecord, ?_⟩
    obtain ⟨fault, hfault⟩ | hload :=
      records_survive.2.1 _ _ _ _ _ _ _ (by decide) (by decide) hrecord
    · obtain ⟨fs', hwrite⟩ :=
        write_recorded quoted [] [] (Text.ofString (patch quoted).toJson.pretty)
      rw [hwrite] at hfault
      cases hfault
    · exact hload
  · obtain ⟨environment, tests, hprepare⟩ := prepare_config
    obtain ⟨mutations, fs₁, fs₂, hrepair, hsave⟩ := repair_site environment tests
    have hrun := run_of_repair (w := world) hprepare hrepair
    obtain ⟨site, fs', after, s, hprepare', hrepair', hremoved, houtput, hstatus⟩ :=
      records_survive.2.2 _ _ _ _ _ rfl rfl hrun
    rw [show world.files = fs from rfl, hprepare, Prod.mk.injEq, Except.ok.injEq] at hprepare'
    obtain ⟨rfl, rfl⟩ := hprepare'
    obtain rfl := (Prod.mk.inj (hrepair.symm.trans hrepair')).2
    obtain rfl : summary mutations = s := Summary.eq_of_compact (eq_of_append_line houtput)
    refine ⟨mutations, _, _, hrun, hremoved, houtput, ?_⟩
    intro surroundings later hlater
    obtain ⟨e, herror⟩ | hstatus := hstatus
    · obtain ⟨fs₃, hsave'⟩ := Summary.save_of_save hsave (summary mutations)
      cases hsave'.symm.trans herror
    · exact hstatus later (fits_summary mutations) hlater surroundings _ rfl rfl

end Session

end RepairSearch
