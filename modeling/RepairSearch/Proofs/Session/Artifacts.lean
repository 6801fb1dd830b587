import Mathlib.Data.List.Nodup
import RepairSearch.Proofs.Files.FileName
import RepairSearch.Proofs.Search.Recordings
import RepairSearch.Proofs.Search.Tested
import RepairSearch.Session.Timestamp

/-!
# What a session leaves behind

Everything that a session leaves in its build directory has a path of its own. Of patches that were
found at the same time, the names tell the candidates and the generations apart.
-/

namespace RepairSearch

open Files

/-- A text that can end the name of a file which is to have no extension. -/
structure IsStamp (t : String) : Prop where
  slash_not_mem : '/' ∉ t.toList
  dot_not_mem : '.' ∉ t.toList

instance (t : String) : Decidable (IsStamp t) :=
  decidable_of_iff ('/' ∉ t.toList ∧ '.' ∉ t.toList)
    ⟨fun ⟨h, h'⟩ => ⟨h, h'⟩, fun ⟨h, h'⟩ => ⟨h, h'⟩⟩

private theorem not_mem_toDigits {c : Char} (hc : c.isDigit = false) (n : Nat) :
    c ∉ Nat.toDigits 10 n := by
  intro hmem
  have hdigit := Nat.isDigit_of_mem_toDigits (by decide : 0 < 10) le_rfl hmem
  rw [hc] at hdigit
  cases hdigit

private theorem IsStamp.append {t t' : String} (h : IsStamp t) (h' : IsStamp t') :
    IsStamp (t ++ t') where
  slash_not_mem := by simp [h.slash_not_mem, h'.slash_not_mem]
  dot_not_mem := by simp [h.dot_not_mem, h'.dot_not_mem]

private theorem isStamp_toString (n : Nat) : IsStamp (toString n) := by
  constructor
  · simpa using not_mem_toDigits (c := '/') (by decide) n
  · simpa using not_mem_toDigits (c := '.') (by decide) n

private theorem Timestamp.isStamp_padded (width n : Nat) : IsStamp (padded width n) := by
  have hzeros (k : Nat) : IsStamp (String.ofList (List.replicate k '0')) := by
    constructor <;> simp
  exact (hzeros _).append (isStamp_toString n)

private theorem Timestamp.isStamp_ofMilliseconds (ms : Nat) : IsStamp (ofMilliseconds ms) := by
  rw [ofMilliseconds]
  exact ((((((isStamp_padded _ _).append (isStamp_padded _ _)).append (isStamp_padded _ _)).append
    (isStamp_padded _ _)).append (isStamp_padded _ _)).append (isStamp_padded _ _)).append
    (isStamp_padded _ _)

namespace BuildDirectory

private theorem toList_patchName (candidate generation : Nat) (t : String) :
    (patchName candidate generation t).toList = "Candidate".toList ++ (Nat.toDigits 10 candidate ++
      '_' :: ("Generation".toList ++ (Nat.toDigits 10 generation ++ '_' :: t.toList))) := by
  have hname : patchName candidate generation t = "Candidate" ++ toString candidate ++
      "_Generation" ++ toString generation ++ "_" ++ t := rfl
  simp [hname]

private theorem toDigits_append_inj {m n : Nat} {xs ys : List Char}
    (h : Nat.toDigits 10 m ++ '_' :: xs = Nat.toDigits 10 n ++ '_' :: ys) : m = n ∧ xs = ys := by
  have htake (n : Nat) (xs : List Char) :
      (Nat.toDigits 10 n ++ '_' :: xs).takeWhile (· ≠ '_') = Nat.toDigits 10 n := by
    have hall : ∀ c ∈ Nat.toDigits 10 n, decide (c ≠ '_') = true := by
      intro c hc
      rw [decide_eq_true_eq]
      rintro rfl
      exact not_mem_toDigits (by decide) n hc
    rw [List.takeWhile_append_of_pos hall, List.takeWhile_cons_of_neg (by simp), List.append_nil]
  have hdigits : Nat.toDigits 10 m = Nat.toDigits 10 n := by rw [← htake m xs, h, htake n ys]
  have hnumber : m = n := by
    rw [← Nat.ofDigitChars_ten_toDigits (n := m), hdigits, Nat.ofDigitChars_ten_toDigits]
  rw [hdigits, List.append_cancel_left_eq] at h
  exact ⟨hnumber, (List.cons.inj h).2⟩

private theorem patchName_inj {candidate generation candidate' generation' : Nat} {t t' : String} :
    patchName candidate generation t = patchName candidate' generation' t' ↔
      candidate = candidate' ∧ generation = generation' ∧ t = t' := by
  constructor
  · intro h
    have hlist := String.toList_inj.mpr h
    rw [toList_patchName, toList_patchName, List.append_cancel_left_eq] at hlist
    obtain ⟨hcandidate, hrest⟩ := toDigits_append_inj hlist
    rw [List.append_cancel_left_eq] at hrest
    obtain ⟨hgeneration, ht⟩ := toDigits_append_inj hrest
    exact ⟨hcandidate, hgeneration, String.toList_inj.mp ht⟩
  · rintro ⟨rfl, rfl, rfl⟩
    rfl

private theorem isStamp_patchName (candidate generation : Nat) {t : String} (ht : IsStamp t) :
    IsStamp (patchName candidate generation t) := by
  have hslash := not_mem_toDigits (c := '/') (by decide)
  have hdot := not_mem_toDigits (c := '.') (by decide)
  constructor
  · simp [toList_patchName, ht.slash_not_mem, hslash]
  · simp [toList_patchName, ht.dot_not_mem, hdot]

private theorem isName_patchName (candidate generation : Nat) {t : String} (ht : IsStamp t) :
    IsName (patchName candidate generation t) := by
  have hstamp := isStamp_patchName candidate generation ht
  have hlist := toList_patchName candidate generation t
  refine ⟨?_, ?_, ?_, hstamp.slash_not_mem⟩
  all_goals
    intro h
    rw [h] at hlist
    simp at hlist

end BuildDirectory

/-- What a session leaves in its build directory. -/
inductive Artifact where
  | log
  | summary
  | listing (candidate generation : Nat) (t : String)
  | sidecar (candidate generation : Nat) (t : String)
  | program (candidate generation : Nat) (t : String)
deriving DecidableEq

namespace Artifact

open BuildDirectory

def path (b : BuildDirectory) : Artifact → String
  | log => b.logPath
  | summary => b.summaryPath
  | listing candidate generation t => b.patchPath candidate generation t
  | sidecar candidate generation t => sidecarPath (b.patchPath candidate generation t)
  | program candidate generation t => b.classesPath candidate generation t

/-- The names behind the build directory that lead to what is left. -/
def names : Artifact → List String
  | log => ["log"]
  | summary => ["summary.json"]
  | listing candidate generation t => ["patches", patchName candidate generation t]
  | sidecar candidate generation t => ["patches", patchName candidate generation t ++ "." ++ "json"]
  | program candidate generation t => ["classes_" ++ patchName candidate generation t]

/-- What belongs to a patch has a time that can end the name of a file. -/
def Stamped : Artifact → Prop
  | log | summary => True
  | listing _ _ t | sidecar _ _ t | program _ _ t => IsStamp t

private theorem isName_names {a : Artifact} (h : a.Stamped) : ∀ s ∈ a.names, IsName s := by
  cases a with
  | log => decide
  | summary => decide
  | listing candidate generation t =>
    have hname := isName_patchName candidate generation h
    simpa [names] using ⟨(by decide : IsName "patches"), hname⟩
  | sidecar candidate generation t =>
    have hname := isName_patchName candidate generation h
    have hfile : IsName (patchName candidate generation t ++ "." ++ "json") :=
      Path.isName_extended hname.ne_empty (by decide) hname.slash_not_mem (by decide)
    simpa [names] using ⟨(by decide : IsName "patches"), hfile⟩
  | program candidate generation t =>
    have hslash : '/' ∉ ("classes_" ++ patchName candidate generation t).toList := by
      simp [(isName_patchName candidate generation h).slash_not_mem]
    have hname : IsName ("classes_" ++ patchName candidate generation t) := by
      refine ⟨?_, ?_, ?_, hslash⟩
      all_goals
        intro hname
        simpa using congrArg String.toList hname
    simpa [names] using hname

private theorem components_path (b : BuildDirectory) {a : Artifact} (h : a.Stamped) :
    Path.components (a.path b) = Path.components b.root ++ a.names.map .name := by
  have hnames := isName_names h
  have hpatches : Path.components b.patchesPath =
      Path.components b.root ++ [.name "patches"] :=
    Path.components_join_name (by decide) b.root
  cases a with
  | log => exact Path.components_join_name (by decide) b.root
  | summary => exact Path.components_join_name (by decide) b.root
  | listing candidate generation t =>
    have hname := isName_patchName candidate generation h
    rw [path, patchPath, Path.components_join_name hname, hpatches, List.append_assoc]
    rfl
  | sidecar candidate generation t =>
    have hname := isName_patchName candidate generation h
    have hfile := hnames _ (List.mem_cons_of_mem _ List.mem_cons_self)
    have hstem : Path.cutName (patchName candidate generation t) = (_, none) :=
      Path.cutName_of_not_mem (isStamp_patchName candidate generation h).dot_not_mem
    have hreplaced : patchName candidate generation t ++ "." ++ "json" =
        if "json".isEmpty then (Path.cutName (patchName candidate generation t)).1 else
          (Path.cutName (patchName candidate generation t)).1 ++ "." ++ "json" := by
      rw [hstem, if_neg (by decide)]
    obtain ⟨cs, hcs, hsidecar⟩ := Path.components_withExtension
      (Path.fileName?_join_name hname b.patchesPath) hreplaced hfile
    rw [Path.components_join_name hname] at hcs
    rw [path, sidecarPath, patchPath, hsidecar, ← List.append_cancel_right hcs, hpatches]
    simp [names]
  | program candidate generation t =>
    exact Path.components_join_name (hnames _ (by simp [names])) b.root

private theorem classes_ne {name other : String} (h : other.toList.take 7 ≠ "classes".toList) :
    "classes_" ++ name ≠ other := by
  rintro rfl
  simp at h

private theorem eq_of_names_begin {a a' : Artifact} (h : a.Stamped) (h' : a'.Stamped)
    (hbegins : a.names <+: a'.names) : a = a' := by
  have hlog (s : String) : "classes_" ++ s ≠ "log" := classes_ne (by decide)
  have hsummary (s : String) : "classes_" ++ s ≠ "summary.json" := classes_ne (by decide)
  have hpatches (s : String) : "classes_" ++ s ≠ "patches" := classes_ne (by decide)
  have hdot {s : String} (hs : IsStamp s) (s' : String) : s ≠ s' ++ "." ++ "json" := by
    rintro rfl
    exact hs.dot_not_mem (by simp)
  cases a with
  | log =>
    cases a' with
    | log => rfl
    | _ => simp [names, List.cons_prefix_cons, (hlog _).symm] at hbegins
  | summary =>
    cases a' with
    | summary => rfl
    | _ => simp [names, List.cons_prefix_cons, (hsummary _).symm] at hbegins
  | listing candidate generation t =>
    cases a' with
    | listing candidate' generation' t' =>
      simpa [names, List.cons_prefix_cons, patchName_inj] using hbegins
    | sidecar candidate' generation' t' =>
      have hname := hdot (isStamp_patchName candidate generation h)
      simp [names, List.cons_prefix_cons, hname] at hbegins
    | _ => simp [names, List.cons_prefix_cons] at hbegins
  | sidecar candidate generation t =>
    cases a' with
    | sidecar candidate' generation' t' =>
      simpa [names, List.cons_prefix_cons, patchName_inj] using hbegins
    | listing candidate' generation' t' =>
      have hname := hdot (isStamp_patchName candidate' generation' h')
      simp [names, List.cons_prefix_cons, (hname _).symm] at hbegins
    | _ => simp [names, List.cons_prefix_cons] at hbegins
  | program candidate generation t =>
    cases a' with
    | program candidate' generation' t' =>
      simpa [names, List.cons_prefix_cons, patchName_inj] using hbegins
    | _ => simp [names, List.cons_prefix_cons, hlog, hsummary, hpatches] at hbegins

private theorem path_below (b : BuildDirectory) {a : Artifact} (h : a.Stamped) :
    Path.Below b.root (a.path b) := by
  refine ⟨a.names, ?_, isName_names h, components_path b h⟩
  cases a <;> simp [names]

private theorem path_apart (b : BuildDirectory) {a a' : Artifact} (h : a.Stamped) (h' : a'.Stamped)
    (hne : a ≠ a') : Path.Apart (a.path b) (a'.path b) := by
  refine Path.apart_of_names (components_path b h) (components_path b h') ?_ ?_
  · exact fun hbegins => hne (eq_of_names_begin h h' hbegins)
  · exact fun hbegins => hne (eq_of_names_begin h' h hbegins).symm

/-- What recording the program of a generation leaves. -/
def ofRecord (p : ℕ ×ₗ ℕ) (t : String) : List Artifact :=
  let (candidate, generation) := ofLex p
  [listing candidate generation t, sidecar candidate generation t, program candidate generation t]

/-- The candidate and the generation that it belongs to, if there are any. -/
def generation? : Artifact → Option (ℕ ×ₗ ℕ)
  | log | summary => none
  | listing candidate generation _ | sidecar candidate generation _
  | program candidate generation _ => some (toLex (candidate, generation))

private theorem generation?_of_mem {p : ℕ ×ₗ ℕ} {t : String} {a : Artifact} (h : a ∈ ofRecord p t) :
    a.generation? = some p := by
  simp only [ofRecord, List.mem_cons, List.not_mem_nil, or_false] at h
  rcases h with rfl | rfl | rfl
  all_goals rfl

/-- What a run leaves that records the programs of these generations, each at its time. -/
def ofRun (records : List (ℕ ×ₗ ℕ)) (time : ℕ ×ₗ ℕ → String) : List Artifact :=
  log :: summary :: records.flatMap fun p => ofRecord p (time p)

section

variable {records : List (ℕ ×ₗ ℕ)} {time : ℕ ×ₗ ℕ → String}

private theorem stamped_ofRun (htime : ∀ p, IsStamp (time p)) :
    ∀ a ∈ ofRun records time, a.Stamped := by
  intro a ha
  rcases List.mem_cons.mp ha with rfl | ha
  · trivial
  rcases List.mem_cons.mp ha with rfl | ha
  · trivial
  obtain ⟨p, _, hp⟩ := List.mem_flatMap.mp ha
  have hstamp := htime p
  simp only [ofRecord, List.mem_cons, List.not_mem_nil, or_false] at hp
  rcases hp with rfl | rfl | rfl
  all_goals exact hstamp

private theorem ofRecord_sublist {p : ℕ ×ₗ ℕ} (hp : p ∈ records) :
    (ofRecord p (time p)).Sublist (ofRun records time) := by
  obtain ⟨before, after, rfl⟩ := List.append_of_mem hp
  rw [ofRun, List.flatMap_append, List.flatMap_cons]
  refine .cons log (.cons summary ?_)
  exact (List.sublist_append_left ..).trans (List.sublist_append_right ..)

private theorem nodup_ofRun (h : records.Nodup) : (ofRun records time).Nodup := by
  have hrecord (p : ℕ ×ₗ ℕ) : (ofRecord p (time p)).Nodup := by simp [ofRecord]
  have hdisjoint {p q : ℕ ×ₗ ℕ} (hne : p ≠ q) :
      List.Disjoint (ofRecord p (time p)) (ofRecord q (time q)) := by
    intro a hp hq
    have hsame := (generation?_of_mem hp).symm.trans (generation?_of_mem hq)
    exact hne (Option.some.inj hsame)
  have hlog (p : ℕ ×ₗ ℕ) : log ∉ ofRecord p (time p) := by simp [ofRecord]
  have hsummary (p : ℕ ×ₗ ℕ) : summary ∉ ofRecord p (time p) := by simp [ofRecord]
  rw [ofRun, List.nodup_cons, List.nodup_cons, List.nodup_flatMap]
  refine ⟨by simp [hlog], by simp [hsummary], fun p _ => hrecord p, ?_⟩
  exact h.imp hdisjoint

end

end Artifact

namespace Search.Controller

section

variable {σ W κ : Type} [Weight W] [RandomSource σ W]

/-- Whatever the collaborators do and whatever the time is, a search records programs of later
and later generations of later and later candidates, and nothing that is left overwrites anything
else: all paths lead down from the build directory and none of them leads to another one or
through it. They are the paths that recording a program writes to. -/
theorem repair_artifacts_apart (c : Controller σ W) (env : Collaborators κ) (outside : κ)
    (b : BuildDirectory) {time : ℕ ×ₗ ℕ → String} (htime : ∀ p, IsStamp (time p)) :
    ∃ answer, ∃ s : State σ W κ, c.execute (Step.repair env) outside = (answer, s) ∧
      (Event.recordings s.history).Pairwise (· < ·) ∧
      ((Artifact.ofRun (Event.recordings s.history) time).map (Artifact.path b)).Pairwise
        Path.Apart ∧
      (∀ path ∈ (Artifact.ofRun (Event.recordings s.history) time).map (Artifact.path b),
        Path.Below b.root path) ∧
      ∀ found answer, .recorded found answer ∈ s.history →
        ∃ listing sidecar program, [listing, sidecar, program].Sublist
          ((Artifact.ofRun (Event.recordings s.history) time).map (Artifact.path b)) ∧
          ∀ store fs recorded fs', b.record store found
              (time (toLex (found.candidate, found.generation))) fs = (some recorded, fs') →
            recorded.file = listing ∧ (∀ directory ∈ recorded.compiled, directory = program) ∧
            ∃ fs₁ answer fs₂, fs.write listing (Text.ofString found.listing) = .ok fs₁ ∧
              store program fs₁ = (answer, fs₂) ∧
              (fs' = fs₂ ∨ ∃ text, fs₂.write sidecar text = .ok fs') := by
  obtain ⟨es, hes, hsorted, _⟩ := Step.repair_records env (s := ⟨c, outside, []⟩)
  rw [List.append_nil] at hes
  have hhistory : (c.execute (Step.repair env) outside).2.history = es := hes
  refine ⟨(c.execute (Step.repair env) outside).1, (c.execute (Step.repair env) outside).2, rfl, ?_⟩
  rw [hhistory]
  have hstamped : ∀ a ∈ Artifact.ofRun (Event.recordings es) time, a.Stamped :=
    Artifact.stamped_ofRun htime
  have hnodup : (Event.recordings es).Nodup := hsorted.imp ne_of_lt
  refine ⟨hsorted, ?_, ?_, fun found answer hmem => ?_⟩
  · rw [List.pairwise_map]
    refine List.Pairwise.imp_of_mem ?_ (Artifact.nodup_ofRun hnodup)
    intro a a' ha ha' hne
    exact Artifact.path_apart b (hstamped a ha) (hstamped a' ha') hne
  · intro path hpath
    obtain ⟨a, ha, rfl⟩ := List.mem_map.mp hpath
    exact Artifact.path_below b (hstamped a ha)
  · have hrecorded : toLex (found.candidate, found.generation) ∈ Event.recordings es :=
      List.mem_filterMap.mpr ⟨_, List.mem_reverse.mpr hmem, rfl⟩
    refine ⟨_, _, _, (Artifact.ofRecord_sublist hrecorded).map (Artifact.path b), ?_⟩
    intro store fs recorded fs' h
    obtain ⟨_, hfile, fs₁, stored, fs₂, hwrite, hstore, hcompiled, hsidecar⟩ :=
      BuildDirectory.records h
    refine ⟨hfile, fun directory hdirectory => ?_, fs₁, stored, fs₂, hwrite, hstore, hsidecar⟩
    rw [hcompiled] at hdirectory
    split at hdirectory
    · exact (Option.some.inj hdirectory).symm
    · cases hdirectory

end

/-- Programs of the first and of the third candidate, recorded at the same time. -/
theorem pair_artifacts_apart : (∀ _ : ℕ ×ₗ ℕ, IsStamp (Timestamp.ofMilliseconds 0)) ∧
    ∃ answer, ∃ s : State WeylProduct Float Nat,
      pair.execute (Step.repair counting) 0 = (answer, s) ∧
      Event.recordings s.history = [toLex (1, 1), toLex (3, 2)] ∧
      ((Artifact.ofRun [toLex (1, 1), toLex (3, 2)] fun _ => Timestamp.ofMilliseconds 0).map
        (Artifact.path ⟨"out"⟩)).Pairwise Path.Apart ∧
      ∀ path ∈ (Artifact.ofRun [toLex (1, 1), toLex (3, 2)] fun _ =>
        Timestamp.ofMilliseconds 0).map (Artifact.path ⟨"out"⟩), Path.Below "out" path := by
  have htime (_ : ℕ ×ₗ ℕ) : IsStamp (Timestamp.ofMilliseconds 0) :=
    Timestamp.isStamp_ofMilliseconds 0
  obtain ⟨answer, s, hexec, _, hapart, hbelow, _⟩ :=
    repair_artifacts_apart pair counting 0 ⟨"out"⟩ htime
  have hrecordings : Event.recordings (pair.execute (Step.repair counting) 0).2.history =
      [toLex (1, 1), toLex (3, 2)] := by
    decide +kernel
  rw [hexec] at hrecordings
  rw [hrecordings] at hapart hbelow
  exact ⟨htime, answer, s, hexec, hrecordings, hapart, hbelow⟩

end Search.Controller

end RepairSearch
