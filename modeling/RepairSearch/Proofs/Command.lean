import RepairSearch.Proofs.Files.Place
import RepairSearch.Proofs.Text.Words
import RepairSearch.Shell.Launch

/-!
# Words of commands

A line with several words is the same command whatever the white space around and between them. A
line of one word is that word only if there is no white space around it. A program that is named by
its place keeps the words of its line as long as no white space comes into that name.
-/

namespace RepairSearch.Command

open Files

private theorem ofLine_several {line : String} {program a : List Char} {as : List (List Char)}
    (h : words line.toList = program :: a :: as) :
    ofLine line = ⟨String.ofList program, (a :: as).map String.ofList⟩ := by
  rw [ofLine, h]

private theorem ofLine_single {line : String} {w : List Char} (h : words line.toList = [w]) :
    ofLine line = ⟨line, []⟩ := by
  rw [ofLine, h]

private theorem exists_space_of_single {line : String} {w : List Char} (h : words line.toList = [w])
    (hne : line ≠ String.ofList w) : ∃ c ∈ line.toList, isSpace c = true := by
  by_contra hsolid
  have hword : IsWord line.toList := by
    refine ⟨fun hnil => ?_, fun c hc => ?_⟩
    · rw [hnil, words_nil] at h
      cases h
    · exact Bool.eq_false_iff.mpr fun hspace => hsolid ⟨c, hc, hspace⟩
  rw [hword.words] at h
  exact hne (by rw [← (List.cons_eq_cons.mp h).1, String.ofList_toList])

private theorem launch_congr {line line' : String} (h : ofLine line = ofLine line')
    (job : Project.Job) (fs : System) :
    Shell.launch { job with line := line } fs = Shell.launch { job with line := line' } fs := by
  simp only [Shell.launch, h]
  rfl

private theorem installed_solid :
    ∀ entry ∈ Shell.Program.installed, ∀ c ∈ entry.1.toList, isSpace c = false := by
  have hall : (Shell.Program.installed.all fun entry =>
      entry.1.toList.all fun c => !isSpace c) = true := by decide
  exact fun entry hentry => solid_of_all (List.all_eq_true.mp hall entry hentry)

private theorem launch_of_space {job : Project.Job} {fs : System} {names : List String} {n : Node}
    {c : Char} (hdir : fs.find job.directory = .ok (names, n))
    (hmem : c ∈ (ofLine job.line).program.toList) (hc : isSpace c = true)
    (hslash : '/' ∉ (ofLine job.line).program.toList) :
    Shell.launch job fs = (.error .missing, fs) := by
  have hlookup : Shell.Program.installed.lookup (ofLine job.line).program = none := by
    refine List.lookup_eq_none_iff.mpr fun entry hentry => ?_
    rw [bne_iff_ne]
    intro heq
    have hsolid := installed_solid entry hentry c (heq ▸ hmem)
    rw [hc] at hsolid
    cases hsolid
  have hdots : ((ofLine job.line).program = "." || (ofLine job.line).program = "..") = false := by
    rw [Bool.or_eq_false_iff, decide_eq_false_iff_not, decide_eq_false_iff_not]
    constructor <;>
    · intro heq
      rw [heq] at hmem
      rw [solid_of_all (by decide) c hmem] at hc
      cases hc
  have hfind : Shell.Program.find { fs with workingDirectory := names } (ofLine job.line).program =
      .error .missing := by
    rw [Shell.Program.find, if_neg (by simpa using hslash), hlookup, hdots]
    rfl
  rw [Shell.launch]
  simp only [hdir, hfind]

/-- A line that is not blank spells a program and arguments. With arguments, the line is this
command, and more white space changes neither what it is nor what is launched. A program alone is
the line as it stands: with white space around it the line is another command, and none that can be
launched, unless its slashes make it a path. -/
theorem ofLine_widened {line : String} (h : isBlankString line = false) :
    ∃ program arguments, Spells (program :: arguments) line.toList ∧
      (arguments ≠ [] →
        ofLine line = ⟨String.ofList program, arguments.map String.ofList⟩ ∧
        ∀ wider : String, Widened line.toList wider.toList → ofLine wider = ofLine line ∧
          ∀ (job : Project.Job) (fs : System),
            Shell.launch { job with line := wider } fs =
              Shell.launch { job with line := line } fs) ∧
      (arguments = [] →
        ofLine line = ⟨line, []⟩ ∧
        (∀ wider : String, Widened line.toList wider.toList →
          (ofLine wider = ofLine line ↔ wider = line)) ∧
        (line ≠ String.ofList program → '/' ∉ line.toList →
          ∀ (job : Project.Job) (fs : System) (names : List String) (n : Node), job.line = line →
            fs.find job.directory = .ok (names, n) →
              Shell.launch job fs = (.error .missing, fs))) := by
  obtain ⟨c, hmem, hc⟩ := List.all_eq_false.mp h
  obtain ⟨program, arguments, hwords⟩ :=
    List.exists_cons_of_ne_nil (words_ne_nil_of_mem hmem (by simpa using hc))
  refine ⟨program, arguments, words_eq_iff.mp hwords, fun hne => ?_, ?_⟩
  · obtain ⟨a, as, rfl⟩ := List.exists_cons_of_ne_nil hne
    have hline := ofLine_several hwords
    refine ⟨hline, fun wider hwider => ?_⟩
    have hsame : ofLine wider = ofLine line := by
      rw [hline, ofLine_several (hwider.words.trans hwords)]
    exact ⟨hsame, launch_congr hsame⟩
  · rintro rfl
    have hline := ofLine_single hwords
    refine ⟨hline, fun wider hwider => ?_, ?_⟩
    · rw [hline, ofLine_single (hwider.words.trans hwords)]
      simp
    · rintro hne hslash job fs names n rfl hdir
      obtain ⟨d, hd, hspace⟩ := exists_space_of_single hwords hne
      exact launch_of_space hdir (by rwa [hline]) hspace (by rwa [hline])

/-- A program behind white space is another one, which cannot be launched. -/
theorem ofLine_widened_single :
    ofLine "true" = ⟨"true", []⟩ ∧ ofLine " true" = ⟨" true", []⟩ ∧
      Shell.launch ⟨" true", "/", [], none⟩ ⟨.directory [], []⟩ =
        (.error .missing, ⟨.directory [], []⟩) := by
  obtain ⟨program, arguments, hspells, _, hsingle⟩ :=
    ofLine_widened (show isBlankString " true" = false by decide)
  obtain ⟨rfl, rfl⟩ : "true".toList = program ∧ [] = arguments := by
    rw [← List.cons_eq_cons, ← words_eq_iff.mpr hspells]
    decide
  obtain ⟨hline, _, hlaunch⟩ := hsingle rfl
  have hfind : System.find ⟨.directory [], []⟩ "/" = .ok ([], .directory []) := by
    have hpath : Place.path ⟨[], none⟩ = "/" := by decide
    exact hpath ▸ System.find_path rfl (by simp) (Node.get?_nil _) (by simp)
  exact ⟨by decide, hline, hlaunch (by decide) (by decide) _ _ _ _ rfl hfind⟩

/-- A program is named by a relative path that leads to something from a directory. -/
structure Moves (isThere : String → Bool) (directory : String) (c : Command) : Prop where
  relative : Path.isAbsolute c.program = false
  slash : '/' ∈ c.program.toList
  there : isThere (Path.join directory c.program) = true

/-- No white space comes into the name of a program, except behind it. -/
structure Portable (directory : String) (c : Command) : Prop where
  directory : ∀ d ∈ directory.toList, isSpace d = false
  program : ∀ d ∈ c.program.toList.head?, isSpace d = false

section

variable {isThere : String → Bool} {directory line : String}

private theorem resolve_of_not_moves (h : ¬ Moves isThere directory (ofLine line)) :
    resolve isThere directory line = line := by
  rw [resolve]
  split
  · rfl
  · rename_i hnot
    rw [Bool.or_eq_true, not_or] at hnot
    dsimp only
    split
    · rename_i hthere
      exact absurd ⟨by simpa using hnot.1, by simpa using hnot.2, hthere⟩ h
    · rfl

private theorem resolve_of_moves (h : Moves isThere directory (ofLine line)) :
    resolve isThere directory line =
      " ".intercalate (Path.join directory (ofLine line).program :: (ofLine line).arguments) := by
  rw [resolve]
  simp [h.relative, h.slash, h.there]

private theorem exists_word_of_slash (h : '/' ∈ (ofLine line).program.toList) :
    (∃ gap w back, (ofLine line).program.toList = gap ++ (w ++ back) ∧
      (∀ d ∈ gap, isSpace d = true) ∧ IsWord w ∧ (∀ d ∈ back, isSpace d = true) ∧
      ((ofLine line).arguments ≠ [] → gap = [] ∧ back = [])) ∧
    ∀ a ∈ (ofLine line).arguments, IsWord a.toList := by
  cases hwords : words line.toList with
  | nil =>
    have hline : ofLine line = ⟨line, []⟩ := by rw [ofLine, hwords]
    rw [hline] at h
    exact absurd hwords (words_ne_nil_of_mem h (by decide))
  | cons w ws =>
    cases ws with
    | nil =>
      obtain ⟨gap, back, hsplit, hgap, hw, _, hback⟩ := exists_first_word hwords
      rw [ofLine_single hwords]
      refine ⟨⟨gap, w, back, hsplit, hgap, hw, ?_, fun hne => absurd rfl hne⟩, by simp⟩
      exact blank_of_words hback
    | cons a as =>
      have hword : ∀ v ∈ w :: a :: as, IsWord v := fun v hv => isWord_of_mem (hwords ▸ hv)
      rw [ofLine_several hwords]
      refine ⟨⟨[], w, [], by simp, by simp, hword w List.mem_cons_self, by simp,
        fun _ => ⟨rfl, rfl⟩⟩, fun b hb => ?_⟩
      obtain ⟨v, hv, rfl⟩ := List.mem_map.mp hb
      rw [String.toList_ofList]
      exact hword v (List.mem_cons_of_mem w hv)

private theorem toList_join {p : String} (hdirectory : directory ≠ "")
    (hp : Path.isAbsolute p = false) :
    ∃ slash, (∀ d ∈ slash, isSpace d = false) ∧
      (Path.join directory p).toList = directory.toList ++ slash ++ p.toList := by
  rw [Path.join, hp, Bool.false_or, if_neg (by simpa using hdirectory)]
  split
  · exact ⟨[], by simp, by simp⟩
  · exact ⟨['/'], solid_of_all (by decide), by simp⟩

private theorem words_resolve (h : Moves isThere directory (ofLine line)) :
    words (resolve isThere directory line).toList =
      words (Path.join directory (ofLine line).program).toList ++
        (ofLine line).arguments.map String.toList := by
  rw [resolve_of_moves h, words_intercalate, List.flatMap_cons]
  congr 1
  have hwords := (exists_word_of_slash h.slash).2
  generalize (ofLine line).arguments = arguments at hwords
  induction arguments with
  | nil => rfl
  | cons a as ih =>
    rw [List.flatMap_cons, (hwords a List.mem_cons_self).words, List.map_cons,
      ih fun b hb => hwords b (List.mem_cons_of_mem a hb)]
    rfl

private theorem exists_path (habs : Path.isAbsolute directory = true)
    (h : Moves isThere directory (ofLine line)) :
    ∃ front w back, (Path.join directory (ofLine line).program).toList = front ++ w ++ back ∧
      IsWord w ∧ (∀ d ∈ back, isSpace d = true) ∧ ((ofLine line).arguments ≠ [] → back = []) ∧
      (∀ d ∈ front.head?, isSpace d = false) ∧
      (Portable directory (ofLine line) ↔ ∀ d ∈ front, isSpace d = false) := by
  obtain ⟨cs, hdirectory⟩ : ∃ cs, directory.toList = '/' :: cs := by
    rw [Path.isAbsolute, String.startsWith_char_eq_head?, beq_iff_eq] at habs
    exact List.head?_eq_some_iff.mp habs
  have hne : directory ≠ "" := by
    rintro rfl
    cases hdirectory
  obtain ⟨⟨gap, w, back, hprogram, hgap, hw, hback, hnil⟩, _⟩ := exists_word_of_slash h.slash
  obtain ⟨slash, hslash, hjoin⟩ := toList_join hne h.relative
  have hnogap : (∀ d ∈ (ofLine line).program.toList.head?, isSpace d = false) ↔ gap = [] :=
    hprogram ▸ hw.head_solid_iff hgap
  refine ⟨directory.toList ++ slash ++ gap, w, back, by simp [hjoin, hprogram], hw, hback,
    fun harguments => (hnil harguments).2, ?_, fun hportable d hd => ?_, fun hsolid => ?_⟩
  · have hroot : isSpace '/' = false := by decide
    simpa [hdirectory] using hroot
  · rw [hnogap.mp hportable.program, List.append_nil] at hd
    exact (List.mem_append.mp hd).elim (hportable.directory d) (hslash d)
  · refine ⟨fun d hd => hsolid d (by simp [hd]), hnogap.mpr ?_⟩
    refine List.eq_nil_iff_forall_not_mem.mpr fun d hd => ?_
    have hspace := hgap d hd
    rw [hsolid d (by simp [hd])] at hspace
    cases hspace

end

/-- A command is resolved in an absolute directory. If its program is not named by a relative path
to something there, it stays what it is. Otherwise its program becomes the path in the directory,
with the same arguments, exactly if no white space comes into this path: neither from the directory
nor from in front of a program alone on its line. Such white space cuts the path into several words,
of which the first one becomes the program and the others come before the arguments. -/
theorem ofLine_resolve (isThere : String → Bool) {directory : String}
    (habs : Path.isAbsolute directory = true) (line : String) :
    (¬ Moves isThere directory (ofLine line) →
      ofLine (resolve isThere directory line) = ofLine line) ∧
    (Moves isThere directory (ofLine line) →
      (Portable directory (ofLine line) → ofLine (resolve isThere directory line) =
        ⟨Path.join directory (ofLine line).program, (ofLine line).arguments⟩) ∧
      (¬ Portable directory (ofLine line) → ∃ first next more,
        words (Path.join directory (ofLine line).program).toList = first :: next :: more ∧
        ofLine (resolve isThere directory line) = ⟨String.ofList first,
          (next :: more).map String.ofList ++ (ofLine line).arguments⟩)) := by
  refine ⟨fun h => by rw [resolve_of_not_moves h], fun h => ?_⟩
  obtain ⟨front, w, back, hpath, hw, hback, hnil, hhead, hportable⟩ := exists_path habs h
  have hwords : words (Path.join directory (ofLine line).program).toList = words (front ++ w) := by
    rw [hpath, words_append_blank hback]
  have hresolve := words_resolve h
  rw [hwords] at hresolve
  rw [hportable]
  constructor
  · intro hsolid
    rw [(hw.behind hsolid).words] at hresolve
    cases harguments : (ofLine line).arguments with
    | nil =>
      rw [harguments] at hresolve
      rw [ofLine_single hresolve, resolve_of_moves h, harguments]
      simp
    | cons a as =>
      obtain rfl := hnil (by simp [harguments])
      rw [harguments] at hresolve
      rw [ofLine_several hresolve, ← List.append_nil (front ++ w), ← hpath]
      simp [Function.comp_def]
  · intro hcut
    obtain ⟨d, hmem, hd⟩ : ∃ d ∈ front, isSpace d = true := by simpa using hcut
    obtain ⟨v, u, us, hseveral⟩ := exists_words_behind hw hhead hmem hd
    rw [hseveral] at hresolve
    refine ⟨v, u, us, hwords.trans hseveral, ?_⟩
    rw [ofLine_several hresolve]
    simp [Function.comp_def]

/-- A blank in the name of the directory or in front of the program comes between two words. -/
theorem ofLine_resolve_blanks :
    ofLine (resolve (fun _ => true) "/work" "tools/check  -q") = ⟨"/work/tools/check", ["-q"]⟩ ∧
    ofLine (resolve (fun _ => true) "/my work" "tools/check  -q") =
      ⟨"/my", ["work/tools/check", "-q"]⟩ ∧
    ofLine (resolve (fun _ => true) "/work" " tools/check") = ⟨"/work/", ["tools/check"]⟩ := by
  have hseveral : ofLine "tools/check  -q" = ⟨"tools/check", ["-q"]⟩ := by decide +kernel
  have hsingle : ofLine " tools/check" = ⟨" tools/check", []⟩ := by decide +kernel
  have hmoves : ∀ directory, Moves (fun _ => true) directory (ofLine "tools/check  -q") := by
    rw [hseveral]
    exact fun directory => ⟨by decide, by decide, rfl⟩
  refine ⟨?_, ?_, ?_⟩
  · have hportable : Portable "/work" (ofLine "tools/check  -q") := by
      rw [hseveral]
      refine ⟨solid_of_all (by decide), fun d hd => ?_⟩
      obtain rfl : 't' = d := Option.some.inj hd
      decide
    have hline := ((ofLine_resolve (fun _ => true) (by decide) "tools/check  -q").2
      (hmoves "/work")).1 hportable
    rw [hline, hseveral]
    decide
  · have hspace : ¬ Portable "/my work" (ofLine "tools/check  -q") :=
      fun h => absurd (h.directory ' ' (by decide)) (by decide)
    obtain ⟨first, next, more, hwords, hline⟩ :=
      ((ofLine_resolve (fun _ => true) (by decide) "tools/check  -q").2 (hmoves "/my work")).2
        hspace
    have hpath : words (Path.join "/my work" "tools/check").toList =
        ["/my".toList, "work/tools/check".toList] := by decide +kernel
    rw [hseveral, hpath] at hwords
    cases hwords
    rw [hline, hseveral]
    decide
  · have hmoves : Moves (fun _ => true) "/work" (ofLine " tools/check") := by
      rw [hsingle]
      exact ⟨by decide, by decide, rfl⟩
    have hspace : ¬ Portable "/work" (ofLine " tools/check") := by
      rw [hsingle]
      exact fun h => absurd (h.program ' ' (by decide)) (by decide)
    obtain ⟨first, next, more, hwords, hline⟩ :=
      ((ofLine_resolve (fun _ => true) (by decide) " tools/check").2 hmoves).2 hspace
    have hpath : words (Path.join "/work" " tools/check").toList =
        ["/work/".toList, "tools/check".toList] := by decide +kernel
    rw [hsingle, hpath] at hwords
    cases hwords
    rw [hline, hsingle]
    decide

end RepairSearch.Command
