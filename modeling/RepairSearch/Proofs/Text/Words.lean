import Mathlib.Data.List.TakeWhile
import RepairSearch.Text.Space

/-!
# Words

The words of a text are what stands between its white space. White space splits a text into two
with words of their own, so more of it at the ends of a text, or where some is already, makes no
difference.
-/

namespace RepairSearch

/-- Something without white space. -/
structure IsWord (w : List Char) : Prop where
  ne_nil : w ≠ []
  solid : ∀ c ∈ w, isSpace c = false

theorem solid_of_all {cs : List Char} (h : (cs.all fun c => !isSpace c) = true) :
    ∀ c ∈ cs, isSpace c = false := by
  simpa using h

-- The equations that Lean derives for `words` take long, since it looks into `isSpace` for them.

theorem words_nil : words [] = [] := rfl

private theorem words_singleton (c : Char) : words [c] = if isSpace c then [] else [[c]] := by
  exact rfl

private theorem words_cons_cons (c d : Char) (ds : List Char) :
    words (c :: d :: ds) =
      if isSpace c then words (d :: ds)
      else if isSpace d then [c] :: words ds
      else
        match words (d :: ds) with
        | [] => [[c]]
        | w :: ws => (c :: w) :: ws := by
  exact rfl

private theorem words_space {c : Char} (hc : isSpace c = true) (cs : List Char) :
    words (c :: cs) = words cs := by
  cases cs with
  | nil => rw [words_singleton, if_pos hc, words_nil]
  | cons d ds => rw [words_cons_cons, if_pos hc]

private theorem words_cons_ne_nil {c : Char} (hc : isSpace c = false) (cs : List Char) :
    words (c :: cs) ≠ [] := by
  cases cs with
  | nil => simp [words_singleton, hc]
  | cons d ds =>
    rw [words_cons_cons, if_neg (by simp [hc])]
    split
    · simp
    · split <;> simp

private theorem words_append_space {c : Char} (hc : isSpace c = true) (front back : List Char) :
    words (front ++ c :: back) = words front ++ words back := by
  induction front with
  | nil => rw [List.nil_append, words_space hc, words_nil, List.nil_append]
  | cons d front ih =>
    cases hd : isSpace d with
    | true => rw [List.cons_append, words_space hd, words_space hd, ih]
    | false =>
      cases front with
      | nil => simp [words_cons_cons, words_singleton, hd, hc]
      | cons e es =>
        rw [List.cons_append, List.cons_append, words_cons_cons, words_cons_cons,
          ← List.cons_append, ih]
        cases he : isSpace e with
        | true =>
          -- behind white space the words are those of the rest
          rw [List.cons_append, words_space he, words_space he] at ih
          simp [hd, ih]
        | false =>
          obtain ⟨w, ws, hw⟩ := List.exists_cons_of_ne_nil (words_cons_ne_nil he es)
          simp [hd, hw]

private theorem words_blank {cs : List Char} (h : ∀ c ∈ cs, isSpace c = true) : words cs = [] := by
  induction cs with
  | nil => rfl
  | cons c cs ih =>
    rw [words_space (h c List.mem_cons_self)]
    exact ih fun d hd => h d (List.mem_cons_of_mem c hd)

theorem words_append_blank {front back : List Char} (h : ∀ c ∈ back, isSpace c = true) :
    words (front ++ back) = words front := by
  cases back with
  | nil => rw [List.append_nil]
  | cons c back =>
    rw [words_append_space (h c List.mem_cons_self),
      words_blank fun d hd => h d (List.mem_cons_of_mem c hd), List.append_nil]

private theorem words_blank_append {front back : List Char} (h : ∀ c ∈ front, isSpace c = true) :
    words (front ++ back) = words back := by
  induction front with
  | nil => rfl
  | cons c front ih =>
    rw [List.cons_append, words_space (h c List.mem_cons_self)]
    exact ih fun d hd => h d (List.mem_cons_of_mem c hd)

theorem IsWord.words {w : List Char} (h : IsWord w) : words w = [w] := by
  obtain ⟨hne, hsolid⟩ := h
  induction w with
  | nil => exact absurd rfl hne
  | cons c cs ih =>
    have hc := hsolid c List.mem_cons_self
    cases cs with
    | nil => simp [words_singleton, hc]
    | cons d ds =>
      have hd := hsolid d (List.mem_cons_of_mem c List.mem_cons_self)
      have hrest := ih (by simp) fun e he => hsolid e (List.mem_cons_of_mem c he)
      simp [words_cons_cons, hc, hd, hrest]

theorem words_ne_nil_of_mem {cs : List Char} {c : Char} (hmem : c ∈ cs) (hc : isSpace c = false) :
    words cs ≠ [] := by
  induction cs with
  | nil => cases hmem
  | cons d cs ih =>
    cases hd : isSpace d with
    | false => exact words_cons_ne_nil hd cs
    | true =>
      rw [words_space hd]
      refine ih ((List.mem_cons.mp hmem).resolve_left ?_)
      rintro rfl
      rw [hc] at hd
      cases hd

theorem blank_of_words {cs : List Char} (h : words cs = []) : ∀ c ∈ cs, isSpace c = true := by
  intro c hmem
  by_contra hc
  exact words_ne_nil_of_mem hmem (Bool.eq_false_iff.mpr hc) h

private theorem words_word_append {w rest : List Char} (hw : IsWord w)
    (hrest : ∀ c ∈ rest.head?, isSpace c = true) : words (w ++ rest) = w :: words rest := by
  cases rest with
  | nil => rw [List.append_nil, hw.words, words_nil]
  | cons c rest =>
    have hc := hrest c rfl
    rw [words_append_space hc, hw.words, words_space hc, List.singleton_append]

private theorem exists_span (p : Char → Bool) (cs : List Char) :
    ∃ front rest, cs = front ++ rest ∧ (∀ c ∈ front, p c = true) ∧
      ∀ c ∈ rest.head?, p c = false := by
  refine ⟨cs.takeWhile p, cs.dropWhile p, List.takeWhile_append_dropWhile.symm,
    fun c => List.mem_takeWhile_imp, fun c hc => ?_⟩
  have hhead := List.head?_dropWhile_not p cs
  rw [Option.mem_def.mp hc] at hhead
  simpa using hhead

/-- A text with a word begins with white space and its first word. -/
theorem exists_first_word {cs w : List Char} {ws : List (List Char)} (h : words cs = w :: ws) :
    ∃ gap rest, cs = gap ++ (w ++ rest) ∧ (∀ c ∈ gap, isSpace c = true) ∧ IsWord w ∧
      (∀ c ∈ rest.head?, isSpace c = true) ∧ words rest = ws := by
  obtain ⟨gap, seen, rfl, hgap, hseen⟩ := exists_span isSpace cs
  obtain ⟨v, rest, rfl, hv, hrest⟩ := exists_span (!isSpace ·) seen
  rw [words_blank_append hgap] at h
  have hword : IsWord v := by
    refine ⟨?_, fun c hc => by simpa using hv c hc⟩
    -- nothing would be left to be a word
    rintro rfl
    cases rest with
    | nil => cases h
    | cons c rest => simpa [hseen c rfl] using hrest c rfl
  have hrest' : ∀ c ∈ rest.head?, isSpace c = true := fun c hc => by simpa using hrest c hc
  rw [words_word_append hword hrest'] at h
  obtain ⟨rfl, rfl⟩ := List.cons_eq_cons.mp h
  exact ⟨gap, rest, rfl, hgap, hword, hrest', rfl⟩

theorem isWord_of_mem {cs w : List Char} (h : w ∈ words cs) : IsWord w := by
  generalize hws : words cs = ws at h
  induction ws generalizing cs with
  | nil => cases h
  | cons v ws ih =>
    obtain ⟨_, rest, _, _, hv, _, hrest⟩ := exists_first_word hws
    rcases List.mem_cons.mp h with rfl | h
    · exact hv
    · exact ih hrest h

/-- A text as words with white space around and between them. -/
inductive Spells : List (List Char) → List Char → Prop
  | blank {gap : List Char} (space : ∀ c ∈ gap, isSpace c = true) : Spells [] gap
  | word {gap w rest : List Char} {ws : List (List Char)} (space : ∀ c ∈ gap, isSpace c = true)
      (solid : IsWord w) (stop : ∀ c ∈ rest.head?, isSpace c = true) (more : Spells ws rest) :
      Spells (w :: ws) (gap ++ (w ++ rest))

theorem words_eq_iff {cs : List Char} {ws : List (List Char)} :
    words cs = ws ↔ Spells ws cs := by
  constructor
  · intro h
    induction ws generalizing cs with
    | nil => exact .blank (blank_of_words h)
    | cons w ws ih =>
      obtain ⟨gap, rest, rfl, hgap, hw, hrest, hws⟩ := exists_first_word h
      exact .word hgap hw hrest (ih hws)
  · intro h
    induction h with
    | blank space => exact words_blank space
    | word space solid stop _ ih => rw [words_blank_append space, words_word_append solid stop, ih]

theorem IsWord.behind {front w : List Char} (hw : IsWord w)
    (h : ∀ c ∈ front, isSpace c = false) : IsWord (front ++ w) :=
  ⟨by simp [hw.ne_nil], fun c hc => (List.mem_append.mp hc).elim (h c) (hw.solid c)⟩

/-- A text with a word begins without white space if there is none in front of the word. -/
theorem IsWord.head_solid_iff {gap w back : List Char} (hw : IsWord w)
    (hgap : ∀ c ∈ gap, isSpace c = true) :
    (∀ c ∈ (gap ++ (w ++ back)).head?, isSpace c = false) ↔ gap = [] := by
  cases gap with
  | nil =>
    obtain ⟨c, cs, rfl⟩ := List.exists_cons_of_ne_nil hw.ne_nil
    simpa using hw.solid c List.mem_cons_self
  | cons c gap => simp [hgap c List.mem_cons_self]

/-- White space in front of a word, but not at the beginning, makes it one of several. -/
theorem exists_words_behind {front w : List Char} {c : Char} (hw : IsWord w)
    (hhead : ∀ d ∈ front.head?, isSpace d = false) (hmem : c ∈ front) (hc : isSpace c = true) :
    ∃ v u us, words (front ++ w) = v :: u :: us := by
  obtain ⟨before, behind, rfl⟩ := List.append_of_mem hmem
  obtain ⟨d, ds, rfl⟩ : ∃ d ds, before = d :: ds := by
    refine List.exists_cons_of_ne_nil ?_
    rintro rfl
    simp [hhead c rfl] at hc
  obtain ⟨e, es, rfl⟩ := List.exists_cons_of_ne_nil hw.ne_nil
  obtain ⟨v, vs, hv⟩ := List.exists_cons_of_ne_nil (words_cons_ne_nil (hhead d rfl) ds)
  obtain ⟨u, us, hu⟩ := List.exists_cons_of_ne_nil (words_ne_nil_of_mem
    (List.mem_append_right behind List.mem_cons_self) (hw.solid e List.mem_cons_self))
  have hsplit := words_append_space hc (d :: ds) (behind ++ e :: es)
  rw [hv, hu, ← List.cons_append, ← List.append_assoc] at hsplit
  cases vs with
  | nil => exact ⟨v, u, us, hsplit⟩
  | cons v' vs => exact ⟨v, v', _, hsplit⟩

/-- A text with more white space, at its ends or where some is. -/
inductive Widened (cs : List Char) : List Char → Prop
  | same : Widened cs cs
  | insert {front back : List Char} {c : Char} (h : Widened cs (front ++ back))
      (space : isSpace c = true)
      (place : front = [] ∨ back = [] ∨ (∃ d ∈ front.getLast?, isSpace d = true) ∨
        ∃ d ∈ back.head?, isSpace d = true) :
      Widened cs (front ++ c :: back)

private theorem words_append_of_place {front back : List Char}
    (place : front = [] ∨ back = [] ∨ (∃ d ∈ front.getLast?, isSpace d = true) ∨
      ∃ d ∈ back.head?, isSpace d = true) :
    words (front ++ back) = words front ++ words back := by
  rcases place with rfl | rfl | ⟨d, hd, hspace⟩ | ⟨d, hd, hspace⟩
  · rfl
  · rw [List.append_nil, words_nil, List.append_nil]
  · obtain ⟨front, rfl⟩ := List.getLast?_eq_some_iff.mp hd
    rw [List.append_assoc, List.singleton_append, words_append_space hspace,
      words_append_blank (by simpa using hspace)]
  · obtain ⟨back, rfl⟩ := List.head?_eq_some_iff.mp hd
    rw [words_append_space hspace, words_space hspace]

/-- More white space leaves the words as they are. -/
theorem Widened.words {cs cs' : List Char} (h : Widened cs cs') : words cs' = words cs := by
  induction h with
  | same => rfl
  | insert _ space place ih => rw [words_append_space space, ← words_append_of_place place, ih]

/-- The words of texts that are put together with blanks between them. -/
theorem words_intercalate (ss : List String) :
    words (" ".intercalate ss).toList = ss.flatMap fun s => words s.toList := by
  induction ss with
  | nil => decide
  | cons s ss ih =>
    cases ss with
    | nil => simp
    | cons t ss =>
      have hblank : isSpace ' ' = true := by decide
      rw [String.intercalate_cons_cons, String.toList_append, String.toList_append,
        List.append_assoc, List.flatMap_cons, ← ih]
      exact words_append_space hblank _ _

end RepairSearch
