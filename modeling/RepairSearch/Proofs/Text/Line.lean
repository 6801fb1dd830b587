import RepairSearch.Proofs.Text.Encoding
import RepairSearch.Text.Line

/-!
# Slices, lines and white space

Where lines start and end, and how white space lies against texts that neither start nor end with
it: such a text never reaches into white space from outside.
-/

namespace RepairSearch.Text

private theorem slice_prefix (t : Text) (i j : Nat) :
    t.slice i j <+: t.drop i := List.take_prefix _ _

theorem slice_length {t : Text} {i j : Nat} (hj : j ≤ t.length) : (t.slice i j).length = j - i := by
  simp only [slice, List.length_take, List.length_drop]
  omega

theorem slice_append {t : Text} {i j k : Nat} (hij : i ≤ j) (hjk : j ≤ k) :
    t.slice i j ++ t.slice j k = t.slice i k := by
  have hj : t.drop j = (t.drop i).drop (j - i) := by
    rw [List.drop_drop]
    congr 1
    omega
  have hk : k - i = j - i + (k - j) := by omega
  rw [slice, slice, slice, hj, hk, List.take_add]

theorem take_append_slice {t : Text} {i j : Nat} (h : i ≤ j) : t.take i ++ t.slice i j = t.take j :=
     by
  have hsplit := slice_append (t := t) (Nat.zero_le i) h
  simpa [slice] using hsplit

theorem slice_append_drop {t : Text} {i j : Nat} (h : i ≤ j) : t.slice i j ++ t.drop j = t.drop i :=
     by
  obtain ⟨n, rfl⟩ := Nat.exists_eq_add_of_le h
  rw [slice, Nat.add_sub_cancel_left, ← List.drop_drop, List.take_append_drop]

theorem slice_slice {t : Text} {i j k l : Nat} (h : i + l ≤ j) :
    (t.slice i j).slice k l = t.slice (i + k) (i + l) := by
  rw [slice, slice, slice, List.drop_take, List.drop_drop, List.take_take]
  congr 1
  omega

@[simp] theorem slice_self (t : Text) (i : Nat) : t.slice i i = [] := by
  simp [slice]

theorem slice_one {t : Text} {i : Nat} {b : UInt8} (h : t[i]? = some b) :
    t.slice i (i + 1) = [b] := by
  obtain ⟨hi, rfl⟩ := List.getElem?_eq_some_iff.mp h
  rw [slice, List.drop_eq_getElem_cons hi, Nat.add_sub_cancel_left]
  rfl

theorem lineStart_le (t : Text) (offset : Nat) : t.lineStart offset ≤ offset := Nat.sub_le _ _

theorem le_lineEnd (t : Text) (offset : Nat) : offset ≤ t.lineEnd offset := Nat.le_add_right _ _

theorem lineEnd_le {t : Text} {offset : Nat} (h : offset ≤ t.length) :
    t.lineEnd offset ≤ t.length := by
  have hrun := (List.takeWhile_prefix (· != newline) (l := t.drop offset)).length_le
  rw [List.length_drop] at hrun
  rw [lineEnd]
  omega

theorem mem_indentAt {t : Text} {offset : Nat} {b : UInt8} (h : b ∈ t.indentAt offset) :
    b = 32 ∨ b = 9 := by
  have hblank := List.all_eq_true.mp List.all_takeWhile b h
  simpa only [Bool.or_eq_true, beq_iff_eq] using hblank

private theorem getElem?_takeWhile_length {l : Text} {p : UInt8 → Bool}
    (h : (l.takeWhile p).length < l.length) :
    ∃ b, l[(l.takeWhile p).length]? = some b ∧ p b = false := by
  induction l with
  | nil => simp at h
  | cons a l ih =>
    by_cases ha : p a
    · rw [List.takeWhile_cons_of_pos ha] at h ⊢
      obtain ⟨b, hb, hpb⟩ := ih (by simpa using h)
      exact ⟨b, by simpa using hb, hpb⟩
    · rw [List.takeWhile_cons_of_neg ha]
      exact ⟨a, by simp, by simpa using ha⟩

theorem slice_lineStart {t : Text} {offset : Nat} (ho : offset ≤ t.length)
    (hpos : 0 < t.lineStart offset) :
    t.slice (t.lineStart offset - 1) (t.lineStart offset) = [newline] := by
  have hcol : t.columnAt offset < offset := Nat.lt_of_sub_pos hpos
  have hlen : (t.take offset).length = offset := by
    rw [List.length_take]
    omega
  obtain ⟨b, hb, hnl⟩ := getElem?_takeWhile_length (l := (t.take offset).reverse)
    (p := (· != newline)) (by rw [List.length_reverse, hlen]; exact hcol)
  rw [List.getElem?_reverse (by rw [hlen]; exact hcol), hlen,
    List.getElem?_take_of_lt (by omega)] at hb
  have hnl : b = newline := by simpa using hnl
  subst b
  have h := slice_one hb
  have hidx : offset - 1 - ((t.take offset).reverse.takeWhile (· != newline)).length =
      t.lineStart offset - 1 := by
    change offset - 1 - t.columnAt offset = offset - t.columnAt offset - 1
    omega
  rw [hidx] at h
  rwa [Nat.sub_add_cancel hpos] at h

theorem slice_lineEnd {t : Text} {offset : Nat} (hend : t.lineEnd offset < t.length) :
    t.slice (t.lineEnd offset) (t.lineEnd offset + 1) = [newline] := by
  have hlt : ((t.drop offset).takeWhile (· != newline)).length < (t.drop offset).length := by
    rw [lineEnd] at hend
    rw [List.length_drop]
    omega
  obtain ⟨b, hb, hnl⟩ := getElem?_takeWhile_length hlt
  have hnl : b = newline := by simpa using hnl
  subst b
  rw [List.getElem?_drop] at hb
  exact slice_one hb

theorem trimmedEnd_le (t : Text) (start stop : Nat) : t.trimmedEnd start stop ≤ stop :=
  Nat.sub_le _ _

private theorem blanks_le (t : Text) (start stop : Nat) :
    ((t.slice start stop).reverse.takeWhile isBlank).length ≤ stop - start := by
  have h := (List.takeWhile_prefix isBlank (l := (t.slice start stop).reverse)).length_le
  have hlen : (t.slice start stop).length ≤ stop - start := List.length_take_le _ _
  rw [List.length_reverse] at h
  exact Nat.le_trans h hlen

theorem le_trimmedEnd (t : Text) {start stop : Nat} (h : start ≤ stop) :
    start ≤ t.trimmedEnd start stop := by
  have hb := blanks_le t start stop
  rw [trimmedEnd]
  omega

/-- Whether a text ends with a blank. -/
def endsBlank (t : Text) : Bool := t.getLast?.any isBlank

theorem trimmedEnd_eq_stop_iff {t : Text} {start stop : Nat} (h : start < stop) :
    t.trimmedEnd start stop = stop ↔ (t.slice start stop).endsBlank = false := by
  have hb := blanks_le t start stop
  have hiff : t.trimmedEnd start stop = stop ↔
      ((t.slice start stop).reverse.takeWhile isBlank).length = 0 := by
    rw [trimmedEnd]
    omega
  rw [hiff, List.length_eq_zero_iff, endsBlank, ← List.head?_reverse]
  cases (t.slice start stop).reverse with
  | nil => simp
  | cons b bs => by_cases hb : isBlank b <;> simp [hb]

theorem slice_trimmedEnd {t : Text} {start stop : Nat} (h : start ≤ stop)
    (hstop : stop ≤ t.length) : ∀ b ∈ t.slice (t.trimmedEnd start stop) stop, isBlank b = true := by
  have hb := blanks_le t start stop
  have hsplit := slice_append (t := t) (le_trimmedEnd t h) (trimmedEnd_le t start stop)
  have hlen : (t.slice (t.trimmedEnd start stop) stop).length =
      ((t.slice start stop).reverse.takeWhile isBlank).length := by
    rw [slice_length hstop, trimmedEnd]
    omega
  have hrev : (t.slice (t.trimmedEnd start stop) stop).reverse =
      (t.slice start stop).reverse.takeWhile isBlank := by
    have hpre := List.takeWhile_prefix isBlank (l := (t.slice start stop).reverse)
    have hpre' :
        (t.slice (t.trimmedEnd start stop) stop).reverse <+: (t.slice start stop).reverse := by
      rw [← hsplit, List.reverse_append]
      exact List.prefix_append _ _
    have hrun := List.prefix_of_prefix_length_le hpre' hpre (by simp [hlen])
    exact hrun.eq_of_length (by simp [hlen])
  intro b hmem
  have hall := List.all_takeWhile (l := (t.slice start stop).reverse) (p := isBlank)
  rw [← hrev] at hall
  exact List.all_eq_true.mp hall b (List.mem_reverse.mpr hmem)

/-- A text of white space characters only. -/
def White (t : Text) : Prop := ∃ cs : List Char, (∀ c ∈ cs, isSpace c = true) ∧ t = ofChars cs

theorem White.nil : White [] := ⟨[], by simp, rfl⟩

theorem White.newline : White [newline] := by
  refine ⟨['\n'], ?_, rfl⟩
  intro c hc
  rw [List.mem_singleton.mp hc]
  rfl

theorem White.append {t u : Text} (ht : White t) (hu : White u) : White (t ++ u) := by
  obtain ⟨cs, hcs, rfl⟩ := ht
  obtain ⟨ds, hds, rfl⟩ := hu
  refine ⟨cs ++ ds, ?_, (ofChars_append cs ds).symm⟩
  intro c hc
  rcases List.mem_append.mp hc with h | h
  · exact hcs c h
  · exact hds c h

theorem white_of_isWhite {t : Text} (h : t.isWhite = true) : White t := by
  rw [isWhite] at h
  split at h
  · rename_i s hs
    exact ⟨s.toList, by simpa [isBlankString] using h, eq_ofChars_of_toString? hs⟩
  · simp at h

/-- A text of characters that neither starts nor ends with white space. -/
def isSolid (t : Text) : Bool :=
  match t.toString? with
  | some s => !s.toList.head?.any isSpace && !s.toList.getLast?.any isSpace
  | none => false

private theorem chars_of_isSolid {t : Text} (h : t.isSolid = true) :
    ∃ cs, t = ofChars cs ∧ (∀ c, cs.head? = some c → isSpace c = false) ∧
      ∀ c, cs.getLast? = some c → isSpace c = false := by
  rw [isSolid] at h
  split at h
  · rename_i s hs
    simp only [Bool.and_eq_true, Bool.not_eq_true'] at h
    refine ⟨s.toList, eq_ofChars_of_toString? hs, ?_, ?_⟩
    · intro c hc
      simpa [hc] using h.1
    · intro c hc
      simpa [hc] using h.2
  · simp at h

/-- A solid range that starts no earlier than white space starts after it. -/
theorem white_le_solid {t : Text} {i j k l : Nat} (hsolid : (t.slice k l).isSolid = true)
    (hkl : k < l) (hl : l ≤ t.length) (hj : j ≤ t.length) (hik : i ≤ k)
    (hwhite : White (t.slice i j)) : j ≤ k := by
  obtain ⟨cs, hcs, hhead, _⟩ := chars_of_isSolid hsolid
  obtain ⟨ws, hws, hw⟩ := hwhite
  have hxpre := hcs ▸ slice_prefix t k l
  have hwpre := hw ▸ slice_prefix t i j
  have hxlen : (ofChars cs).length = l - k := by rw [← hcs]; exact slice_length hl
  have hwlen : (ofChars ws).length = j - i := by rw [← hw]; exact slice_length hj
  apply Nat.le_of_not_lt
  intro hkj
  cases cs with
  | nil =>
    simp only [ofChars_nil, List.length_nil] at hxlen
    omega
  | cons c cs =>
    have hmem := head_mem_of_overlap hxpre hwpre hik (by omega)
    have hfalse := hhead c rfl
    rw [hws c hmem] at hfalse
    exact absurd hfalse (by decide)

/-- A solid range that ends no later than white space ends before it. -/
theorem solid_le_white {t : Text} {i j k l : Nat} (hsolid : (t.slice k l).isSolid = true)
    (hkl : k < l) (hl : l ≤ j) (hj : j ≤ t.length) (hwhite : White (t.slice i j)) : l ≤ i := by
  rcases Nat.lt_or_ge k i with hki | hik
  · obtain ⟨cs, hcs, _, hlast⟩ := chars_of_isSolid hsolid
    obtain ⟨ws, hws, hw⟩ := hwhite
    have hxpre := hcs ▸ slice_prefix t k l
    have hwpre := hw ▸ slice_prefix t i j
    have hxlen : (ofChars cs).length = l - k := by rw [← hcs]; exact slice_length (by omega)
    have hwlen : (ofChars ws).length = j - i := by rw [← hw]; exact slice_length hj
    apply Nat.le_of_not_lt
    intro hil
    obtain ⟨d, hd, hmem⟩ := last_mem_of_overlap hxpre hwpre (by omega) (by omega) (by omega)
    have hfalse := hlast d hd
    rw [hws d hmem] at hfalse
    exact absurd hfalse (by decide)
  · -- it would start in the white space
    have hjk := white_le_solid hsolid hkl (Nat.le_trans hl hj) hj hik hwhite
    omega

end RepairSearch.Text
