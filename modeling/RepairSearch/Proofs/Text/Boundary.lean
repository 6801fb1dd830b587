import RepairSearch.Proofs.Text.Encoding
import RepairSearch.Proofs.Text.Line

/-!
# Boundaries of characters

An offset of an encoded text stands between two characters unless the byte at it belongs to the
character before. Cutting an encoded text at such an offset gives two encoded texts. Line breaks and
blanks are characters of one byte, so lines start and end at boundaries.
-/

namespace RepairSearch.Text

/-- A text that encodes characters. -/
def Encoded (t : Text) : Prop := ∃ cs, t = ofChars cs

/-- Whether an offset stands at an end of the text or before the first byte of a character. -/
def isBoundary (t : Text) (i : Nat) : Bool :=
  i == 0 || i == t.length || (t[i]?).any (!isTail ·)

private theorem toList_loop (bs : ByteArray) (i : Nat) (r : List UInt8) :
    ByteArray.toList.loop bs i r = r.reverse ++ bs.data.toList.drop i := by
  fun_induction ByteArray.toList.loop bs i r with
  | case1 i r hlt ih =>
    have hi : i < bs.data.toList.length := by simpa using hlt
    have hget : bs.get! i = bs.data.toList[i] := getElem!_pos bs.data i (by simpa using hi)
    rw [ih, hget, List.drop_eq_getElem_cons hi, List.reverse_cons, List.append_assoc]
    rfl
  | case2 i r hge =>
    have hi : bs.data.toList.length ≤ i := by simpa using hge
    rw [List.drop_eq_nil_of_le hi, List.append_nil]

theorem ofString_eq_ofChars (s : String) : ofString s = ofChars s.toList := by
  have h : s.toList.utf8Encode = s.toUTF8 := String.utf8Encode_toList
  rw [ofString, ← h, ByteArray.toList, toList_loop, List.reverse_nil, List.nil_append,
    List.drop_zero, List.utf8Encode, List.toList_data_toByteArray, ofChars]

theorem toString?_ofString (s : String) : (ofString s).toString? = some s := by
  rw [ofString_eq_ofChars, toString?_ofChars]

theorem toString_ofString (s : String) : (ofString s).toString = s :=
  toString_of_toString? (toString?_ofString s)

theorem encoded_ofString (s : String) : (ofString s).Encoded := ⟨s.toList, ofString_eq_ofChars s⟩

namespace Encoded

theorem nil : Encoded [] := ⟨[], rfl⟩

theorem append {t u : Text} (ht : t.Encoded) (hu : u.Encoded) : (t ++ u).Encoded := by
  obtain ⟨cs, rfl⟩ := ht
  obtain ⟨ds, rfl⟩ := hu
  exact ⟨cs ++ ds, (ofChars_append cs ds).symm⟩

/-- What follows encoded characters in an encoded text is encoded. -/
theorem of_append {t u : Text} (h : (t ++ u).Encoded) (ht : t.Encoded) : u.Encoded := by
  obtain ⟨cs, rfl⟩ := ht
  obtain ⟨ds, hds⟩ := h
  obtain ⟨es, rfl⟩ := ofChars_prefix hds.symm
  rw [ofChars_append] at hds
  exact ⟨es, List.append_cancel_left hds⟩

private theorem cut {p q : Text} {b : UInt8} (h : (p ++ b :: q).Encoded) (hb : isTail b = false) :
    p.Encoded ∧ Encoded (b :: q) := by
  obtain ⟨cs, hcs⟩ := h
  have hmem : b ∈ ofChars cs := by rw [← hcs]; simp
  obtain ⟨as, bs, _, rfl, hbs⟩ := ofChars_cut hcs.symm (isFirst_of_not_isTail hmem hb)
  exact ⟨⟨as, rfl⟩, bs, hbs⟩

theorem ascii {b : UInt8} (hb : b < 0x80) : Encoded [b] := ⟨_, (ofChars_ascii hb).symm⟩

private theorem of_ascii {t : Text} (h : ∀ b ∈ t, b < 0x80) : t.Encoded := by
  induction t with
  | nil => exact .nil
  | cons b t ih =>
    exact (ascii (h b List.mem_cons_self)).append (ih fun c hc => h c (List.mem_cons_of_mem b hc))

theorem newline : Encoded [Text.newline] := ascii (by decide)

end Encoded

private theorem isTail_of_ascii {b : UInt8} (hb : b < 0x80) : isTail b = false := by
  rw [isTail, Bool.and_eq_false_iff, decide_eq_false_iff_not]
  exact .inl (UInt8.not_le.mpr hb)

theorem isBoundary_zero (t : Text) : t.isBoundary 0 = true := rfl

theorem isBoundary_length (t : Text) : t.isBoundary t.length = true := by
  simp [isBoundary]

private theorem isBoundary_of_byte {t : Text} {i : Nat} {b : UInt8} (h : t[i]? = some b)
    (hb : isTail b = false) : t.isBoundary i = true := by
  simp [isBoundary, h, hb]

private theorem isBoundary_cases {t : Text} {i : Nat} (h : t.isBoundary i = true) :
    i = 0 ∨ i = t.length ∨ ∃ b, t[i]? = some b ∧ isTail b = false := by
  rw [isBoundary, Bool.or_eq_true, Bool.or_eq_true, beq_iff_eq, beq_iff_eq, or_assoc] at h
  refine h.imp_right (·.imp_right fun h => ?_)
  cases hb : t[i]? with
  | none => simp [hb] at h
  | some b => exact ⟨b, rfl, by simpa [hb] using h⟩

theorem isBoundary_iff {t : Text} (ht : t.Encoded) {i : Nat} :
    t.isBoundary i = true ↔ i ≤ t.length ∧ Encoded (t.take i) := by
  constructor
  · intro h
    rcases isBoundary_cases h with rfl | rfl | ⟨b, hb, htail⟩
    · exact ⟨Nat.zero_le _, .nil⟩
    · exact ⟨Nat.le_refl _, by rwa [List.take_length]⟩
    · obtain ⟨hi, rfl⟩ := List.getElem?_eq_some_iff.mp hb
      rw [← List.take_append_drop i t, List.drop_eq_getElem_cons hi] at ht
      exact ⟨Nat.le_of_lt hi, (ht.cut htail).1⟩
  · rintro ⟨hle, henc⟩
    rcases Nat.lt_or_eq_of_le hle with hi | rfl
    · have hdrop : Encoded (t.drop i) := Encoded.of_append (by rwa [List.take_append_drop]) henc
      rw [List.drop_eq_getElem_cons hi] at hdrop
      obtain ⟨cs, hcs⟩ := hdrop
      exact isBoundary_of_byte (List.getElem?_eq_getElem hi) (isTail_head hcs.symm)
    · exact isBoundary_length t

section

variable {t : Text} {i j : Nat}

theorem le_length_of_isBoundary (h : t.isBoundary i = true) : i ≤ t.length := by
  rcases isBoundary_cases h with rfl | rfl | ⟨b, hb, _⟩
  · exact Nat.zero_le _
  · exact Nat.le_refl _
  · exact Nat.le_of_lt (List.getElem?_eq_some_iff.mp hb).1

theorem encoded_take (ht : t.Encoded) (hi : t.isBoundary i = true) : Encoded (t.take i) :=
  ((isBoundary_iff ht).mp hi).2

theorem encoded_drop (ht : t.Encoded) (hi : t.isBoundary i = true) : Encoded (t.drop i) :=
  Encoded.of_append (by rwa [List.take_append_drop]) (encoded_take ht hi)

private theorem encoded_slice (ht : t.Encoded) (hi : t.isBoundary i = true)
    (hj : t.isBoundary j = true) (hij : i ≤ j) : (t.slice i j).Encoded :=
  Encoded.of_append (by rw [take_append_slice hij]; exact encoded_take ht hj) (encoded_take ht hi)

/-- A boundary behind an encoded part of a text is one of what follows that part. -/
theorem isBoundary_append {u : Text} (hu : u.Encoded) (ht : t.Encoded)
    (hi : t.isBoundary i = true) : Text.isBoundary (u ++ t) (u.length + i) = true := by
  rw [isBoundary_iff (hu.append ht), List.length_append]
  refine ⟨Nat.add_le_add_left (le_length_of_isBoundary hi) _, ?_⟩
  rw [List.take_append, List.take_of_length_le (Nat.le_add_right _ _), Nat.add_sub_cancel_left]
  exact hu.append (encoded_take ht hi)

theorem isBoundary_drop (ht : t.Encoded) (hi : t.isBoundary i = true) (hj : t.isBoundary j = true)
    (hij : i ≤ j) : Text.isBoundary (t.drop i) (j - i) = true := by
  rw [isBoundary_iff (encoded_drop ht hi), List.length_drop]
  have hle := le_length_of_isBoundary hj
  exact ⟨by omega, encoded_slice ht hi hj hij⟩

end

section

variable {t : Text} {i j : Nat}

private theorem isBoundary_of_ascii {b : UInt8} (ht : t.Encoded) (h : t[i]? = some b)
    (hb : b < 0x80) :
    t.isBoundary i = true ∧ t.isBoundary (i + 1) = true := by
  obtain ⟨hi, rfl⟩ := List.getElem?_eq_some_iff.mp h
  have hat := isBoundary_of_byte h (isTail_of_ascii hb)
  refine ⟨hat, (isBoundary_iff ht).mpr ⟨hi, ?_⟩⟩
  rw [List.take_succ_eq_append_getElem hi]
  exact (encoded_take ht hat).append (.ascii hb)

private theorem getElem?_of_slice {b : UInt8} {bs : Text} (h : t.slice i j = b :: bs) :
    t[i]? = some b := by
  have hget := congrArg (·[0]?) h
  rw [slice] at hget
  cases hlen : j - i with
  | zero => simp [hlen] at hget
  | succ n => simpa [hlen] using hget

theorem isBoundary_lineStart (ht : t.Encoded) (hi : i ≤ t.length) :
    t.isBoundary (t.lineStart i) = true ∧
      (0 < t.lineStart i → t.isBoundary (t.lineStart i - 1) = true) := by
  rcases Nat.eq_zero_or_pos (t.lineStart i) with hzero | hpos
  · rw [hzero]
    exact ⟨isBoundary_zero t, fun h => absurd h (Nat.lt_irrefl 0)⟩
  · have hbreak := getElem?_of_slice (slice_lineStart hi hpos)
    obtain ⟨hat, hsucc⟩ := isBoundary_of_ascii ht hbreak (by decide)
    rw [Nat.sub_add_cancel hpos] at hsucc
    exact ⟨hsucc, fun _ => hat⟩

theorem isBoundary_lineEnd (ht : t.Encoded) (hi : i ≤ t.length) :
    t.isBoundary (t.lineEnd i) = true ∧
      (t.lineEnd i < t.length → t.isBoundary (t.lineEnd i + 1) = true) := by
  rcases Nat.lt_or_eq_of_le (lineEnd_le hi) with hlt | heq
  · obtain ⟨hat, hsucc⟩ :=
      isBoundary_of_ascii ht (getElem?_of_slice (slice_lineEnd hlt)) (by decide)
    exact ⟨hat, fun _ => hsucc⟩
  · rw [heq]
    exact ⟨isBoundary_length t, fun h => absurd h (Nat.lt_irrefl _)⟩

private theorem lt_of_isBlank {b : UInt8} (h : isBlank b = true) : b < 0x80 := by
  simp only [isBlank, Bool.or_eq_true, beq_iff_eq] at h
  rcases h with (((rfl | rfl) | rfl) | rfl) | rfl <;> decide

theorem isBoundary_trimmedEnd (ht : t.Encoded) (hij : i ≤ j) (hj : t.isBoundary j = true) :
    t.isBoundary (t.trimmedEnd i j) = true := by
  have hblank := slice_trimmedEnd hij (le_length_of_isBoundary hj)
  rcases Nat.lt_or_eq_of_le (trimmedEnd_le t i j) with hlt | heq
  · cases hs : t.slice (t.trimmedEnd i j) j with
    | nil =>
      have hlen := slice_length (i := t.trimmedEnd i j) (le_length_of_isBoundary hj)
      rw [hs, List.length_nil] at hlen
      omega
    | cons b bs =>
      have hb := hblank b (by rw [hs]; exact List.mem_cons_self)
      exact (isBoundary_of_ascii ht (getElem?_of_slice hs) (lt_of_isBlank hb)).1
  · rwa [heq]

theorem encoded_indentAt (t : Text) (i : Nat) : (t.indentAt i).Encoded := by
  refine .of_ascii fun b hb => ?_
  rcases mem_indentAt hb with rfl | rfl <;> decide

/-- The first line of a text and the lines behind its line break. -/
theorem lines_eq_cons (t : Text) : ∃ l ls, t.lines = l :: ls ∧
    ((ls = [] ∧ t = l) ∨ ∃ u : Text, t = l ++ newline :: u ∧ ls = lines u) := by
  induction t with
  | nil => exact ⟨[], [], rfl, .inl ⟨rfl, rfl⟩⟩
  | cons b t ih =>
    obtain ⟨l, ls, hlines, hrest⟩ := ih
    by_cases hb : b = newline
    · subst hb
      exact ⟨[], lines t, by simp [lines], .inr ⟨t, rfl, rfl⟩⟩
    · refine ⟨b :: l, ls, by simp [lines, hb, hlines], ?_⟩
      rcases hrest with ⟨hls, rfl⟩ | ⟨u, rfl, hls⟩
      · exact .inl ⟨hls, rfl⟩
      · exact .inr ⟨u, rfl, hls⟩

theorem encoded_lines {t : Text} (ht : t.Encoded) : ∀ l ∈ t.lines, l.Encoded := by
  -- on the length, as what follows the first line break is a shorter text
  induction hn : t.length using Nat.strongRecOn generalizing t with
  | ind n ih =>
    obtain ⟨l, ls, hlines, ⟨rfl, rfl⟩ | ⟨u, rfl, rfl⟩⟩ := lines_eq_cons t
    · intro k hk
      rw [hlines] at hk
      rwa [List.mem_singleton.mp hk]
    · obtain ⟨hl, hrest⟩ := ht.cut (b := newline) rfl
      have hu : Encoded u := Encoded.of_append hrest .newline
      have hlt : u.length < n := by
        rw [← hn, List.length_append, List.length_cons]
        omega
      intro k hk
      rw [hlines] at hk
      rcases List.mem_cons.mp hk with rfl | hk
      · exact hl
      · exact ih u.length hlt hu rfl k hk

theorem encoded_unlines {ls : List Text} (h : ∀ l ∈ ls, l.Encoded) : (unlines ls).Encoded := by
  induction ls with
  | nil => exact .nil
  | cons l ls ih =>
    have hl := h l List.mem_cons_self
    have hls := ih fun k hk => h k (List.mem_cons_of_mem l hk)
    cases ls with
    | nil => simpa [unlines] using hl
    | cons k ls =>
      have hsplit : unlines (l :: k :: ls) = l ++ ([newline] ++ unlines (k :: ls)) := by
        simp [unlines, List.intercalate_cons_cons]
      rw [hsplit]
      exact hl.append (Encoded.newline.append hls)

end

end RepairSearch.Text
