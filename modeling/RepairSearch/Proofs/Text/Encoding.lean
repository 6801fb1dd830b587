import RepairSearch.Text.Basic

/-!
# Characters and their bytes

Decoding is strict: a text that decodes is the encoding of the characters that come out. Where two
encodings overlap in one text they share a character, because a byte that starts a character never
stands inside another one.
-/

namespace RepairSearch.Text

/-- The bytes of characters, one after the other. -/
def ofChars (cs : List Char) : Text := cs.flatMap String.utf8EncodeChar

@[simp] theorem ofChars_nil : ofChars [] = [] := rfl

theorem ofChars_cons (c : Char) (cs : List Char) :
    ofChars (c :: cs) = String.utf8EncodeChar c ++ ofChars cs := rfl

theorem ofChars_append (cs ds : List Char) :
    ofChars (cs ++ ds) = ofChars cs ++ ofChars ds := by
  simp only [ofChars, List.flatMap_append]

private theorem val_ofNat {v : Nat} (h : v < 0xD800 ∨ 0xDFFF < v ∧ v < 0x110000) :
    (Char.ofNat v).val.toNat = v := by
  have hv : v.isValidChar := by
    rcases h with h | h
    · exact Or.inl h
    · exact Or.inr h
  rw [Char.ofNat, dif_pos hv]
  rfl

private theorem encode_one {a : UInt8} (ha : a < 0x80) :
    String.utf8EncodeChar (Char.ofNat a.toNat) = [a] := by
  have h : a.toNat < 0x80 := UInt8.lt_iff_toNat_lt.mp ha
  simp only [String.utf8EncodeChar, val_ofNat (Or.inl (by omega : a.toNat < 0xD800))]
  rw [if_pos (by omega)]
  simp

theorem ofChars_ascii {a : UInt8} (ha : a < 0x80) : ofChars [Char.ofNat a.toNat] = [a] := by
  rw [ofChars_cons, encode_one ha]
  rfl

private theorem encode_two {a b : UInt8} (ha : 0xC2 ≤ a.toNat ∧ a.toNat ≤ 0xDF)
    (hb : 0x80 ≤ b.toNat ∧ b.toNat ≤ 0xBF) :
    String.utf8EncodeChar (Char.ofNat (a.toNat % 32 * 64 + b.toNat % 64)) = [a, b] := by
  simp only [String.utf8EncodeChar, val_ofNat (Or.inl (by omega :
    a.toNat % 32 * 64 + b.toNat % 64 < 0xD800))]
  rw [if_neg (by omega), if_pos (by omega)]
  simp only [List.cons.injEq, and_true, ← UInt8.toNat_inj, UInt8.toNat_ofNat']
  omega

private theorem encode_three {a b c : UInt8} (ha : 0xE0 ≤ a.toNat ∧ a.toNat ≤ 0xEF)
    (hb : 0x80 ≤ b.toNat ∧ b.toNat ≤ 0xBF) (hc : 0x80 ≤ c.toNat ∧ c.toNat ≤ 0xBF)
    (hlo : a.toNat = 0xE0 → 0xA0 ≤ b.toNat) (hhi : a.toNat = 0xED → b.toNat ≤ 0x9F) :
    String.utf8EncodeChar
      (Char.ofNat ((a.toNat % 16 * 64 + b.toNat % 64) * 64 + c.toNat % 64)) = [a, b, c] := by
  simp only [String.utf8EncodeChar, val_ofNat (by omega :
    (a.toNat % 16 * 64 + b.toNat % 64) * 64 + c.toNat % 64 < 0xD800 ∨
    0xDFFF < (a.toNat % 16 * 64 + b.toNat % 64) * 64 + c.toNat % 64 ∧
    (a.toNat % 16 * 64 + b.toNat % 64) * 64 + c.toNat % 64 < 0x110000)]
  rw [if_neg (by omega), if_neg (by omega), if_pos (by omega)]
  simp only [List.cons.injEq, and_true, ← UInt8.toNat_inj, UInt8.toNat_ofNat']
  omega

private theorem encode_four {a b c d : UInt8} (ha : 0xF0 ≤ a.toNat ∧ a.toNat ≤ 0xF4)
    (hb : 0x80 ≤ b.toNat ∧ b.toNat ≤ 0xBF) (hc : 0x80 ≤ c.toNat ∧ c.toNat ≤ 0xBF)
    (hd : 0x80 ≤ d.toNat ∧ d.toNat ≤ 0xBF)
    (hlo : a.toNat = 0xF0 → 0x90 ≤ b.toNat) (hhi : a.toNat = 0xF4 → b.toNat ≤ 0x8F) :
    String.utf8EncodeChar
      (Char.ofNat (((a.toNat % 8 * 64 + b.toNat % 64) * 64 + c.toNat % 64) * 64 + d.toNat % 64)) =
      [a, b, c, d] := by
  simp only [String.utf8EncodeChar, val_ofNat (by omega :
    ((a.toNat % 8 * 64 + b.toNat % 64) * 64 + c.toNat % 64) * 64 + d.toNat % 64 < 0xD800 ∨
    0xDFFF < ((a.toNat % 8 * 64 + b.toNat % 64) * 64 + c.toNat % 64) * 64 + d.toNat % 64 ∧
    ((a.toNat % 8 * 64 + b.toNat % 64) * 64 + c.toNat % 64) * 64 + d.toNat % 64 < 0x110000)]
  rw [if_neg (by omega), if_neg (by omega), if_neg (by omega)]
  simp only [List.cons.injEq, and_true, ← UInt8.toNat_inj, UInt8.toNat_ofNat']
  omega

private theorem tails_succ {n v w : Nat} {lo hi : UInt8} {t rest : Text}
    (h : tails (n + 1) v lo hi t = (some w, rest)) :
    ∃ b t', t = b :: t' ∧ lo.toNat ≤ b.toNat ∧ b.toNat ≤ hi.toNat ∧
      tails n (v * 64 + b.toNat % 64) 0x80 0xBF t' = (some w, rest) := by
  cases t with
  | nil => simp [tails] at h
  | cons b t' =>
    simp only [tails, Bool.and_eq_true, decide_eq_true_eq, UInt8.le_iff_toNat_le, tailValue] at h
    split at h
    · rename_i hb
      exact ⟨b, t', rfl, hb.1, hb.2, h⟩
    · simp at h

private theorem tails_zero {v w : Nat} {lo hi : UInt8} {t rest : Text}
    (h : tails 0 v lo hi t = (some w, rest)) : v = w ∧ t = rest := by
  simpa [tails] using h

private theorem lead_cases {b lo hi : UInt8} {n : Nat} (h : lead? b = some (n, lo, hi)) :
    (n = 1 ∧ 0xC2 ≤ b.toNat ∧ b.toNat ≤ 0xDF ∧ lo.toNat = 0x80 ∧ hi.toNat = 0xBF) ∨
    (n = 2 ∧ 0xE0 ≤ b.toNat ∧ b.toNat ≤ 0xEF ∧ 0x80 ≤ lo.toNat ∧ hi.toNat ≤ 0xBF ∧
      (b.toNat = 0xE0 → lo.toNat = 0xA0) ∧ (b.toNat = 0xED → hi.toNat = 0x9F)) ∨
    (n = 3 ∧ 0xF0 ≤ b.toNat ∧ b.toNat ≤ 0xF4 ∧ 0x80 ≤ lo.toNat ∧ hi.toNat ≤ 0xBF ∧
      (b.toNat = 0xF0 → lo.toNat = 0x90) ∧ (b.toNat = 0xF4 → hi.toNat = 0x8F)) := by
  simp only [lead?, Bool.and_eq_true, decide_eq_true_eq, UInt8.le_iff_toNat_le, beq_iff_eq,
    ← UInt8.toNat_inj, UInt8.reduceToNat] at h
  iterate 7
    split at h
    · simp only [Option.some.injEq, Prod.mk.injEq, ← UInt8.toNat_inj, UInt8.reduceToNat] at h
      omega
  simp at h

private theorem encode_lead {b lo hi : UInt8} {n w : Nat} {t rest : Text}
    (hb : lead? b = some (n, lo, hi)) (h : tails n (leadValue b n) lo hi t = (some w, rest)) :
    b :: t = String.utf8EncodeChar (Char.ofNat w) ++ rest := by
  rcases lead_cases hb with ⟨rfl, hlead⟩ | ⟨rfl, hlead⟩ | ⟨rfl, hlead⟩
  · obtain ⟨x, t₁, rfl, hx, hx', h⟩ := tails_succ h
    obtain ⟨rfl, rfl⟩ := tails_zero h
    change _ = String.utf8EncodeChar (Char.ofNat (b.toNat % 32 * 64 + x.toNat % 64)) ++ _
    rw [encode_two (by omega) (by omega)]
    rfl
  · obtain ⟨x, t₁, rfl, hx, hx', h⟩ := tails_succ h
    obtain ⟨y, t₂, rfl, hy, hy', h⟩ := tails_succ h
    obtain ⟨rfl, rfl⟩ := tails_zero h
    simp only [UInt8.reduceToNat] at hy hy'
    change _ = String.utf8EncodeChar
      (Char.ofNat ((b.toNat % 16 * 64 + x.toNat % 64) * 64 + y.toNat % 64)) ++ _
    rw [encode_three (by omega) (by omega) (by omega) (by omega) (by omega)]
    rfl
  · obtain ⟨x, t₁, rfl, hx, hx', h⟩ := tails_succ h
    obtain ⟨y, t₂, rfl, hy, hy', h⟩ := tails_succ h
    obtain ⟨z, t₃, rfl, hz, hz', h⟩ := tails_succ h
    obtain ⟨rfl, rfl⟩ := tails_zero h
    simp only [UInt8.reduceToNat] at hy hy' hz hz'
    change _ = String.utf8EncodeChar
      (Char.ofNat (((b.toNat % 8 * 64 + x.toNat % 64) * 64 + y.toNat % 64) * 64 + z.toNat % 64)) ++ _
    rw [encode_four (by omega) (by omega) (by omega) (by omega) (by omega) (by omega)]
    rfl

private theorem tails_rest_length (n v : Nat) (lo hi : UInt8) (t : Text) :
    (tails n v lo hi t).2.length ≤ t.length := by
  induction n generalizing v lo hi t with
  | zero => simp [tails]
  | succ n ih =>
    cases t with
    | nil => simp [tails]
    | cons b t =>
      simp only [tails]
      split
      · exact Nat.le_succ_of_le (ih _ _ _ _)
      · exact Nat.le_refl _

private theorem scalars_sound (n : Nat) (t : Text) (cs : List Char) (hn : t.length ≤ n)
    (h : (scalars n t).mapM id = some cs) : t = ofChars cs := by
  induction n generalizing t cs with
  | zero =>
    have ht : t = [] := List.length_eq_zero_iff.mp (Nat.le_zero.mp hn)
    subst t
    simp only [scalars, List.mapM_nil, Option.pure_def, Option.some.injEq] at h
    subst cs
    rfl
  | succ n ih =>
    cases t with
    | nil =>
      simp only [scalars, List.mapM_nil, Option.pure_def, Option.some.injEq] at h
      subst cs
      rfl
    | cons b t =>
      have hlen : t.length ≤ n := Nat.le_of_succ_le_succ hn
      simp only [scalars] at h
      split at h
      · rename_i hb
        simp only [List.mapM_cons, id, Option.pure_def, Option.bind_eq_bind, Option.bind_some,
          Option.bind_eq_some_iff, Option.some.injEq] at h
        obtain ⟨ds, hds, rfl⟩ := h
        rw [ofChars_cons, encode_one hb, ← ih t ds hlen hds]
        rfl
      · split at h
        · simp at h
        · rename_i count lo hi hlead
          generalize hr : tails count (leadValue b count) lo hi t = r at h
          obtain ⟨value, rest⟩ := r
          cases value with
          | none => simp at h
          | some w =>
            simp only [Option.map_some, List.mapM_cons, id, Option.pure_def, Option.bind_eq_bind,
              Option.bind_some, Option.bind_eq_some_iff, Option.some.injEq] at h
            obtain ⟨ds, hds, rfl⟩ := h
            have hrest : rest.length ≤ n := by
              have h := tails_rest_length count (leadValue b count) lo hi t
              rw [hr] at h
              exact Nat.le_trans h hlen
            rw [ofChars_cons, encode_lead hlead hr, ← ih rest ds hrest hds]

/-- A text that decodes consists of the bytes of its characters. -/
theorem eq_ofChars_of_toString? {t : Text} {s : String} (h : t.toString? = some s) :
    t = ofChars s.toList := by
  obtain ⟨cs, hcs, rfl⟩ := Option.map_eq_some_iff.mp h
  rw [String.toList_ofList]
  exact scalars_sound t.length t cs (Nat.le_refl _) hcs

/-- Where everything encodes characters, nothing is replaced. -/
theorem toString_of_toString? {t : Text} {s : String} (h : t.toString? = some s) :
    t.toString = s := by
  have hall (os : List (Option Char)) (cs : List Char) (hos : os.mapM id = some cs) :
      os.map (·.getD '\uFFFD') = cs := by
    induction os generalizing cs with
    | nil =>
      cases hos
      rfl
    | cons o os ih =>
      simp only [List.mapM_cons, id, Option.pure_def, Option.bind_eq_bind,
        Option.bind_eq_some_iff, Option.some.injEq] at hos
      obtain ⟨c, rfl, ds, hds, rfl⟩ := hos
      rw [List.map_cons, ih ds hds, Option.getD_some]
  obtain ⟨cs, hcs, rfl⟩ := Option.map_eq_some_iff.mp h
  rw [toString, hall _ _ hcs]

private theorem isTail_eq (b : UInt8) : isTail b = decide (0x80 ≤ b.toNat ∧ b.toNat < 0xC0) := by
  simp only [isTail, UInt8.le_iff_toNat_le, UInt8.lt_iff_toNat_lt, UInt8.reduceToNat,
    Bool.decide_and]

private theorem encode_tails (c : Char) :
    ∃ b bs, String.utf8EncodeChar c = b :: bs ∧ isTail b = false ∧ ∀ x ∈ bs, isTail x = true := by
  rw [String.utf8EncodeChar]
  split
  · refine ⟨_, _, rfl, ?_, by simp⟩
    simp only [isTail_eq, UInt8.toNat_ofNat', decide_eq_false_iff_not]
    omega
  split
  · refine ⟨_, _, rfl, ?_, ?_⟩
    · simp only [isTail_eq, UInt8.toNat_ofNat', decide_eq_false_iff_not]
      omega
    · simp only [List.mem_cons, List.not_mem_nil, or_false, forall_eq, isTail_eq,
        UInt8.toNat_ofNat', decide_eq_true_eq]
      omega
  split
  · refine ⟨_, _, rfl, ?_, ?_⟩
    · simp only [isTail_eq, UInt8.toNat_ofNat', decide_eq_false_iff_not]
      omega
    · simp only [List.mem_cons, List.not_mem_nil, or_false, forall_eq_or_imp, forall_eq, isTail_eq,
        UInt8.toNat_ofNat', decide_eq_true_eq]
      omega
  · refine ⟨_, _, rfl, ?_, ?_⟩
    · simp only [isTail_eq, UInt8.toNat_ofNat', decide_eq_false_iff_not]
      omega
    · simp only [List.mem_cons, List.not_mem_nil, or_false, forall_eq_or_imp, forall_eq, isTail_eq,
        UInt8.toNat_ofNat', decide_eq_true_eq]
      omega

private theorem encode_eq_cons (c : Char) :
    ∃ b bs, String.utf8EncodeChar c = b :: bs ∧ b.IsUTF8FirstByte ∧
      ∀ x ∈ bs, ¬ x.IsUTF8FirstByte := by
  cases h : String.utf8EncodeChar c with
  | nil => exact absurd h String.utf8EncodeChar_ne_nil
  | cons b bs =>
    have hfirst (i : Nat) (hi : i < (String.utf8EncodeChar c).length) :
        (String.utf8EncodeChar c)[i].IsUTF8FirstByte ↔ i = 0 :=
      UInt8.isUTF8FirstByte_getElem_utf8EncodeChar
    simp only [h] at hfirst
    refine ⟨b, bs, rfl, (hfirst 0 (by simp)).mpr rfl, ?_⟩
    intro x hx
    obtain ⟨i, hi, rfl⟩ := List.mem_iff_getElem.mp hx
    intro hf
    have h0 := (hfirst (i + 1) (by simpa using hi)).mp hf
    omega

private theorem encode_head_unique {c d : Char} {x y : Text}
    (h : String.utf8EncodeChar c ++ x = String.utf8EncodeChar d ++ y) : c = d := by
  have hc := ByteArray.utf8DecodeChar?_utf8EncodeChar_append (b := x.toByteArray) (c := c)
  have hd := ByteArray.utf8DecodeChar?_utf8EncodeChar_append (b := y.toByteArray) (c := d)
  rw [← List.toByteArray_append] at hc hd
  rw [h, hd] at hc
  exact (Option.some.inj hc).symm

private theorem ofChars_eq_cons (c : Char) (cs : List Char) :
    ∃ b q, ofChars (c :: cs) = b :: q ∧ b.IsUTF8FirstByte := by
  obtain ⟨b, bs, hb, hfirst, _⟩ := encode_eq_cons c
  refine ⟨b, bs ++ ofChars cs, ?_, hfirst⟩
  rw [ofChars_cons, hb]
  rfl

theorem isTail_head {cs : List Char} {b : UInt8} {q : Text} (h : ofChars cs = b :: q) :
    isTail b = false := by
  cases cs with
  | nil => cases h
  | cons c cs =>
    obtain ⟨a, bs, ha, hhead, _⟩ := encode_tails c
    rw [ofChars_cons, ha] at h
    exact (List.cons.inj h).1 ▸ hhead

/-- A byte of a character that is not a tail byte starts it. -/
theorem isFirst_of_not_isTail {cs : List Char} {x : UInt8} (hx : x ∈ ofChars cs)
    (h : isTail x = false) : x.IsUTF8FirstByte := by
  obtain ⟨c, _, hxc⟩ := List.mem_flatMap.mp hx
  obtain ⟨b, bs, hb, hfirst, _⟩ := encode_eq_cons c
  obtain ⟨a, as, ha, _, htails⟩ := encode_tails c
  obtain ⟨rfl, rfl⟩ := List.cons.inj (hb.symm.trans ha)
  rw [hb] at hxc
  rcases List.mem_cons.mp hxc with rfl | hmem
  · exact hfirst
  · rw [htails x hmem] at h
    cases h

/-- A text of characters can be cut before any byte that starts a character. -/
theorem ofChars_cut {cs : List Char} {p q : Text} {b : UInt8} (h : ofChars cs = p ++ b :: q)
    (hb : b.IsUTF8FirstByte) :
    ∃ as bs, cs = as ++ bs ∧ p = ofChars as ∧ b :: q = ofChars bs := by
  induction cs generalizing p with
  | nil => simp at h
  | cons c cs ih =>
    rw [ofChars_cons] at h
    rcases List.append_eq_append_iff.mp h with ⟨p', hp, hcs⟩ | ⟨r, hc, hr⟩
    · obtain ⟨as, bs, rfl, rfl, hbs⟩ := ih hcs
      exact ⟨c :: as, bs, rfl, hp, hbs⟩
    · cases p with
      | nil =>
        refine ⟨[], c :: cs, rfl, rfl, ?_⟩
        rw [ofChars_cons, hc, hr]
        rfl
      | cons a p =>
        obtain ⟨a', bs, hbs, _, htail⟩ := encode_eq_cons c
        cases r with
        | nil =>
          refine ⟨[c], cs, rfl, ?_, hr⟩
          rw [ofChars_cons, hc]
          simp
        | cons x r =>
          -- the byte would stand inside the encoding of `c`
          have hx : b = x := (List.cons.inj hr).1
          rw [hbs] at hc
          have hmem : x ∈ bs := by rw [(List.cons.inj hc).2]; simp
          exact absurd (hx ▸ hb) (htail x hmem)

/-- An encoding at the start of another one is that of its first characters. -/
theorem ofChars_prefix {cs ds : List Char} {q : Text} (h : ofChars ds = ofChars cs ++ q) :
    ∃ es, ds = cs ++ es := by
  induction cs generalizing ds with
  | nil => exact ⟨ds, rfl⟩
  | cons c cs ih =>
    cases ds with
    | nil =>
      obtain ⟨b, r, hb, _⟩ := ofChars_eq_cons c cs
      simp [hb] at h
    | cons d ds =>
      rw [ofChars_cons, ofChars_cons, List.append_assoc] at h
      have hcd := encode_head_unique h
      subst d
      obtain ⟨es, rfl⟩ := ih (List.append_cancel_left h)
      exact ⟨es, rfl⟩

private theorem prefix_drop {w t : Text} {i k : Nat} (h : w <+: t.drop i) (hik : i ≤ k)
    (hk : k ≤ i + w.length) : w.drop (k - i) <+: t.drop k := by
  obtain ⟨u, hu⟩ := h
  refine ⟨u, ?_⟩
  rw [← List.drop_append_of_le_length (by omega : k - i ≤ w.length), hu, List.drop_drop]
  congr 1
  omega

private theorem drop_ne_nil {w : Text} {n : Nat} (h : n < w.length) : w.drop n ≠ [] := by
  intro hn
  have := List.drop_eq_nil_iff.mp hn
  omega

private theorem exists_cut_of_overlap {t : Text} {c : Char} {cs ws : List Char} {i k : Nat}
    (hx : ofChars (c :: cs) <+: t.drop k) (hw : ofChars ws <+: t.drop i) (hik : i ≤ k)
    (hk : k < i + (ofChars ws).length) :
    ∃ as d bs, ws = as ++ d :: bs ∧ ofChars (d :: bs) <+: t.drop k ∧
      (ofChars (d :: bs)).length = (ofChars ws).length - (k - i) := by
  have hrest := prefix_drop hw hik (by omega)
  obtain ⟨b, q, hb, hfirst⟩ := ofChars_eq_cons c cs
  cases hr : (ofChars ws).drop (k - i) with
  | nil => exact absurd hr (drop_ne_nil (by omega))
  | cons a r =>
    have hlen : ((ofChars ws).drop (k - i)).length = (ofChars ws).length - (k - i) :=
      List.length_drop
    rw [hr] at hrest hlen
    have hab : a = b := by
      obtain ⟨u, hu⟩ := hrest
      obtain ⟨v, hv⟩ := hx
      rw [hb, ← hu] at hv
      exact (List.cons.inj hv).1.symm
    subst a
    have hcut : ofChars ws = (ofChars ws).take (k - i) ++ b :: r := by
      rw [← hr, List.take_append_drop]
    obtain ⟨as, bs, rfl, _, hbs⟩ := ofChars_cut hcut hfirst
    cases bs with
    | nil => simp at hbs
    | cons d bs => exact ⟨as, d, bs, rfl, hbs ▸ hrest, hbs ▸ hlen⟩

/-- If characters begin inside other characters, the first of them is one of the others. -/
theorem head_mem_of_overlap {t : Text} {c : Char} {cs ws : List Char} {i k : Nat}
    (hx : ofChars (c :: cs) <+: t.drop k) (hw : ofChars ws <+: t.drop i) (hik : i ≤ k)
    (hk : k < i + (ofChars ws).length) : c ∈ ws := by
  obtain ⟨as, d, bs, rfl, ⟨u, hu⟩, _⟩ := exists_cut_of_overlap hx hw hik hk
  have hcd : c = d := by
    obtain ⟨v, hv⟩ := hx
    rw [← hu, ofChars_cons, ofChars_cons, List.append_assoc, List.append_assoc] at hv
    exact encode_head_unique hv
  simp [hcd]

/-- If characters end inside other characters that begin after them, the last of them is one of
the others. -/
theorem last_mem_of_overlap {t : Text} {cs ws : List Char} {i k : Nat}
    (hx : ofChars cs <+: t.drop k) (hw : ofChars ws <+: t.drop i) (hki : k ≤ i)
    (hi : i < k + (ofChars cs).length)
    (hend : k + (ofChars cs).length ≤ i + (ofChars ws).length) :
    ∃ c, cs.getLast? = some c ∧ c ∈ ws := by
  cases ws with
  | nil =>
    simp only [ofChars_nil, List.length_nil] at hend
    omega
  | cons d ws =>
    obtain ⟨as, e, bs, rfl, hbs, hlen⟩ := exists_cut_of_overlap hw hx hki hi
    have hpre : ofChars (e :: bs) <+: ofChars (d :: ws) :=
      List.prefix_of_prefix_length_le hbs hw (by omega)
    obtain ⟨q, hq⟩ := hpre
    obtain ⟨es, hes⟩ := ofChars_prefix hq.symm
    refine ⟨(e :: bs).getLast (by simp), ?_, ?_⟩
    · rw [List.getLast?_append, List.getLast?_eq_some_getLast (by simp)]
      rfl
    · rw [hes]
      exact List.mem_append_left _ (List.getLast_mem _)

private theorem lead_two {b : UInt8} (h : 0xC2 ≤ b.toNat ∧ b.toNat ≤ 0xDF) :
    lead? b = some (1, 0x80, 0xBF) := by
  simp only [lead?, Bool.and_eq_true, decide_eq_true_eq, UInt8.le_iff_toNat_le, UInt8.reduceToNat]
  rw [if_pos h]

private theorem lead_three {b : UInt8} (h : 0xE0 ≤ b.toNat ∧ b.toNat ≤ 0xEF) :
    ∃ lo hi, lead? b = some (2, lo, hi) ∧
      lo.toNat = (if b.toNat = 0xE0 then 0xA0 else 0x80) ∧
      hi.toNat = (if b.toNat = 0xED then 0x9F else 0xBF) := by
  simp only [lead?, Bool.and_eq_true, decide_eq_true_eq, UInt8.le_iff_toNat_le, beq_iff_eq,
    ← UInt8.toNat_inj, UInt8.reduceToNat]
  rw [if_neg (by omega)]
  by_cases hlo : b.toNat = 0xE0
  · exact ⟨0xA0, 0xBF, by simp [hlo], by simp [hlo], by simp [hlo]⟩
  by_cases hhi : b.toNat = 0xED
  · exact ⟨0x80, 0x9F, by simp [hhi], by simp [hhi], by simp [hhi]⟩
  refine ⟨0x80, 0xBF, ?_, by simp [hlo], by simp [hhi]⟩
  rw [if_neg hlo, if_neg hhi, if_pos (by omega)]

private theorem lead_four {b : UInt8} (h : 0xF0 ≤ b.toNat ∧ b.toNat ≤ 0xF4) :
    ∃ lo hi, lead? b = some (3, lo, hi) ∧
      lo.toNat = (if b.toNat = 0xF0 then 0x90 else 0x80) ∧
      hi.toNat = (if b.toNat = 0xF4 then 0x8F else 0xBF) := by
  simp only [lead?, Bool.and_eq_true, decide_eq_true_eq, UInt8.le_iff_toNat_le, beq_iff_eq,
    ← UInt8.toNat_inj, UInt8.reduceToNat]
  rw [if_neg (by omega), if_neg (by omega), if_neg (by omega), if_neg (by omega)]
  by_cases hlo : b.toNat = 0xF0
  · exact ⟨0x90, 0xBF, by simp [hlo], by simp [hlo], by simp [hlo]⟩
  by_cases hhi : b.toNat = 0xF4
  · exact ⟨0x80, 0x8F, by simp [hhi], by simp [hhi], by simp [hhi]⟩
  refine ⟨0x80, 0xBF, ?_, by simp [hlo], by simp [hhi]⟩
  rw [if_neg hlo, if_neg hhi, if_pos (by omega)]

private theorem tails_cons {n v : Nat} {lo hi b : UInt8} {t : Text}
    (h : lo.toNat ≤ b.toNat ∧ b.toNat ≤ hi.toNat) :
    tails (n + 1) v lo hi (b :: t) = tails n (v * 64 + tailValue b) 0x80 0xBF t := by
  simp only [tails, Bool.and_eq_true, decide_eq_true_eq, UInt8.le_iff_toNat_le]
  rw [if_pos h]

private theorem encode_tails_of_lead (c : Char) (hc : 0x80 ≤ c.val.toNat) :
    ∃ b bs count lo hi, String.utf8EncodeChar c = b :: bs ∧ ¬ b < 0x80 ∧
      lead? b = some (count, lo, hi) ∧ ∀ v t, ∃ w, tails count v lo hi (bs ++ t) = (some w, t) := by
  have hvalid : c.val.toNat < 0xD800 ∨ 0xDFFF < c.val.toNat ∧ c.val.toNat < 0x110000 := c.valid
  have hbyte (n : Nat) : (UInt8.ofNat n).toNat = n % 256 := UInt8.toNat_ofNat'
  rw [String.utf8EncodeChar]
  simp only [UInt8.lt_iff_toNat_lt, UInt8.reduceToNat]
  rw [if_neg (by omega)]
  split
  · refine ⟨_, _, 1, 0x80, 0xBF, rfl, ?_, lead_two ?_, fun v t => ?_⟩
    · rw [hbyte]
      omega
    · rw [hbyte]
      omega
    · rw [List.singleton_append, tails_cons (by simp only [hbyte, UInt8.reduceToNat]; omega)]
      exact ⟨_, rfl⟩
  split
  · obtain ⟨lo, hi, hlead, hlo, hhi⟩ :=
      lead_three (b := UInt8.ofNat (c.val.toNat / 4096 % 16 + 224)) (by rw [hbyte]; omega)
    rw [hbyte] at hlo hhi
    refine ⟨_, _, 2, lo, hi, rfl, ?_, hlead, fun v t => ?_⟩
    · rw [hbyte]
      omega
    · rw [List.cons_append, List.singleton_append, tails_cons, tails_cons]
      · exact ⟨_, rfl⟩
      · simp only [hbyte, UInt8.reduceToNat]
        omega
      · rw [hlo, hhi, hbyte]
        split <;> split <;> omega
  · obtain ⟨lo, hi, hlead, hlo, hhi⟩ :=
      lead_four (b := UInt8.ofNat (c.val.toNat / 262144 % 8 + 240)) (by rw [hbyte]; omega)
    rw [hbyte] at hlo hhi
    refine ⟨_, _, 3, lo, hi, rfl, ?_, hlead, fun v t => ?_⟩
    · rw [hbyte]
      omega
    · rw [List.cons_append, List.cons_append, List.singleton_append, tails_cons, tails_cons,
        tails_cons]
      · exact ⟨_, rfl⟩
      · simp only [hbyte, UInt8.reduceToNat]
        omega
      · simp only [hbyte, UInt8.reduceToNat]
        omega
      · rw [hlo, hhi, hbyte]
        split <;> split <;> omega

private theorem scalars_encode (n : Nat) (c : Char) (t : Text) :
    scalars (n + 1) (String.utf8EncodeChar c ++ t) = some c :: scalars n t := by
  by_cases hc : c.val.toNat < 0x80
  · have hascii : String.utf8EncodeChar c = [UInt8.ofNat c.val.toNat] := by
      rw [String.utf8EncodeChar]
      exact if_pos (by omega)
    have hbyte : (UInt8.ofNat c.val.toNat).toNat = c.toNat := by
      rw [UInt8.toNat_ofNat']
      exact Nat.mod_eq_of_lt (by omega)
    have hlt : UInt8.ofNat c.val.toNat < 0x80 := by
      rw [UInt8.lt_iff_toNat_lt, hbyte]
      exact hc
    rw [hascii, List.singleton_append, scalars, if_pos hlt, hbyte, Char.ofNat_toNat]
  · obtain ⟨b, bs, count, lo, hi, hencode, hb, hlead, htails⟩ :=
      encode_tails_of_lead c (Nat.le_of_not_lt hc)
    obtain ⟨w, hw⟩ := htails (leadValue b count) t
    have hsame := encode_lead hlead hw
    rw [← List.cons_append, ← hencode] at hsame
    rw [hencode, List.cons_append, scalars, if_neg hb, hlead]
    dsimp only
    rw [hw, Option.map_some, ← encode_head_unique hsame]

private theorem scalars_ofChars (cs : List Char) (n : Nat) (hn : cs.length ≤ n) :
    scalars n (ofChars cs) = cs.map some := by
  induction cs generalizing n with
  | nil => cases n <;> rfl
  | cons c cs ih =>
    obtain ⟨n, rfl⟩ := Nat.exists_eq_succ_of_ne_zero (Nat.ne_of_gt (Nat.lt_of_lt_of_le
      (Nat.succ_pos cs.length) hn))
    rw [ofChars_cons, scalars_encode, ih n (Nat.le_of_succ_le_succ hn), List.map_cons]

private theorem length_le_ofChars (cs : List Char) : cs.length ≤ (ofChars cs).length := by
  induction cs with
  | nil => exact Nat.le_refl _
  | cons c cs ih =>
    have hpos : String.utf8EncodeChar c ≠ [] := String.utf8EncodeChar_ne_nil
    have hlength := List.length_pos_iff.mpr hpos
    rw [ofChars_cons, List.length_append, List.length_cons]
    omega

theorem toString?_ofChars (s : String) : (ofChars s.toList).toString? = some s := by
  have hall (cs : List Char) : (cs.map some).mapM id = some cs := by
    induction cs with
    | nil => rfl
    | cons c cs ih => simp [ih]
  rw [toString?, scalars_ofChars _ _ (length_le_ofChars _), hall, Option.map_some,
    String.ofList_toList]

end RepairSearch.Text
