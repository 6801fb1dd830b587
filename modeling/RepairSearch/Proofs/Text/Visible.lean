import RepairSearch.Proofs.Text.Boundary

/-!
# Visible starts

A text that starts with a character other than white space makes the line on which it starts a line
with something on it, whatever is before it there.
-/

namespace RepairSearch.Text

/-- A text that starts with a character other than white space. -/
def StartsVisibly (t : Text) : Prop := ∃ c, isSpace c = false ∧ ofChars [c] <+: t

namespace StartsVisibly

variable {t : Text}

theorem append (h : t.StartsVisibly) (u : Text) : StartsVisibly (t ++ u) := by
  obtain ⟨c, hc, hpre⟩ := h
  exact ⟨c, hc, hpre.trans (List.prefix_append t u)⟩

theorem ne_nil (h : t.StartsVisibly) : t ≠ [] := by
  rintro rfl
  obtain ⟨c, _, hpre⟩ := h
  rw [List.prefix_nil, ofChars_cons, List.append_eq_nil_iff] at hpre
  exact String.utf8EncodeChar_ne_nil hpre.1

private theorem not_white (h : t.StartsVisibly) {x w : Text} (hw : w <+: x ++ t)
    (hlt : x.length < w.length) : ¬ White w := by
  rintro ⟨ws, hws, rfl⟩
  obtain ⟨c, hc, hpre⟩ := h
  have hmem : c ∈ ws := by
    have hstart : ofChars [c] <+: (x ++ t).drop x.length := by rwa [List.drop_left]
    exact head_mem_of_overlap (i := 0) hstart hw (Nat.zero_le _) (by omega)
  rw [hws c hmem] at hc
  cases hc

theorem isWhite_append (h : t.StartsVisibly) (x : Text) : (x ++ t).isWhite = false := by
  rw [← Bool.not_eq_true]
  intro hwhite
  have hpos := List.length_pos_iff.mpr h.ne_nil
  refine h.not_white (List.prefix_refl (x ++ t)) ?_ (white_of_isWhite hwhite)
  rw [List.length_append]
  omega

/-- White space that begins a text with a visible start in it is over where that starts. -/
theorem prefix_of_white (h : t.StartsVisibly) {x w : Text} (hw : w <+: x ++ t) (hwhite : White w) :
    w <+: x := by
  have hle : w.length ≤ x.length := Nat.le_of_not_lt fun hlt => h.not_white hw hlt hwhite
  exact List.prefix_of_prefix_length_le hw (List.prefix_append x t) hle

/-- The first line of a text starts as visibly as the text. -/
theorem lines_eq_cons (h : t.StartsVisibly) :
    ∃ first rest, t.lines = first :: rest ∧ first.StartsVisibly := by
  obtain ⟨first, rest, hlines, ⟨_, rfl⟩ | ⟨u, rfl, _⟩⟩ := Text.lines_eq_cons t
  · exact ⟨t, rest, hlines, h⟩
  · obtain ⟨c, hc, v, hv⟩ := id h
    refine ⟨first, rest, hlines, c, hc, ?_⟩
    rcases List.append_eq_append_iff.mp hv with ⟨a, rfl, _⟩ | ⟨q, hchar, hbreak⟩
    · exact List.prefix_append _ a
    · cases q with
      | nil =>
        have hall : ofChars [c] = first := by rw [hchar, List.append_nil]
        exact hall ▸ List.prefix_refl _
      | cons b q =>
        -- the line break is a byte of the character, so it is the character
        obtain ⟨rfl, _⟩ := List.cons.inj hbreak
        have hmem : newline ∈ ofChars [c] := by rw [hchar]; simp
        obtain ⟨as, bs, hsplit, rfl, hbs⟩ :=
          ofChars_cut hchar (isFirst_of_not_isTail hmem (by decide))
        have has : as = [] := by
          rcases List.append_eq_singleton_iff.mp hsplit.symm with ⟨rfl, _⟩ | ⟨_, rfl⟩
          · rfl
          · cases hbs
        subst has
        refine absurd White.newline (h.not_white (x := []) ?_ Nat.zero_lt_one)
        exact List.prefix_append [newline] u

end StartsVisibly

end RepairSearch.Text
