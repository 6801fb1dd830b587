import RepairSearch.Proofs.Files.Place
import RepairSearch.Proofs.Text.Boundary

/-!
# Names and their bytes

Bytes that name an entry in a file system are those of one name, which is shown as they decode.
-/

namespace RepairSearch.Files.Name

private theorem raw?_eq_none {name : String} (h : '\x00' ∉ name.toList) : raw? name = none := by
  rw [raw?]
  split
  · rename_i cs hcs
    exact absurd (hcs ▸ List.mem_cons_self) h
  · rfl

private theorem mem_ofChars {b : UInt8} {c : Char} {cs : List Char} (h : c ∈ cs)
    (hb : b ∈ String.utf8EncodeChar c) : b ∈ Text.ofChars cs := by
  obtain ⟨before, after, rfl⟩ := List.append_of_mem h
  rw [Text.ofChars_append, Text.ofChars_cons]
  exact List.mem_append_right _ (List.mem_append_left _ hb)

private theorem toNat_ofNat_toNat (b : UInt8) : (Char.ofNat b.toNat).toNat = b.toNat := by
  have hb : b.toNat < 256 := b.toNat_lt
  rw [Char.ofNat, dif_pos (Or.inl (by omega))]
  rfl

theorem bytes_ofBytes {t : Text} (h : 0 ∉ t) : bytes (ofBytes t) = t := by
  rw [ofBytes]
  cases ht : t.toString? with
  | some s =>
    have hs := Text.eq_ofChars_of_toString? ht
    have hzero : '\x00' ∉ s.toList := fun hmem => h (hs ▸ mem_ofChars hmem (by decide))
    rw [bytes, raw?_eq_none hzero, Option.getD_none, Text.ofString_eq_ofChars, ← hs]
  | none =>
    have hraw : raw? (String.ofList ('\x00' :: t.map fun b => Char.ofNat b.toNat)) = some t := by
      rw [raw?, String.toList_ofList]
      refine congrArg some ((List.map_map ..).trans ?_)
      refine (List.map_congr_left fun b _ => ?_).trans (List.map_id t)
      rw [Function.comp_apply, toNat_ofNat_toNat, UInt8.ofNat_toNat, id]
    dsimp only
    rw [bytes, hraw, Option.getD_some]

theorem ofBytes_inj {t u : Text} (ht : 0 ∉ t) (hu : 0 ∉ u) : ofBytes t = ofBytes u ↔ t = u :=
  ⟨fun h => by rw [← bytes_ofBytes ht, ← bytes_ofBytes hu, h], fun h => h ▸ rfl⟩

theorem shown_eq (name : String) : shown name = (bytes name).toString := by
  rw [shown, bytes]
  cases raw? name with
  | some t => rfl
  | none => exact (Text.toString_ofString name).symm

theorem shown_ofBytes {t : Text} (h : 0 ∉ t) : shown (ofBytes t) = t.toString := by
  rw [shown_eq, bytes_ofBytes h]

theorem isText_ofBytes {t : Text} (h : 0 ∉ t) : isText (ofBytes t) = t.toString?.isSome := by
  rw [ofBytes, isText]
  cases ht : t.toString? with
  | some s =>
    have hs := Text.eq_ofChars_of_toString? ht
    rw [raw?_eq_none fun hmem => h (hs ▸ mem_ofChars hmem (by decide))]
    rfl
  | none =>
    dsimp only
    rw [raw?, String.toList_ofList]
    rfl

/-- What an entry can be called in a file system is a name. -/
theorem isName_ofBytes {t : Text} (hslash : 47 ∉ t) (hne : t ≠ [])
    (hdot : t ≠ [46]) (hup : t ≠ [46, 46]) : IsName (ofBytes t) := by
  rw [ofBytes]
  cases ht : t.toString? with
  | some s =>
    have hs := Text.eq_ofChars_of_toString? ht
    refine ⟨?_, ?_, ?_, fun hmem => hslash (hs ▸ mem_ofChars hmem (by decide))⟩
    · rintro rfl
      exact hne hs
    · rintro rfl
      exact hdot (hs.trans (by decide))
    · rintro rfl
      exact hup (hs.trans (by decide))
  | none =>
    have hraw : ∀ s : String, s.toList.head? ≠ some '\x00' →
        String.ofList ('\x00' :: t.map fun b => Char.ofNat b.toNat) ≠ s := by
      rintro s hs rfl
      exact hs (by rw [String.toList_ofList]; rfl)
    refine ⟨hraw _ (by decide), hraw _ (by decide), hraw _ (by decide), ?_⟩
    rw [String.toList_ofList, List.mem_cons, not_or]
    refine ⟨by decide, fun hmem => ?_⟩
    obtain ⟨b, hb, heq⟩ := List.mem_map.mp hmem
    have hb' : b.toNat = 47 := by rw [← toNat_ofNat_toNat, heq]; rfl
    obtain rfl : b = 47 := UInt8.toNat_inj.mp hb'
    exact hslash hb

end RepairSearch.Files.Name
