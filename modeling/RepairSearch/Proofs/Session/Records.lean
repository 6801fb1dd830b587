import RepairSearch.Proofs.Json.Printed
import RepairSearch.Session.Summary

/-!
# Records of a session

Configurations, recorded patches and summaries are told by their JSON form: what is read from it is
what it was made of, as long as all numbers fit into a word.
-/

namespace RepairSearch

namespace Json

@[simp] theorem asString?_ofString (s : String) : (ofString s).asString? = some s := rfl

@[simp] theorem asBool?_bool (b : Bool) : (bool b).asBool? = some b := rfl

private theorem printable_strings (ss : List String) : Printable (array (ss.map ofString)) := by
  refine .array fun v hv => ?_
  obtain ⟨s, _, rfl⟩ := List.mem_map.mp hv
  exact .string s

private theorem printable_ofOption {α : Type} {g : α → Json} (h : ∀ a, Printable (g a))
    (o : Option α) :
    Printable (ofOption g o) := by
  cases o with
  | none => exact .null
  | some a => exact h a

private theorem asWord?_ofNat {n : Nat} (h : n < UInt64.size) : (ofNat n).asWord? = some n := by
  simp [ofNat, asWord?, Numeral.toWord?, Numeral.ofNat, Numeral.isInteger, value_digits, h]

private theorem asList?_map {α : Type} {f : Json → Option α} {g : α → Json} {as : List α}
    (h : ∀ a ∈ as, f (g a) = some a) : (array (as.map g)).asList? f = some as := by
  rw [asList?]
  induction as with
  | nil => rfl
  | cons a as ih =>
    have ha := h a List.mem_cons_self
    have has := ih fun b hb => h b (List.mem_cons_of_mem a hb)
    simp [ha, has]

private theorem asOption?_ofOption {α : Type} {f : Json → Option α} {g : α → Json} {o : Option α}
    (h : ∀ a ∈ o, g a ≠ null ∧ f (g a) = some a) : (ofOption g o).asOption? f = some o := by
  cases o with
  | none => rfl
  | some a =>
    obtain ⟨hnull, ha⟩ := h a rfl
    rw [ofOption, asOption?]
    · rw [ha, Option.map_some]
    · exact hnull

private theorem ofNat_injective : Function.Injective ofNat := by
  intro m n h
  have hdigits : Numeral.digits m = Numeral.digits n := congrArg Numeral.whole (number.inj h)
  rw [← value_digits m, hdigits, value_digits]

private theorem ofString_injective : Function.Injective ofString := fun _ _ h =>
  Option.some.inj (string.inj h)

private theorem ofOption_injective {α : Type} {g : α → Json} (hg : Function.Injective g)
    (hnull : ∀ a, g a ≠ null) : Function.Injective (ofOption g) := by
  rintro (_ | a) (_ | b) h
  · rfl
  · exact absurd h.symm (hnull b)
  · exact absurd h (hnull a)
  · exact congrArg some (hg h)

private theorem filter_named {ms : List (String × Json)} (hkeys : (ms.map (·.1)).Nodup) {k : String}
    {v : Json} (h : (k, v) ∈ ms) :
    (named ms).filter (fun (k', _) => k' == some k) = [(some k, v)] := by
  induction ms with
  | nil => cases h
  | cons m ms ih =>
    obtain ⟨hkey, hrest⟩ := List.nodup_cons.mp hkeys
    have hnamed : named (m :: ms) = (some m.1, m.2) :: named ms := rfl
    rw [hnamed]
    rcases List.mem_cons.mp h with rfl | hmem
    · have hnone : (named ms).filter (fun (k', _) => k' == some k) = [] := by
        rw [List.filter_eq_nil_iff]
        intro m hm
        obtain ⟨⟨k', v'⟩, hm', rfl⟩ := List.mem_map.mp hm
        have hne : k' ≠ k := by
          rintro rfl
          exact hkey (List.mem_map.mpr ⟨_, hm', rfl⟩)
        simpa using hne
      rw [List.filter_cons_of_pos (by simp), hnone]
    · have hne : m.1 ≠ k := by
        rintro rfl
        exact hkey (List.mem_map.mpr ⟨_, hmem, rfl⟩)
      rw [List.filter_cons_of_neg (by simpa using hne), ih hrest hmem]

private theorem asRecord?_ofMembers {ms : List (String × Json)} (hkeys : (ms.map (·.1)).Nodup)
    {fields : List (String × Presence)} (hfields : fields.map (·.1) = ms.map (·.1)) :
    (ofMembers ms).asRecord? fields = some (ms.map fun m => some m.2) := by
  have hmembers : ∀ (rest : List (String × Json)) (fields : List (String × Presence)),
      (∀ m ∈ rest, m ∈ ms) → fields.map (·.1) = rest.map (·.1) →
      fieldsOfMembers (named ms) fields = some (rest.map fun m => some m.2) := by
    intro rest
    induction rest with
    | nil =>
      intro fields _ hfields
      rw [List.map_eq_nil_iff.mp hfields]
      rfl
    | cons m rest ih =>
      intro fields hsub hfields
      obtain ⟨⟨name, presence⟩, fields, rfl, hname, hrest⟩ := List.map_eq_cons_iff.mp hfields
      obtain rfl : name = m.1 := hname
      have htail := ih fields (fun m' hm' => hsub m' (List.mem_cons_of_mem m hm')) hrest
      have hone := filter_named hkeys (hsub m List.mem_cons_self)
      rw [fieldsOfMembers, htail]
      simp [hone]
  have hnamed : (named ms).all (·.1.isSome) = true := by simp [named]
  rw [ofMembers, asRecord?]
  exact (if_pos hnamed).trans (hmembers ms fields (fun _ h => h) hfields)

end Json

open Json

namespace MutationKind

theorem ofJson?_toJson (k : MutationKind) : ofJson? k.toJson = some k := by
  cases k <;> rfl

private theorem printable_toJson (k : MutationKind) : Printable k.toJson := .string _

end MutationKind

namespace MutationPolicy

private theorem ofJson?_toJson (p : MutationPolicy) : ofJson? p.toJson = some p := by
  cases p with
  | random => rfl
  | fixed kind => cases kind <;> rfl

private theorem toJson_injective : Function.Injective toJson := fun p q h =>
  Option.some.inj <| by rw [← p.ofJson?_toJson, h, q.ofJson?_toJson]

private theorem printable_toJson (p : MutationPolicy) : Printable p.toJson := by
  cases p with
  | random => exact .string _
  | fixed kind => exact .object (by simpa using kind.printable_toJson)

end MutationPolicy

namespace RecursionPolicy

private theorem ofJson?_toJson (p : RecursionPolicy) : ofJson? p.toJson = some p := by
  cases p <;> rfl

private theorem toJson_injective : Function.Injective toJson := fun p q h =>
  Option.some.inj <| by rw [← p.ofJson?_toJson, h, q.ofJson?_toJson]

private theorem printable_toJson (p : RecursionPolicy) : Printable p.toJson := .string _

end RecursionPolicy

namespace RecordedPatch

/-- All numbers fit into a word. -/
structure Fits (p : RecordedPatch) : Prop where
  candidate : p.candidate < UInt64.size
  generation : p.generation < UInt64.size

theorem ofJson?_toJson {p : RecordedPatch} (h : p.Fits) : ofJson? p.toJson = some p := by
  have hmutations : (array (p.mutations.map ofString)).asList? asString? = some p.mutations :=
    asList?_map fun s _ => asString?_ofString s
  have hcompiled : (ofOption ofString p.compiled).asOption? asString? = some p.compiled :=
    asOption?_ofOption fun s _ => ⟨by simp [ofString], asString?_ofString s⟩
  rw [ofJson?, toJson, asRecord?_ofMembers (by simp) (by simp)]
  simp [asWord?_ofNat h.candidate, asWord?_ofNat h.generation, hmutations, hcompiled]

theorem printable_toJson (p : RecordedPatch) : Printable p.toJson := by
  refine .object ?_
  simp [Printable.nat, Printable.string, printable_strings, printable_ofOption]

private theorem toJson_injective : Function.Injective toJson := by
  intro p q h
  have hstrings (ss ts : List String) : ss.map ofString = ts.map ofString ↔ ss = ts :=
    List.map_inj_right fun _ _ => ofString_injective.eq_iff.mp
  have hoption := ofOption_injective ofString_injective fun _ => nofun
  cases p
  cases q
  simp only [toJson, ofMembers, object.injEq, List.map_cons, List.map_nil, List.cons.injEq,
    Prod.mk.injEq, true_and, and_true, array.injEq, ofNat_injective.eq_iff,
    ofString_injective.eq_iff, hoption.eq_iff, hstrings] at h
  simpa only [mk.injEq] using h

end RecordedPatch

namespace Config

/-- All numbers fit into a word. -/
structure Fits (c : Config) : Prop where
  candidates : c.candidates < UInt64.size
  generations : c.generations < UInt64.size
  attempts : c.attempts < UInt64.size
  seed : c.seed < UInt64.size
  timeout : ∀ n ∈ c.timeoutSeconds, n < UInt64.size

private theorem ofJson?_toJson {c : Config} (h : c.Fits) : ofJson? c.toJson = some c := by
  have hstrings (ss : List String) : (array (ss.map ofString)).asList? asString? = some ss :=
    asList?_map fun s _ => asString?_ofString s
  have hoption (o : Option String) : (ofOption ofString o).asOption? asString? = some o :=
    asOption?_ofOption fun s _ => ⟨by simp [ofString], asString?_ofString s⟩
  have htimeout : (ofOption ofNat c.timeoutSeconds).asOption? asWord? = some c.timeoutSeconds :=
    asOption?_ofOption fun n hn => ⟨by simp [ofNat], asWord?_ofNat (h.timeout n hn)⟩
  rw [ofJson?, toJson, asRecord?_ofMembers (by simp) (by simp), Option.bind_eq_bind,
    Option.bind_some]
  -- All fields are there, so the first of them is read next.
  change (array (c.sources.map ofString)).asList? asString? >>= _ = _
  rw [hstrings, hstrings, hoption, hoption, htimeout, asWord?_ofNat h.candidates,
    asWord?_ofNat h.generations, asWord?_ofNat h.attempts, asWord?_ofNat h.seed,
    MutationPolicy.ofJson?_toJson, RecursionPolicy.ofJson?_toJson]
  rfl

private theorem printable_toJson (c : Config) : Printable c.toJson := by
  refine .object ?_
  simp [Printable.nat, Printable.string, Printable.bool, printable_strings, printable_ofOption,
    MutationPolicy.printable_toJson, RecursionPolicy.printable_toJson]

private theorem toJson_injective : Function.Injective toJson := by
  intro c d h
  have hstrings (ss ts : List String) : ss.map ofString = ts.map ofString ↔ ss = ts :=
    List.map_inj_right fun _ _ => ofString_injective.eq_iff.mp
  have hoption := ofOption_injective ofString_injective fun _ => nofun
  have htimeout := ofOption_injective ofNat_injective fun _ => nofun
  cases c
  cases d
  simp only [toJson, ofMembers, object.injEq, List.map_cons, List.map_nil, List.cons.injEq,
    Prod.mk.injEq, true_and, and_true, array.injEq, bool.injEq, ofNat_injective.eq_iff,
    ofString_injective.eq_iff, hoption.eq_iff, htimeout.eq_iff, hstrings,
    MutationPolicy.toJson_injective.eq_iff, RecursionPolicy.toJson_injective.eq_iff] at h
  simpa only [mk.injEq] using h

end Config

namespace Summary

/-- All numbers fit into a word. -/
structure Fits (s : Summary) : Prop where
  config : s.config.Fits
  candidatesRun : s.candidatesRun < UInt64.size
  candidatesFailed : s.candidatesFailed < UInt64.size
  compilations : s.compilations < UInt64.size
  testRuns : s.testRuns < UInt64.size
  patches : ∀ p ∈ s.patches, p.Fits
  milliseconds : s.milliseconds < UInt64.size

theorem ofJson?_toJson {s : Summary} (h : s.Fits) : ofJson? s.toJson = some s := by
  have hpatches : (array (s.patches.map RecordedPatch.toJson)).asList? RecordedPatch.ofJson? =
      some s.patches :=
    asList?_map fun p hp => RecordedPatch.ofJson?_toJson (h.patches p hp)
  rw [ofJson?, toJson, asRecord?_ofMembers (by simp) (by simp)]
  simp [Config.ofJson?_toJson h.config, hpatches, asWord?_ofNat h.candidatesRun,
    asWord?_ofNat h.candidatesFailed, asWord?_ofNat h.compilations, asWord?_ofNat h.testRuns,
    asWord?_ofNat h.milliseconds]

theorem printable_toJson (s : Summary) : Printable s.toJson := by
  have hpatches : Printable (array (s.patches.map RecordedPatch.toJson)) := by
    refine .array fun j hj => ?_
    obtain ⟨p, _, rfl⟩ := List.mem_map.mp hj
    exact p.printable_toJson
  refine .object ?_
  simp [Printable.nat, Printable.string, Config.printable_toJson, hpatches]

private theorem toJson_injective : Function.Injective toJson := by
  intro s t h
  have hpatches (ps qs : List RecordedPatch) :
      ps.map RecordedPatch.toJson = qs.map RecordedPatch.toJson ↔ ps = qs :=
    List.map_inj_right fun _ _ => RecordedPatch.toJson_injective.eq_iff.mp
  cases s
  cases t
  simp only [toJson, ofMembers, object.injEq, List.map_cons, List.map_nil, List.cons.injEq,
    Prod.mk.injEq, true_and, and_true, array.injEq, ofNat_injective.eq_iff,
    ofString_injective.eq_iff, Config.toJson_injective.eq_iff, hpatches] at h
  simpa only [mk.injEq] using h

theorem eq_of_compact {s t : Summary} (h : s.toJson.compact = t.toJson.compact) : s = t := by
  have hread := read?_compact s.printable_toJson
  rw [h, read?_compact t.printable_toJson] at hread
  exact toJson_injective (Option.some.inj hread).symm

end Summary

end RepairSearch
