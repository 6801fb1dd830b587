import Mathlib.Algebra.BigOperators.Group.List.Basic
import Mathlib.Algebra.Order.BigOperators.Group.List
import Mathlib.Algebra.Order.Field.Rat
import Mathlib.Data.List.Infix
import Mathlib.Tactic.Linarith
import RepairSearch.Proofs.Pool

/-!
# What a number selects

With weights that are added without rounding, the entries of a pool cut the line from zero to the
total into intervals, each as long as its weight and open on the left. A number selects the entry
whose interval it falls into; halving the line finds the same entry as looking at one entry after
the other.
-/

namespace RepairSearch

/-- Weights whose finite values stand for numbers, and are added and compared as these. Nothing is
known of other values but that they are not finite. -/
class Weight.Exact (W : Type) [Weight W] where
  value : W → ℚ
  finite_zero : Weight.isFinite (Weight.zero : W) = true
  value_zero : value Weight.zero = 0
  finite_add : ∀ {v w : W}, Weight.isFinite v = true → Weight.isFinite w = true →
    Weight.isFinite (v + w) = true
  value_add : ∀ {v w : W}, Weight.isFinite v = true → Weight.isFinite w = true →
    value (v + w) = value v + value w
  less_iff : ∀ {v w : W}, Weight.isFinite v = true → Weight.isFinite w = true →
    (Weight.less v w = true ↔ value v < value w)

namespace Weight.Exact

variable {W : Type} [Weight W] [Weight.Exact W] {w : W}

private theorem isPositive_iff (h : Weight.isFinite w = true) :
    Weight.isPositive w = true ↔ 0 < value w := by
  rw [Weight.isPositive, less_iff finite_zero h, value_zero]

private theorem isLegal_iff : Weight.isLegal w = true ↔ Weight.isFinite w = true ∧ 0 ≤ value w := by
  rw [Weight.isLegal, Bool.and_eq_true]
  refine and_congr_right fun h => ?_
  rw [Bool.not_eq_true', ← Bool.not_eq_true, less_iff h finite_zero, value_zero, not_lt]

end Weight.Exact

namespace Pool

open Weight.Exact (value)

variable {W : Type} [Weight W]

/-- The pool after a statement was offered to it; one with a weight that is not legal is not
taken. -/
def offer (p : Pool W) (call : StatementRef × W) : Pool W :=
  match p.add call.1 call.2 with
  | .ok p => p
  | .error _ => p

/-- An offer with a legal weight is not turned down. -/
theorem add_eq_offer {p : Pool W} {r : StatementRef} {w : W} (h : Weight.isLegal w = true) :
    p.add r w = .ok (p.offer (r, w)) := by
  rw [offer, add, if_pos h]

private theorem offer_of_isLegal {p : Pool W} {call : StatementRef × W}
    (h : Weight.isLegal call.2 = true) :
    p.offer call = ⟨p.entries.push ⟨p.total + call.2, call.2, call.1⟩, p.total + call.2⟩ := by
  rw [offer, add, if_pos h]

private theorem offer_of_not {p : Pool W} {call : StatementRef × W}
    (h : ¬ Weight.isLegal call.2 = true) :
    p.offer call = p := by
  rw [offer, add, if_neg h]

/-- Looks at the entries with positive weights, the first one first: the first that does not lie
left of a number, or else the last one. -/
def scan (p : Pool W) (draw : W) : Option (Entry W) :=
  let heavy := p.entries.toList.filter fun e => Weight.isPositive e.weight
  (heavy.find? fun e => !Weight.less e.cumulative draw).or heavy.getLast?

/-- The statement of the entry that was found. -/
def answer : Option (Entry W) → Except RepairError StatementRef
  | some e => .ok e.statement
  | none => .error .emptyPool

private theorem find?_filter_of_split {α : Type} {xs : List α} {heavy right : α → Bool} {n : Nat}
    (hsplit : ∀ i x, xs[i]? = some x → (right x = true ↔ n ≤ i)) :
    (xs.filter heavy).find? right = (xs.drop n).find? heavy := by
  have hskip : ((xs.take n).filter heavy).find? right = none := by
    refine List.find?_eq_none.mpr fun x hx => ?_
    obtain ⟨i, hi⟩ := List.mem_iff_getElem?.mp (List.mem_of_mem_filter hx)
    rw [List.getElem?_take] at hi
    split at hi
    · rename_i hin
      rw [hsplit i x hi]
      exact Nat.not_le.mpr hin
    · cases hi
  have hrest : ((xs.drop n).filter heavy).find? right = (xs.drop n).find? heavy := by
    rw [List.find?_filter, ← List.head?_filter, ← List.head?_filter]
    refine congrArg List.head? (List.filter_congr fun x hx => ?_)
    obtain ⟨i, hi⟩ := List.mem_iff_getElem?.mp hx
    rw [List.getElem?_drop] at hi
    simp [(hsplit _ x hi).mpr (Nat.le_add_right n i)]
  conv_lhs =>
    rw [← List.take_append_drop n xs, List.filter_append, List.find?_append, hskip, Option.none_or,
      hrest]

private theorem scan_of_split {p : Pool W} {draw : W} {n : Nat}
    (hsplit : ∀ i e, p.entries.toList[i]? = some e →
      (Weight.less e.cumulative draw = true ↔ i < n)) :
    p.scan draw = ((p.entries.toList.drop n).find? fun e => Weight.isPositive e.weight).or
      (p.entries.toList.reverse.find? fun e => Weight.isPositive e.weight) := by
  rw [scan, List.getLast?_filter]
  refine congrArg (Option.or · _) (find?_filter_of_split fun i e he => ?_)
  rw [Bool.not_eq_true', ← Bool.not_eq_true, hsplit i e he, not_lt]

variable [Weight.Exact W] {p : Pool W} {e e' : Entry W} {i j : Nat}

/-- Where on the line the entry with a number begins. -/
def startOf (p : Pool W) (i : Nat) : ℚ :=
  ((p.entries.toList.take i).map fun e => value e.weight).sum

private theorem startOf_succ (h : p.entries.toList[i]? = some e) :
    p.startOf (i + 1) = p.startOf i + value e.weight := by
  rw [startOf, startOf, List.take_add_one, h, Option.toList_some, List.map_append, List.sum_append,
    List.map_singleton, List.sum_singleton]

/-- The entries stand end to end on the line. -/
structure Laid (p : Pool W) : Prop where
  legal : ∀ e ∈ p.entries.toList, Weight.isLegal e.weight = true
  finite : ∀ e ∈ p.entries.toList, Weight.isFinite e.cumulative = true
  cumulative : ∀ i e, p.entries.toList[i]? = some e → value e.cumulative = p.startOf (i + 1)
  finite_total : Weight.isFinite p.total = true
  total : value p.total = p.startOf p.entries.toList.length

private theorem laid_empty : Laid (empty : Pool W) where
  legal e he := absurd he List.not_mem_nil
  finite e he := absurd he List.not_mem_nil
  cumulative i e he := by simp [empty] at he
  finite_total := Weight.Exact.finite_zero
  total := Weight.Exact.value_zero

private theorem startOf_push_of_le (e : Entry W) (total : W) (hi : i ≤ p.entries.toList.length) :
    startOf ⟨p.entries.push e, total⟩ i = p.startOf i := by
  rw [startOf, startOf, Array.toList_push, List.take_append_of_le_length hi]

private theorem startOf_push_last (e : Entry W) (total : W) :
    startOf ⟨p.entries.push e, total⟩ (p.entries.toList.length + 1) =
      p.startOf p.entries.toList.length + value e.weight := by
  rw [startOf_succ (e := e) (by simp), startOf_push_of_le e total (Nat.le_refl _)]

private theorem Laid.push (h : Laid p) (r : StatementRef) {w : W}
    (hlegal : Weight.isLegal w = true) :
    Laid ⟨p.entries.push ⟨p.total + w, w, r⟩, p.total + w⟩ := by
  obtain ⟨hfinite, _⟩ := Weight.Exact.isLegal_iff.mp hlegal
  have hsum : Weight.isFinite (p.total + w) = true :=
    Weight.Exact.finite_add h.finite_total hfinite
  have hend : value (p.total + w) =
      startOf ⟨p.entries.push ⟨p.total + w, w, r⟩, p.total + w⟩ (p.entries.toList.length + 1) := by
    rw [startOf_push_last, ← h.total, Weight.Exact.value_add h.finite_total hfinite]
  have hmem (e : Entry W) (he : e ∈ (p.entries.push ⟨p.total + w, w, r⟩).toList) :
      e ∈ p.entries.toList ∨ e = ⟨p.total + w, w, r⟩ := by
    rwa [Array.toList_push, List.mem_append, List.mem_singleton] at he
  refine ⟨fun e he => ?_, fun e he => ?_, fun i e he => ?_, hsum, ?_⟩
  · rcases hmem e he with hold | rfl
    · exact h.legal e hold
    · exact hlegal
  · rcases hmem e he with hold | rfl
    · exact h.finite e hold
    · exact hsum
  · rw [Array.toList_push, List.getElem?_append] at he
    split at he
    · rename_i hi
      rw [startOf_push_of_le _ _ hi]
      exact h.cumulative i e he
    · rename_i hi
      obtain ⟨hlast, rfl⟩ := List.getElem?_eq_some_iff.mp he
      rw [List.length_singleton] at hlast
      obtain rfl : i = p.entries.toList.length := by omega
      rw [← hend, List.getElem_singleton]
  · rw [Array.toList_push, List.length_append, List.length_singleton, hend]

private theorem Laid.offer (h : Laid p) (call : StatementRef × W) : Laid (p.offer call) := by
  by_cases hlegal : Weight.isLegal call.2 = true
  · rw [offer_of_isLegal hlegal]
    exact h.push call.1 hlegal
  · rwa [offer_of_not hlegal]

section

variable (h : Laid p)

include h

private theorem Laid.weight_nonneg (he : e ∈ p.entries.toList) : 0 ≤ value e.weight :=
  (Weight.Exact.isLegal_iff.mp (h.legal e he)).2

private theorem Laid.isPositive_iff (he : e ∈ p.entries.toList) :
    Weight.isPositive e.weight = true ↔ 0 < value e.weight :=
  Weight.Exact.isPositive_iff (Weight.Exact.isLegal_iff.mp (h.legal e he)).1

private theorem Laid.monotone_startOf : Monotone p.startOf := by
  refine monotone_nat_of_le_succ fun n => ?_
  cases he : p.entries.toList[n]? with
  | none =>
    have hlen := List.getElem?_eq_none_iff.mp he
    rw [startOf, startOf, List.take_of_length_le hlen, List.take_of_length_le (by omega)]
  | some e =>
    rw [startOf_succ he]
    exact le_add_of_nonneg_right (h.weight_nonneg (List.mem_of_getElem? he))

private theorem Laid.cumulative_mono (hi : p.entries.toList[i]? = some e)
    (hj : p.entries.toList[j]? = some e') (hij : i ≤ j) :
    value e.cumulative ≤ value e'.cumulative := by
  rw [h.cumulative i e hi, h.cumulative j e' hj]
  exact h.monotone_startOf (Nat.succ_le_succ hij)

private theorem Laid.total_pos_iff :
    0 < value p.total ↔ ∃ e ∈ p.entries.toList, 0 < value e.weight := by
  constructor
  · intro hpos
    by_contra! hnone
    have hsum : p.startOf p.entries.toList.length ≤ 0 := by
      rw [startOf, List.take_length]
      refine (List.sum_le_card_nsmul _ 0 fun x hx => ?_).trans_eq (nsmul_zero _)
      obtain ⟨e, he, rfl⟩ := List.mem_map.mp hx
      exact hnone e he
    rw [h.total] at hpos
    exact absurd hpos (not_lt.mpr hsum)
  · rintro ⟨e, he, hpos⟩
    obtain ⟨i, hi⟩ := List.mem_iff_getElem?.mp he
    have hlast := h.monotone_startOf (Nat.succ_le_of_lt (List.getElem?_eq_some_iff.mp hi).1)
    have hfirst : 0 ≤ p.startOf i := h.monotone_startOf (Nat.zero_le i)
    rw [h.total]
    rw [Nat.succ_eq_add_one, startOf_succ hi] at hlast
    linarith

private theorem Laid.hasWeight_iff : p.hasWeight = true ↔ 0 < value p.total :=
  Weight.Exact.isPositive_iff h.finite_total

section

variable {draw : W} (hdraw : Weight.isFinite draw = true)

include hdraw

private theorem Laid.less_iff (he : e ∈ p.entries.toList) :
    Weight.less e.cumulative draw = true ↔ value e.cumulative < value draw :=
  Weight.Exact.less_iff (h.finite e he) hdraw

private theorem Laid.less_iff_lt_firstAt (lo hi : Nat) (hhi : hi ≤ p.entries.size)
    (hleft : ∀ i e, p.entries.toList[i]? = some e → i < lo →
      Weight.less e.cumulative draw = true)
    (hright : ∀ i e, p.entries.toList[i]? = some e → hi ≤ i →
      ¬ Weight.less e.cumulative draw = true)
    (he : p.entries.toList[i]? = some e) :
    Weight.less e.cumulative draw = true ↔ i < p.firstAt draw lo hi := by
  fun_induction firstAt p draw lo hi with
  | case1 lo hi hlt mid m hm hless ih =>
    refine ih hhi (fun j e' he' hj => ?_) hright
    rw [← Array.getElem?_toList] at hm
    rw [h.less_iff hdraw (List.mem_of_getElem? hm)] at hless
    rw [h.less_iff hdraw (List.mem_of_getElem? he')]
    exact (h.cumulative_mono he' hm (Nat.le_of_lt_succ hj)).trans_lt hless
  | case2 lo hi hlt mid m hm hless ih =>
    refine ih (by omega) hleft fun j e' he' hj => ?_
    rw [← Array.getElem?_toList] at hm
    rw [h.less_iff hdraw (List.mem_of_getElem? hm), not_lt] at hless
    rw [h.less_iff hdraw (List.mem_of_getElem? he'), not_lt]
    exact hless.trans (h.cumulative_mono hm he' hj)
  | case3 lo hi hlt mid hm =>
    have hsize := Array.getElem?_eq_none_iff.mp hm
    omega
  | case4 lo hi hlt =>
    refine ⟨fun hless => ?_, hleft i e he⟩
    by_contra hi'
    exact hright i e he (by omega) hless

private theorem Laid.select_eq_scan : p.select draw = answer (p.scan draw) := by
  have hsplit (i : Nat) (e : Entry W) (he : p.entries.toList[i]? = some e) :=
    h.less_iff_lt_firstAt hdraw 0 p.entries.size (Nat.le_refl _)
      (fun j _ _ hj => absurd hj (Nat.not_lt_zero j))
      (fun j _ hj hle => absurd (List.getElem?_eq_some_iff.mp hj).1 (Nat.not_lt.mpr hle)) he
  rw [scan_of_split hsplit, Pool.select]
  split
  · rename_i hweight
    have hlight (e : Entry W) (he : e ∈ p.entries.toList) :
        ¬ Weight.isPositive e.weight = true := by
      intro hheavy
      have hpos := h.total_pos_iff.mpr ⟨e, he, (h.isPositive_iff he).mp hheavy⟩
      rw [h.hasWeight_iff.mpr hpos] at hweight
      cases hweight
    rw [List.find?_eq_none.mpr fun e he => hlight e (List.mem_of_mem_drop he),
      List.find?_eq_none.mpr fun e he => hlight e (List.mem_reverse.mp he)]
    rfl
  · rfl

private theorem Laid.scan_of_within (he : p.entries.toList[i]? = some e)
    (hstart : p.startOf i < value draw)
    (hstop : value draw ≤ p.startOf (i + 1)) : p.scan draw = some e := by
  have hsplit (j : Nat) (e' : Entry W) (he' : p.entries.toList[j]? = some e') :
      Weight.less e'.cumulative draw = true ↔ j < i := by
    rw [h.less_iff hdraw (List.mem_of_getElem? he'), h.cumulative j e' he']
    constructor
    · intro hlt
      by_contra hij
      exact absurd hlt (not_lt.mpr (hstop.trans (h.monotone_startOf (by omega))))
    · exact fun hji => (h.monotone_startOf (Nat.succ_le_of_lt hji)).trans_lt hstart
  have hheavy : Weight.isPositive e.weight = true := by
    rw [h.isPositive_iff (List.mem_of_getElem? he)]
    rw [startOf_succ he] at hstop
    linarith
  obtain ⟨hi, rfl⟩ := List.getElem?_eq_some_iff.mp he
  rw [scan_of_split hsplit, List.drop_eq_getElem_cons hi, List.find?_cons, hheavy]
  rfl

omit hdraw in
private theorem Laid.exists_within {x : ℚ} (hpos : 0 < x) (hx : x ≤ value p.total) :
    ∃ i e, p.entries.toList[i]? = some e ∧ p.startOf i < x ∧ x ≤ p.startOf (i + 1) := by
  rw [h.total] at hx
  generalize p.entries.toList.length = n at hx
  induction n with
  | zero => exact absurd hpos (not_lt.mpr hx)
  | succ n ih =>
    by_cases hn : x ≤ p.startOf n
    · exact ih hn
    · cases he : p.entries.toList[n]? with
      | some e => exact ⟨n, e, he, not_le.mp hn, hx⟩
      | none =>
        have hlen := List.getElem?_eq_none_iff.mp he
        rw [startOf, List.take_of_length_le (by omega)] at hx
        rw [startOf, List.take_of_length_le hlen] at hn
        exact absurd hx hn

private theorem Laid.scan_eq_some_iff (he : p.entries.toList[i]? = some e)
    (hheavy : 0 < value e.weight) (hpos : 0 < value draw) (hend : value draw ≤ value p.total) :
    p.scan draw = some e ↔ p.startOf i < value draw ∧ value draw ≤ p.startOf (i + 1) := by
  refine ⟨fun hscan => ?_, fun hin => h.scan_of_within hdraw he hin.1 hin.2⟩
  obtain ⟨j, e', he', hstart, hstop⟩ := h.exists_within hpos hend
  obtain rfl : e' = e :=
    Option.some.inj ((h.scan_of_within hdraw he' hstart hstop).symm.trans hscan)
  -- the entry is the same, and so is the end of its interval
  have hsame : p.startOf (i + 1) = p.startOf (j + 1) :=
    (h.cumulative i e' he).symm.trans (h.cumulative j e' he')
  rw [hsame]
  refine ⟨?_, hstop⟩
  rw [startOf_succ he, startOf_succ he'] at hsame
  linarith

end

end

private theorem laid_offers (calls : List (StatementRef × W)) : Laid (calls.foldl offer empty) := by
  induction calls using List.reverseRecOn with
  | nil => exact laid_empty
  | append_singleton calls call ih =>
    rw [List.foldl_append]
    exact ih.offer call

omit [Weight.Exact W] in
/-- A pool has the statements that were offered to it with legal weights. -/
theorem entries_offers (calls : List (StatementRef × W)) :
    (calls.foldl offer empty).entries.toList.map (fun e => (e.statement, e.weight)) =
      calls.filter fun call => Weight.isLegal call.2 := by
  induction calls using List.reverseRecOn with
  | nil => rfl
  | append_singleton calls call ih =>
    rw [List.foldl_append, List.foldl_cons, List.foldl_nil, List.filter_append, ← ih]
    by_cases hlegal : Weight.isLegal call.2 = true
    · rw [offer_of_isLegal hlegal, Array.toList_push, List.map_append, List.filter_cons,
        if_pos hlegal]
      rfl
    · rw [offer_of_not hlegal, List.filter_cons, if_neg hlegal, List.filter_nil, List.append_nil]

/-- Offers with weights that are not legal change nothing; the others make the entries of a pool,
whose cumulative weights never fall and end in the total, the sum of all weights. A selection fails
iff no weight is positive, and else finds what looking at one entry after the other finds. Of the
numbers on the line, up to the total, an entry with a positive weight is found by exactly those
behind the end of the entry before it and up to its own end, on a length equal to its weight. On a
pool with a positive total, a draw answers with the statement of an entry with a positive weight,
also if it is asked to avoid one. -/
theorem select_byIntervals (calls : List (StatementRef × W)) :
    let p := calls.foldl offer empty
    let accepted := calls.filter fun call => Weight.isLegal call.2
    let Heavy (r : StatementRef) : Prop :=
      ∃ e ∈ p.entries.toList, 0 < value e.weight ∧ e.statement = r
    p.entries.toList.map (fun e => (e.statement, e.weight)) = accepted ∧
      (p.entries.toList.map fun e => value e.cumulative).Pairwise (· ≤ ·) ∧
      value p.total = (accepted.map fun call => value call.2).sum ∧
      (∀ draw, p.select draw = .error .emptyPool ↔ ∀ e ∈ p.entries.toList, ¬ 0 < value e.weight) ∧
      (∀ draw, Weight.isFinite draw = true → p.select draw = answer (p.scan draw)) ∧
      (∀ i e, p.entries.toList[i]? = some e →
        value e.cumulative = p.startOf (i + 1) ∧
        p.startOf (i + 1) - p.startOf i = value e.weight ∧
        (0 < value e.weight → ∀ draw, Weight.isFinite draw = true →
          0 < value draw → value draw ≤ value p.total →
          (p.scan draw = some e ↔
            p.startOf i < value draw ∧ value draw ≤ p.startOf (i + 1)))) ∧
      (0 < value p.total → ∀ (σ : Type) [RandomSource σ W] (g : σ),
        (∃ r, (p.draw g).1 = .ok r ∧ Heavy r) ∧
        ∀ excluded, ∃ r, (p.drawExcluding excluded g).1 = .ok r ∧ Heavy r) := by
  intro p accepted Heavy
  have h : Laid p := laid_offers calls
  have hentries : p.entries.toList.map (fun e => (e.statement, e.weight)) = accepted :=
    entries_offers calls
  have hselect (hpos : 0 < value p.total) (draw : W) : ∃ r, p.select draw = .ok r ∧ Heavy r := by
    obtain ⟨e, he, hheavy⟩ := h.total_pos_iff.mp hpos
    obtain ⟨e, he, hheavy, hr⟩ := exists_select (h.hasWeight_iff.mpr hpos)
      ⟨e, he, (h.isPositive_iff he).mpr hheavy⟩ draw
    exact ⟨e.statement, hr, e, he, (h.isPositive_iff he).mp hheavy, rfl⟩
  refine ⟨hentries, ?_, ?_, fun draw => ?_, fun draw hdraw => h.select_eq_scan hdraw,
    fun i e he => ⟨h.cumulative i e he, ?_, fun hheavy draw hdraw hpos hend =>
      h.scan_eq_some_iff hdraw he hheavy hpos hend⟩, fun hpos σ _ g => ?_⟩
  · rw [List.pairwise_map, List.pairwise_iff_getElem]
    intro i j hi hj hij
    exact h.cumulative_mono (List.getElem?_eq_getElem hi) (List.getElem?_eq_getElem hj)
      (Nat.le_of_lt hij)
  · rw [h.total, startOf, List.take_length, ← hentries, List.map_map]
    rfl
  · constructor
    · intro hempty e he hheavy
      obtain ⟨r, hr, _⟩ := hselect (h.total_pos_iff.mpr ⟨e, he, hheavy⟩) draw
      rw [hr] at hempty
      cases hempty
    · intro hnone
      have hweight : ¬ p.hasWeight = true := by
        rw [h.hasWeight_iff, h.total_pos_iff]
        exact fun ⟨e, he, hheavy⟩ => hnone e he hheavy
      rw [Pool.select, if_pos (by simp [hweight])]
  · rw [startOf_succ he, add_sub_cancel_left]
  · exact ⟨exists_draw (hselect hpos) g, fun excluded =>
      exists_drawExcluding (hselect hpos) excluded g⟩

end Pool

instance : Weight ℚ where
  zero := 0
  one := 1
  less v w := v < w
  isFinite _ := true
  text := toString

instance : Weight.Exact ℚ where
  value w := w
  finite_zero := rfl
  value_zero := rfl
  finite_add _ _ := rfl
  value_add _ _ := rfl
  less_iff _ _ := decide_eq_true_iff

namespace Pool

/-- Of five statements with the weights 0, 2, -1, 0 and 1, one is not taken and two have no length.
The end of the second one still selects it, and so does all that is not behind it. -/
theorem select_byIntervals_zeros :
    let calls : List (StatementRef × ℚ) :=
      [(⟨0, 0⟩, 0), (⟨0, 1⟩, 2), (⟨0, 2⟩, -1), (⟨0, 3⟩, 0), (⟨0, 4⟩, 1)]
    let p := calls.foldl offer empty
    p.select (-1) = .ok ⟨0, 1⟩ ∧ p.select 2 = .ok ⟨0, 1⟩ ∧ p.select (9 / 4) = .ok ⟨0, 4⟩ ∧
      p.select 99 = .ok ⟨0, 4⟩ ∧
      ∀ draw : ℚ, 0 < draw → draw ≤ 3 →
        (p.scan draw = some ⟨3, 1, ⟨0, 4⟩⟩ ↔ 2 < draw ∧ draw ≤ 3) := by
  intro calls p
  obtain ⟨_, _, _, _, hscan, hinterval, _⟩ := select_byIntervals calls
  refine ⟨?_, ?_, ?_, ?_, ?_⟩
  · exact (hscan (-1) rfl).trans (by decide +kernel)
  · exact (hscan 2 rfl).trans (by decide +kernel)
  · exact (hscan (9 / 4) rfl).trans (by decide +kernel)
  · exact (hscan 99 rfl).trans (by decide +kernel)
  · intro draw hpos hend
    obtain ⟨_, _, hfound⟩ := hinterval 3 ⟨3, 1, ⟨0, 4⟩⟩ (by decide +kernel)
    have hstart : p.startOf 3 = 2 := by decide +kernel
    have hstop : p.startOf 4 = 3 := by decide +kernel
    have htotal : p.total = 3 := by decide +kernel
    have h := hfound one_pos draw rfl hpos (htotal ▸ hend)
    rwa [hstart, hstop] at h

end Pool

end RepairSearch
