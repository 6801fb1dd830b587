import Mathlib.Tactic.SplitIfs
import RepairSearch.Json.Printer
import RepairSearch.Json.Reader

/-!
# Reading what was printed

The reader takes back the values that the program prints: texts in which every string has one and
every number is a natural one. A value ends where its text ends, whatever comes behind it, as long
as that does not go on with a number.
-/

namespace RepairSearch.Json

private theorem hexDigit?_hexDigit {n : Nat} (hn : n < 16) :
    Reader.hexDigit? (Printer.hexDigit n) = some n := by
  have hall : ∀ n < 16, Reader.hexDigit? (Printer.hexDigit n) = some n := by decide
  exact hall n hn

/-- A piece in front of the pieces of the rest of a string. -/
def Reader.Piece.onto (p : Reader.Piece) :
    Option (List Reader.Piece × List Char) → Option (List Reader.Piece × List Char) :=
  Option.map fun (ps, rest) => (p :: ps, rest)

private theorem pieces_simple {e c : Char} (he : e ≠ 'u') (hc : Reader.simpleEscape? e = some c)
    (cs : List Char) :
    Reader.pieces ('\\' :: e :: cs) = (Reader.Piece.char c).onto (Reader.pieces cs) := by
  rw [Reader.pieces.eq_4 e cs fun _ _ _ _ _ hu _ => he hu, hc]
  cases Reader.pieces cs <;> rfl

private theorem pieces_plain {c : Char} (hquote : c ≠ '"') (hslash : c ≠ '\\') (hc : ¬ c.toNat < 32)
    (cs : List Char) : Reader.pieces (c :: cs) = (Reader.Piece.char c).onto (Reader.pieces cs) := by
  rw [Reader.pieces.eq_5 c cs hquote (fun _ _ _ _ _ h _ => hslash h) (fun _ _ h _ => hslash h),
    if_neg hc]
  cases Reader.pieces cs <;> rfl

private theorem pieces_unit {m n : Nat} (hm : m < 16) (hn : n < 16) (cs : List Char) :
    Reader.pieces ('\\' :: 'u' :: '0' :: '0' :: Printer.hexDigit m :: Printer.hexDigit n :: cs) =
      (Reader.Piece.unit (m * 16 + n)).onto (Reader.pieces cs) := by
  have hzero : Reader.hexDigit? '0' = some 0 := by decide
  rw [Reader.pieces, hzero, hexDigit?_hexDigit hm, hexDigit?_hexDigit hn]
  cases Reader.pieces cs <;> simp [Reader.Piece.onto]

private theorem pieces_escaped (c : Char) (cs : List Char) :
    ∃ p, Reader.pieces (Printer.escaped c ++ cs) = p.onto (Reader.pieces cs) ∧
      ∀ ps, Reader.text? (p :: ps) = (Reader.text? ps).map (c :: ·) := by
  have hchar (ps : List Reader.Piece) :
      Reader.text? (.char c :: ps) = (Reader.text? ps).map (c :: ·) := rfl
  rw [Printer.escaped]
  split_ifs with hquote hslash hline hreturn htab hback hfeed hcontrol
  · exact ⟨.char c, pieces_simple (by decide) (by rw [eq_of_beq hquote]; rfl) cs, hchar⟩
  · exact ⟨.char c, pieces_simple (by decide) (by rw [eq_of_beq hslash]; rfl) cs, hchar⟩
  · exact ⟨.char c, pieces_simple (by decide) (by rw [eq_of_beq hline]; rfl) cs, hchar⟩
  · exact ⟨.char c, pieces_simple (by decide) (by rw [eq_of_beq hreturn]; rfl) cs, hchar⟩
  · exact ⟨.char c, pieces_simple (by decide) (by rw [eq_of_beq htab]; rfl) cs, hchar⟩
  · exact ⟨.char c, pieces_simple (by decide) (by rw [eq_of_beq hback]; rfl) cs, hchar⟩
  · exact ⟨.char c, pieces_simple (by decide) (by rw [eq_of_beq hfeed]; rfl) cs, hchar⟩
  · refine ⟨_, pieces_unit (by omega) (by omega) cs, fun ps => ?_⟩
    have hnumber : c.toNat / 16 * 16 + c.toNat % 16 = c.toNat := by omega
    rw [hnumber, Reader.text?.eq_def]
    dsimp only
    rw [if_pos (by omega), Char.ofNat_toNat]
  · exact ⟨.char c, pieces_plain (by simpa using hquote) (by simpa using hslash) hcontrol cs, hchar⟩

private theorem string_printed (s : String) (rest : List Char) :
    ∃ cs, Printer.string s ++ rest = '"' :: cs ∧ Reader.string cs = some (some s, rest) := by
  have hpieces : ∀ cs : List Char, ∃ ps,
      Reader.pieces (cs.flatMap Printer.escaped ++ '"' :: rest) = some (ps, rest) ∧
        Reader.text? ps = some cs := by
    intro cs
    induction cs with
    | nil => exact ⟨[], rfl, rfl⟩
    | cons c cs ih =>
      obtain ⟨ps, hps, htext⟩ := ih
      obtain ⟨p, hp, hpc⟩ := pieces_escaped c (cs.flatMap Printer.escaped ++ '"' :: rest)
      refine ⟨p :: ps, ?_, by rw [hpc, htext, Option.map_some]⟩
      rw [List.flatMap_cons, List.append_assoc, hp, hps]
      rfl
  obtain ⟨ps, hps, htext⟩ := hpieces s.toList
  refine ⟨s.toList.flatMap Printer.escaped ++ '"' :: rest, ?_, ?_⟩
  · simp [Printer.string]
  · rw [Reader.string, hps, Option.map_some]
    dsimp only
    rw [htext, Option.map_some, String.ofList_toList]

/-- What follows a number does not go on with it. -/
def EndsNumber (rest : List Char) : Prop :=
  ∀ c ∈ rest.head?, c.isDigit = false ∧ c ≠ '.' ∧ c ≠ 'e' ∧ c ≠ 'E'

private theorem digit?_printed {d : Nat} (hd : d < 10) :
    Reader.digit? (Char.ofNat (d + 48)) = some d := by
  have hall : ∀ d < 10, Reader.digit? (Char.ofNat (d + 48)) = some d := by decide
  exact hall d hd

private theorem digits_printed {ds : List Nat} (hds : ∀ d ∈ ds, d < 10) {rest : List Char}
    (hrest : EndsNumber rest) : Reader.digits (Printer.digits ds ++ rest) = (ds, rest) := by
  induction ds with
  | nil =>
    cases rest with
    | nil => rfl
    | cons c rest =>
      have hc : Reader.digit? c = none := by
        simp [Reader.digit?, (hrest c rfl).1]
      simp [Printer.digits, Reader.digits, hc]
  | cons d ds ih =>
    have hd := digit?_printed (hds d List.mem_cons_self)
    have htail := ih fun d hd => hds d (List.mem_cons_of_mem _ hd)
    rw [Printer.digits] at htail ⊢
    rw [List.map_cons, List.cons_append, Reader.digits, hd, htail]

private theorem digits_lt {n d : Nat} (h : d ∈ Numeral.digits n) : d < 10 := by
  obtain ⟨c, hc, rfl⟩ := List.mem_map.mp h
  have hdigit := Nat.isDigit_of_mem_toDigits (by decide : 0 < 10) (Nat.le_refl 10) hc
  simp only [Char.isDigit, Bool.and_eq_true, decide_eq_true_eq, UInt32.le_iff_toNat_le] at hdigit
  have hrange : 48 ≤ c.val.toNat ∧ c.val.toNat ≤ 57 := hdigit
  change c.val.toNat - 48 < 10
  omega

theorem value_digits (n : Nat) : Numeral.value (Numeral.digits n) = n := by
  have hfold (cs : List Char) (k : Nat) :
      (cs.map fun c => c.toNat - '0'.toNat).foldl (fun n d => n * 10 + d) k =
        cs.foldl (fun n c => 10 * n + (c.toNat - '0'.toNat)) k := by
    rw [List.foldl_map]
    simp only [Nat.mul_comm]
  rw [Numeral.value, Numeral.digits, hfold, ← Nat.ofDigitChars_eq_foldl,
    Nat.ofDigitChars_ten_toDigits]

private theorem digits_ne_nil (n : Nat) : Numeral.digits n ≠ [] := by
  simp [Numeral.digits, Nat.toDigits_ne_nil]

private theorem head?_digits {n : Nat} (h : (Numeral.digits n).head? = some 0) : n = 0 := by
  induction n using Nat.strongRecOn with
  | ind n ih =>
    by_cases hn : n < 10
    · have hone : Numeral.digits n = [(Nat.digitChar n).toNat - '0'.toNat] := by
        rw [Numeral.digits, Nat.toDigits_of_lt_base hn, List.map_singleton]
      have hvalue := value_digits n
      rw [hone, List.head?_cons, Option.some.injEq] at h
      rw [hone, h] at hvalue
      exact hvalue.symm
    · have hfront : ∃ d, Numeral.digits n = Numeral.digits (n / 10) ++ [d] := by
        rw [Numeral.digits, Nat.toDigits_of_base_le (by decide) (Nat.le_of_not_lt hn),
          List.map_append]
        exact ⟨_, rfl⟩
      obtain ⟨d, hd⟩ := hfront
      obtain ⟨d', ds, hds⟩ := List.exists_cons_of_ne_nil (digits_ne_nil (n / 10))
      rw [hd, hds] at h
      have hzero := ih (n / 10) (by omega) (by rw [hds]; exact h)
      omega

private theorem numeral_ofNat (n : Nat) :
    Printer.numeral (Numeral.ofNat n) = Printer.digits (Numeral.digits n) := by
  simp [Printer.numeral, Numeral.ofNat]

private theorem number_printed (n : Nat) {rest : List Char} (hrest : EndsNumber rest) :
    Reader.number (Printer.numeral (Numeral.ofNat n) ++ rest) =
      some (Numeral.ofNat n, rest) := by
  have hdigits1 : Reader.digits1 (Printer.digits (Numeral.digits n) ++ rest) =
      some (Numeral.digits n, rest) := by
    rw [Reader.digits1, digits_printed (fun d hd => digits_lt hd) hrest]
    cases hds : Numeral.digits n with
    | nil => exact absurd hds (digits_ne_nil n)
    | cons d ds => rfl
  have hfraction : Reader.fraction rest = some ([], rest) := by
    refine Reader.fraction.eq_2 rest ?_
    rintro cs rfl
    exact (hrest '.' rfl).2.1 rfl
  have hexponent : Reader.exponent rest = some (none, rest) := by
    cases rest with
    | nil => rfl
    | cons c rest =>
      obtain ⟨_, _, he, hE⟩ := hrest c rfl
      simp [Reader.exponent, he, hE]
  have hnegative : ∀ cs, Printer.digits (Numeral.digits n) ++ rest = '-' :: cs → False := by
    intro cs h
    rw [h] at hdigits1
    cases hdigits1
  have hzeros : ¬ ((Numeral.digits n).head? = some 0 ∧ 1 < (Numeral.digits n).length) := by
    rintro ⟨hhead, hlength⟩
    rw [head?_digits hhead] at hlength
    exact absurd hlength (by decide)
  rw [numeral_ofNat, Reader.number]
  · simp [hdigits1, hzeros, hfraction, hexponent, Numeral.ofNat]
  · exact hnegative

/-- The values that the program prints: their strings have texts and their numbers are natural. -/
inductive Printable : Json → Prop where
  | null : Printable .null
  | bool (b : Bool) : Printable (.bool b)
  | nat (n : Nat) : Printable (.ofNat n)
  | string (s : String) : Printable (.ofString s)
  | array {vs : List Json} (h : ∀ v ∈ vs, Printable v) : Printable (.array vs)
  | object {ms : List (String × Json)} (h : ∀ m ∈ ms, Printable m.2) : Printable (.ofMembers ms)

/-- Where a printed value has blanks: before what is in brackets and what closes them, and behind
the colons. -/
structure Layout where
  /-- The blanks before an item or a member, or before a closing bracket, of a level. -/
  gap : Nat → List Char
  space : List Char
  isBlank_gap : ∀ level, ∀ c ∈ gap level, Reader.isBlank c = true
  isBlank_space : ∀ c ∈ space, Reader.isBlank c = true

namespace Layout

mutual

def print (l : Layout) (level : Nat) : Json → List Char
  | .array [] => ['[', ']']
  | .array (v :: vs) => '[' :: l.gap (level + 1) ++ l.print (level + 1) v ++ l.printItems level vs
  | .object [] => [Printer.opening, Printer.closing]
  | .object ((k, v) :: ms) =>
    Printer.opening :: l.gap (level + 1) ++ Printer.string (k.getD "") ++ ':' :: l.space
      ++ l.print (level + 1) v ++ l.printMembers level ms
  | .null => Printer.compact .null
  | .bool b => Printer.compact (.bool b)
  | .number n => Printer.compact (.number n)
  | .string s => Printer.compact (.string s)

def printItems (l : Layout) (level : Nat) : List Json → List Char
  | [] => l.gap level ++ [']']
  | v :: vs => ',' :: l.gap (level + 1) ++ l.print (level + 1) v ++ l.printItems level vs

def printMembers (l : Layout) (level : Nat) : List (Option String × Json) → List Char
  | [] => l.gap level ++ [Printer.closing]
  | (k, v) :: ms =>
    ',' :: l.gap (level + 1) ++ Printer.string (k.getD "") ++ ':' :: l.space
      ++ l.print (level + 1) v ++ l.printMembers level ms

end

/-- The layout of the pretty form. -/
def lines : Layout where
  gap := Printer.newLine
  space := [' ']
  isBlank_gap level c hc := by
    rcases List.mem_cons.mp hc with rfl | hc
    · rfl
    · rw [List.eq_of_mem_replicate hc]
      rfl
  isBlank_space := by simp [Reader.isBlank]

/-- The layout of the compact form. -/
def line : Layout where
  gap _ := []
  space := []
  isBlank_gap := by simp
  isBlank_space := by simp

mutual

private theorem print_lines (level : Nat) : ∀ j : Json, lines.print level j = Printer.pretty level j
  | .array [] => by rw [print, Printer.pretty]
  | .array (v :: vs) => by
    rw [print, Printer.pretty, print_lines (level + 1) v, printItems_lines level vs, lines]
  | .object [] => by rw [print, Printer.pretty]
  | .object ((k, v) :: ms) => by
    rw [print, Printer.pretty, print_lines (level + 1) v, printMembers_lines level ms, lines]
  | .null | .bool _ | .number _ | .string _ => by rw [print, Printer.pretty]

theorem printItems_lines (level : Nat) :
    ∀ vs : List Json, lines.printItems level vs = Printer.prettyItems level vs
  | [] => by rw [printItems, Printer.prettyItems, lines]
  | v :: vs => by
    rw [printItems, Printer.prettyItems, print_lines (level + 1) v, printItems_lines level vs, lines]

theorem printMembers_lines (level : Nat) : ∀ ms : List (Option String × Json),
    lines.printMembers level ms = Printer.prettyMembers level ms
  | [] => by rw [printMembers, Printer.prettyMembers, lines]
  | (k, v) :: ms => by
    rw [printMembers, Printer.prettyMembers, print_lines (level + 1) v, printMembers_lines level ms,
      lines]

end

mutual

private theorem print_line (level : Nat) : ∀ j : Json, line.print level j = Printer.compact j
  | .array [] => by rw [print, Printer.compact]
  | .array (v :: vs) => by
    rw [print, Printer.compact, print_line (level + 1) v, printItems_line level vs, line]
    rfl
  | .object [] => by rw [print, Printer.compact]
  | .object ((k, v) :: ms) => by
    rw [print, Printer.compact, print_line (level + 1) v, printMembers_line level ms, line]
    simp
  | .null | .bool _ | .number _ | .string _ => by rw [print]

theorem printItems_line (level : Nat) :
    ∀ vs : List Json, line.printItems level vs = Printer.compactItems vs
  | [] => by rw [printItems, Printer.compactItems, line]; rfl
  | v :: vs => by
    rw [printItems, Printer.compactItems, print_line (level + 1) v, printItems_line level vs, line]
    rfl

theorem printMembers_line (level : Nat) : ∀ ms : List (Option String × Json),
    line.printMembers level ms = Printer.compactMembers ms
  | [] => by rw [printMembers, Printer.compactMembers, line]; rfl
  | (k, v) :: ms => by
    rw [printMembers, Printer.compactMembers, print_line (level + 1) v, printMembers_line level ms,
      line]
    simp

end

end Layout

private theorem skipBlanks_cons {c : Char} (hc : Reader.isBlank c = false) (cs : List Char) :
    Reader.skipBlanks (c :: cs) = c :: cs :=
  List.dropWhile_cons_of_neg (by simp [hc])

private theorem skipBlanks_append {bs : List Char} (hbs : ∀ c ∈ bs, Reader.isBlank c = true)
    (cs : List Char) : Reader.skipBlanks (bs ++ cs) = Reader.skipBlanks cs := by
  rw [Reader.skipBlanks, List.dropWhile_append_of_pos hbs]
  rfl

private theorem exists_digit (n : Nat) :
    ∃ c cs, Printer.numeral (Numeral.ofNat n) = c :: cs ∧ c.isDigit = true := by
  obtain ⟨d, ds, hds⟩ := List.exists_cons_of_ne_nil (digits_ne_nil n)
  have hd : d < 10 := digits_lt (n := n) (by rw [hds]; exact List.mem_cons_self)
  have hall : ∀ d < 10, (Char.ofNat (d + 48)).isDigit = true := by decide
  refine ⟨Char.ofNat (d + 48), Printer.digits ds, ?_, hall d hd⟩
  rw [numeral_ofNat, hds]
  rfl

private theorem isBlank_of_isDigit {c : Char} (hc : c.isDigit = true) :
    Reader.isBlank c = false := by
  rw [Bool.eq_false_iff]
  intro hblank
  simp only [Reader.isBlank, Bool.or_eq_true, beq_iff_eq] at hblank
  obtain ((rfl | rfl) | rfl) | rfl := hblank
  all_goals cases hc

private theorem Layout.print_eq_cons (l : Layout) {j : Json} (h : Printable j) (level : Nat) :
    ∃ c cs, l.print level j = c :: cs ∧ Reader.isBlank c = false ∧ c ≠ ']' ∧ c ≠ '\x7d' := by
  cases h with
  | null => exact ⟨_, _, rfl, by decide, by decide, by decide⟩
  | bool b => cases b <;> exact ⟨_, _, rfl, by decide, by decide, by decide⟩
  | nat n =>
    obtain ⟨c, cs, hcs, hc⟩ := exists_digit n
    refine ⟨c, cs, hcs, isBlank_of_isDigit hc, ?_, ?_⟩
    all_goals
      rintro rfl
      cases hc
  | string s => exact ⟨_, _, rfl, by decide, by decide, by decide⟩
  | @array vs h => cases vs <;> exact ⟨_, _, rfl, by decide, by decide, by decide⟩
  | @object ms h => cases ms <;> exact ⟨_, _, rfl, by decide, by decide, by decide⟩

section

variable {bs : List Char} (hbs : ∀ c ∈ bs, Reader.isBlank c = true) (depth : Nat) (cs : List Char)
include hbs

private theorem value_append : Reader.value depth (bs ++ cs) = Reader.value depth cs := by
  cases depth with
  | zero => rfl
  | succ depth => rw [Reader.value, Reader.value, skipBlanks_append hbs]

private theorem items_append : Reader.items depth (bs ++ cs) = Reader.items depth cs := by
  cases depth with
  | zero => rfl
  | succ depth => rw [Reader.items, Reader.items, value_append hbs]

private theorem members_append : Reader.members depth (bs ++ cs) = Reader.members depth cs := by
  cases depth with
  | zero => rfl
  | succ depth => rw [Reader.members, Reader.members, skipBlanks_append hbs]

end

/-- A value is read from where it is printed, at any depth that its text allows for. -/
def Layout.Reads (l : Layout) (j : Json) : Prop :=
  ∀ level depth rest, EndsNumber rest → (l.print level j).length ≤ depth →
    Reader.value depth (l.print level j ++ rest) = some (j, rest)

private theorem endsNumber_append {bs cs : List Char} (hbs : ∀ c ∈ bs, Reader.isBlank c = true)
    (hcs : EndsNumber cs) : EndsNumber (bs ++ cs) := by
  cases bs with
  | nil => exact hcs
  | cons b bs =>
    rintro c ⟨⟩
    have hb := hbs b List.mem_cons_self
    refine ⟨?_, ?_, ?_, ?_⟩
    · cases hdigit : b.isDigit with
      | false => rfl
      | true => rw [isBlank_of_isDigit hdigit] at hb; cases hb
    all_goals
      rintro rfl
      cases hb

private theorem Layout.endsNumber_items (l : Layout) (level : Nat) (vs : List Json)
    (rest : List Char) :
    EndsNumber (l.printItems level vs ++ rest) := by
  cases vs with
  | nil =>
    rw [printItems, List.append_assoc]
    exact endsNumber_append (l.isBlank_gap level) (by rintro c ⟨⟩; decide)
  | cons v vs => rintro c ⟨⟩; decide

private theorem Layout.endsNumber_members (l : Layout) (level : Nat)
    (ms : List (Option String × Json))
    (rest : List Char) : EndsNumber (l.printMembers level ms ++ rest) := by
  cases ms with
  | nil =>
    rw [printMembers, List.append_assoc]
    exact endsNumber_append (l.isBlank_gap level) (by rintro c ⟨⟩; decide)
  | cons m ms => rintro c ⟨⟩; decide

section

variable {v : Json} {vs : List Json} {k : Option String} {ms : List (Option String × Json)}
  {depth : Nat} {cs cs₁ cs₂ cs₃ rest : List Char}

private theorem value_string {s : Option String} (hs : Reader.string cs = some (s, rest)) :
    Reader.value (depth + 1) ('"' :: cs) = some (.string s, rest) := by
  rw [Reader.value, skipBlanks_cons (by decide)]
  simp [hs]

private theorem value_number {c : Char} (hc : c.isDigit = true) {n : Numeral}
    (hn : Reader.number (c :: cs) = some (n, rest)) :
    Reader.value (depth + 1) (c :: cs) = some (.number n, rest) := by
  rw [Reader.value, skipBlanks_cons (isBlank_of_isDigit hc)]
  split
  case h_7 => rw [hn, Option.map_some]
  all_goals
    rename_i hcs
    obtain ⟨rfl, _⟩ := List.cons.inj hcs
    cases hc

private theorem value_array {c : Char} (hcs : Reader.skipBlanks cs = c :: cs₁) (hc : c ≠ ']')
    (hvs : Reader.items depth (c :: cs₁) = some (vs, rest)) :
    Reader.value (depth + 1) ('[' :: cs) = some (.array vs, rest) := by
  rw [Reader.value, skipBlanks_cons (by decide)]
  simp [hcs, hc, hvs]

private theorem value_object {c : Char} (hcs : Reader.skipBlanks cs = c :: cs₁) (hc : c ≠ '\x7d')
    (hms : Reader.members depth (c :: cs₁) = some (ms, rest)) :
    Reader.value (depth + 1) ('\x7b' :: cs) = some (.object ms, rest) := by
  rw [Reader.value, skipBlanks_cons (by decide)]
  simp [hcs, hc, hms]

private theorem items_last (hv : Reader.value depth cs = some (v, cs₁))
    (hclose : Reader.skipBlanks cs₁ = ']' :: rest) :
    Reader.items (depth + 1) cs = some ([v], rest) := by
  rw [Reader.items, hv]
  simp [hclose]

private theorem items_next (hv : Reader.value depth cs = some (v, cs₁))
    (hcomma : Reader.skipBlanks cs₁ = ',' :: cs₂) (hvs : Reader.items depth cs₂ = some (vs, rest)) :
    Reader.items (depth + 1) cs = some (v :: vs, rest) := by
  rw [Reader.items, hv]
  simp [hcomma, hvs]

private theorem members_last (hcs : Reader.skipBlanks cs = '"' :: cs₁)
    (hk : Reader.string cs₁ = some (k, cs₂)) (hcolon : Reader.skipBlanks cs₂ = ':' :: cs₃)
    {cs₄ : List Char} (hv : Reader.value depth cs₃ = some (v, cs₄))
    (hclose : Reader.skipBlanks cs₄ = '\x7d' :: rest) :
    Reader.members (depth + 1) cs = some ([(k, v)], rest) := by
  rw [Reader.members, hcs]
  simp [hk, hcolon, hv, hclose]

private theorem members_next (hcs : Reader.skipBlanks cs = '"' :: cs₁)
    (hk : Reader.string cs₁ = some (k, cs₂)) (hcolon : Reader.skipBlanks cs₂ = ':' :: cs₃)
    {cs₄ cs₅ : List Char} (hv : Reader.value depth cs₃ = some (v, cs₄))
    (hcomma : Reader.skipBlanks cs₄ = ',' :: cs₅)
    (hms : Reader.members depth cs₅ = some (ms, rest)) :
    Reader.members (depth + 1) cs = some ((k, v) :: ms, rest) := by
  rw [Reader.members, hcs]
  simp [hk, hcolon, hv, hcomma, hms]

end

/-- The members of an object, whose keys have texts. -/
def named (ms : List (String × Json)) : List (Option String × Json) :=
  ms.map fun (k, v) => (some k, v)

namespace Layout

variable (l : Layout)

private theorem skipBlanks_close (level : Nat) {c : Char} (hc : Reader.isBlank c = false)
    (rest : List Char) : Reader.skipBlanks (l.gap level ++ [c] ++ rest) = c :: rest := by
  rw [List.append_assoc, skipBlanks_append (l.isBlank_gap level), List.singleton_append,
    skipBlanks_cons hc]

private theorem items_print {v : Json} {vs : List Json} (h : ∀ w ∈ v :: vs, l.Reads w)
    (level depth : Nat) (rest : List Char)
    (hdepth : (l.print (level + 1) v ++ l.printItems level vs).length ≤ depth) :
    Reader.items depth (l.print (level + 1) v ++ (l.printItems level vs ++ rest)) =
      some (v :: vs, rest) := by
  induction vs generalizing v depth with
  | nil =>
    simp only [printItems, List.length_append, List.length_singleton] at hdepth
    obtain ⟨depth, rfl⟩ := Nat.exists_eq_add_one_of_ne_zero (show depth ≠ 0 by omega)
    have hv := h v List.mem_cons_self (level + 1) depth _ (l.endsNumber_items level [] rest)
      (by omega)
    refine items_last hv ?_
    rw [printItems]
    exact l.skipBlanks_close level (by decide) rest
  | cons w vs ih =>
    simp only [printItems, List.length_append, List.length_cons] at hdepth
    obtain ⟨depth, rfl⟩ := Nat.exists_eq_add_one_of_ne_zero (show depth ≠ 0 by omega)
    have hv := h v List.mem_cons_self (level + 1) depth _ (l.endsNumber_items level (w :: vs) rest)
      (by omega)
    have hvs := ih (fun u hu => h u (List.mem_cons_of_mem v hu)) depth
      (by rw [List.length_append]; omega)
    have hcomma : Reader.skipBlanks (l.printItems level (w :: vs) ++ rest) =
        ',' :: (l.gap (level + 1) ++ (l.print (level + 1) w ++
          (l.printItems level vs ++ rest))) := by
      simp only [printItems, List.cons_append, List.append_assoc]
      exact skipBlanks_cons (by decide) _
    refine items_next hv hcomma ?_
    rw [items_append (l.isBlank_gap _)]
    exact hvs

private theorem members_print {k : String} {v : Json} {ms : List (String × Json)}
    (h : ∀ m ∈ (k, v) :: ms, l.Reads m.2) (level depth : Nat) (rest : List Char)
    (hdepth : (Printer.string k ++ (':' :: l.space ++ (l.print (level + 1) v ++
      l.printMembers level (named ms)))).length ≤ depth) :
    Reader.members depth (Printer.string k ++ (':' :: l.space ++ (l.print (level + 1) v ++
      (l.printMembers level (named ms) ++ rest)))) = some ((some k, v) :: named ms, rest) := by
  have hcolon (cs : List Char) :
      Reader.skipBlanks (':' :: l.space ++ cs) = ':' :: (l.space ++ cs) :=
    skipBlanks_cons (by decide) _
  induction ms generalizing k v depth with
  | nil =>
    simp only [named, List.map_nil, printMembers, List.length_append, List.length_cons] at hdepth
    obtain ⟨depth, rfl⟩ := Nat.exists_eq_add_one_of_ne_zero (show depth ≠ 0 by omega)
    have hv := h _ List.mem_cons_self (level + 1) depth _ (l.endsNumber_members level [] rest)
      (by simp only; omega)
    obtain ⟨cs, hcs, hk⟩ := string_printed k (':' :: l.space ++ (l.print (level + 1) v ++
      (l.printMembers level [] ++ rest)))
    refine members_last (by rw [named, List.map_nil, hcs]; exact skipBlanks_cons (by decide) cs) hk
      (hcolon _) ((value_append l.isBlank_space _ _).trans hv) ?_
    rw [printMembers]
    exact l.skipBlanks_close level (by decide) rest
  | cons m ms ih =>
    obtain ⟨k', v'⟩ := m
    have hnamed : named ((k', v') :: ms) = (some k', v') :: named ms := rfl
    rw [hnamed] at hdepth ⊢
    simp only [printMembers, Option.getD_some, List.length_append, List.length_cons] at hdepth
    obtain ⟨depth, rfl⟩ := Nat.exists_eq_add_one_of_ne_zero (show depth ≠ 0 by omega)
    have hv := h _ List.mem_cons_self (level + 1) depth _
      (l.endsNumber_members level ((some k', v') :: named ms) rest) (by simp only; omega)
    have hms := ih (fun m hm => h m (List.mem_cons_of_mem _ hm)) depth
      (by simp only [List.length_append, List.length_cons]; omega)
    obtain ⟨cs, hcs, hk⟩ := string_printed k (':' :: l.space ++ (l.print (level + 1) v ++
      (l.printMembers level ((some k', v') :: named ms) ++ rest)))
    have hcomma : Reader.skipBlanks (l.printMembers level ((some k', v') :: named ms) ++ rest) =
        ',' :: (l.gap (level + 1) ++ (Printer.string k' ++ (':' :: l.space ++
          (l.print (level + 1) v' ++ (l.printMembers level (named ms) ++ rest))))) := by
      simp only [printMembers, Option.getD_some, List.cons_append, List.append_assoc]
      exact skipBlanks_cons (by decide) _
    refine members_next (by rw [hcs]; exact skipBlanks_cons (by decide) cs) hk (hcolon _)
      ((value_append l.isBlank_space _ _).trans hv) hcomma ?_
    rw [members_append (l.isBlank_gap _)]
    exact hms

private theorem reads_of_succ {j : Json} (hj : Printable j)
    (h : ∀ level depth rest, EndsNumber rest → (l.print level j).length ≤ depth + 1 →
      Reader.value (depth + 1) (l.print level j ++ rest) = some (j, rest)) : l.Reads j := by
  intro level depth rest hrest hdepth
  obtain ⟨c, cs, hcs, _⟩ := l.print_eq_cons hj level
  have hpositive : 0 < (l.print level j).length := by simp [hcs]
  obtain ⟨depth, rfl⟩ := Nat.exists_eq_add_one_of_ne_zero (show depth ≠ 0 by omega)
  exact h level depth rest hrest hdepth

private theorem reads_of_printable {j : Json} (h : Printable j) : l.Reads j := by
  induction h with
  | null => exact l.reads_of_succ .null fun _ _ _ _ _ => rfl
  | bool b =>
    cases b with
    | true => exact l.reads_of_succ (.bool true) fun _ _ _ _ _ => rfl
    | false => exact l.reads_of_succ (.bool false) fun _ _ _ _ _ => rfl
  | nat n =>
    refine l.reads_of_succ (.nat n) fun level depth rest hrest _ => ?_
    obtain ⟨c, cs, hcs, hc⟩ := exists_digit n
    have hprinted : l.print level (ofNat n) = c :: cs := hcs
    have hn := number_printed n hrest
    rw [hcs] at hn
    rw [hprinted]
    exact value_number hc hn
  | string s =>
    refine l.reads_of_succ (.string s) fun level depth rest _ _ => ?_
    obtain ⟨cs, hcs, hs⟩ := string_printed s rest
    have hprinted : l.print level (ofString s) = Printer.string s := rfl
    rw [hprinted, hcs]
    exact value_string hs
  | @array vs h ih =>
    refine l.reads_of_succ (.array h) fun level depth rest _ hdepth => ?_
    cases vs with
    | nil => rfl
    | cons v vs =>
      obtain ⟨c, cs, hcs, hblank, hclose, _⟩ := l.print_eq_cons (h v List.mem_cons_self) (level + 1)
      simp only [print, List.length_append, List.length_cons] at hdepth
      have hitems := l.items_print ih level depth rest (by rw [List.length_append]; omega)
      simp only [print, List.cons_append, List.append_assoc]
      rw [hcs, List.cons_append] at hitems ⊢
      refine value_array ?_ hclose hitems
      rw [skipBlanks_append (l.isBlank_gap _), skipBlanks_cons hblank]
  | @object ms h ih =>
    refine l.reads_of_succ (.object h) fun level depth rest _ hdepth => ?_
    cases ms with
    | nil => rfl
    | cons m ms =>
      obtain ⟨k, v⟩ := m
      have hprinted : l.print level (ofMembers ((k, v) :: ms)) =
          '\x7b' :: (l.gap (level + 1) ++ (Printer.string k ++ (':' :: l.space ++
            (l.print (level + 1) v ++ l.printMembers level (named ms))))) := by
        simp [ofMembers, print, Printer.opening, named]
      rw [hprinted, List.length_cons, List.length_append] at hdepth
      have hmembers := l.members_print ih level depth rest (by omega)
      obtain ⟨cs, hcs, _⟩ := string_printed k (':' :: l.space ++ (l.print (level + 1) v ++
        (l.printMembers level (named ms) ++ rest)))
      rw [hprinted]
      simp only [List.cons_append, List.append_assoc] at hmembers hcs ⊢
      refine value_object ?_ (by decide : '"' ≠ '\x7d') (hcs ▸ hmembers)
      rw [skipBlanks_append (l.isBlank_gap _)]
      exact (congrArg Reader.skipBlanks hcs).trans (skipBlanks_cons (by decide) cs)

private theorem read?_print {j : Json} (h : Printable j) :
    read? (String.ofList (l.print 0 j)) = some j := by
  have hends : EndsNumber [] := fun c hc => by cases hc
  have hread := l.reads_of_printable h 0 ((l.print 0 j).length + 1) [] hends (Nat.le_succ _)
  rw [List.append_nil] at hread
  rw [read?, String.toList_ofList]
  dsimp only
  rw [hread]
  rfl

end Layout

/-- The pretty form of a value is read as this value. -/
theorem read?_pretty {j : Json} (h : Printable j) : read? j.pretty = some j := by
  rw [pretty, ← Layout.print_lines, Layout.lines.read?_print h]

theorem read?_compact {j : Json} (h : Printable j) : read? j.compact = some j := by
  rw [compact, ← Layout.print_line 0, Layout.line.read?_print h]

end RepairSearch.Json
