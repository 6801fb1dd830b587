/-!
# JSON values

Numbers are kept as they are written, because what a number means depends on who reads it. A
string that escapes half of a surrogate pair is a legal value without a text; it may stand where
a value is passed over and nowhere else.
-/

namespace RepairSearch

/-- A number as it is written: `whole.fraction` times a power of ten. -/
structure Numeral where
  negative : Bool
  /-- The digits before the point. -/
  whole : List Nat
  /-- The digits after the point; none if there is no point. -/
  fraction : List Nat
  exponent : Option Int
deriving DecidableEq, Repr, Inhabited

inductive Json where
  | null
  | bool (value : Bool)
  | number (value : Numeral)
  | string (text : Option String)
  | array (items : List Json)
  | object (members : List (Option String × Json))
deriving Repr, Inhabited

namespace Numeral

/-- The digits of a natural number. -/
def digits (n : Nat) : List Nat :=
  (Nat.toDigits 10 n).map fun c => c.toNat - '0'.toNat

def ofNat (n : Nat) : Numeral := ⟨false, digits n, [], none⟩

def ofInt (n : Int) : Numeral := ⟨n < 0, digits n.natAbs, [], none⟩

def isInteger (n : Numeral) : Bool := n.fraction.isEmpty && n.exponent.isNone

/-- The value of a row of digits. -/
def value (ds : List Nat) : Nat := ds.foldl (fun n d => n * 10 + d) 0

/-- The natural number below `2^64` that an integer numeral writes. -/
def toWord? (n : Numeral) : Option Nat :=
  if n.isInteger && !n.negative && value n.whole < UInt64.size then some (value n.whole) else none

/-! ## Doubles

The leading digits that fit into a word are one double, and a power of ten is another; their
product or quotient is the value. Digits that do not fit count as zeros.
-/

/-- Takes in digits as long as they fit into a word: the word and the digits left over. -/
private def fill (word : Nat) : List Nat → Nat × List Nat
  | [] => (word, [])
  | d :: ds => if word * 10 + d < UInt64.size then fill (word * 10 + d) ds else (word, d :: ds)

private def powerOfTen (n : Nat) : Float := Float.ofScientific 1 false n

/-- The greatest power of ten that is a double. -/
private def maxPower : Nat := 308

/-- Divides by a power of ten, in steps if the power is too great for a double. -/
private def divided (x : Float) (n : Nat) : Float :=
  if n ≤ maxPower then x / powerOfTen n
  else if x == 0 then x
  else divided (x / powerOfTen maxPower) (n - maxPower)
termination_by n
decreasing_by simp [maxPower] at *; omega

/-- The word times a power of ten, unless that is too great for a double. -/
private def scaled? (word : Nat) (exponent : Int) : Option Float :=
  let x := Float.ofNat word
  if exponent < 0 then some (divided x (-exponent).toNat)
  else if exponent.toNat ≤ maxPower then
    let y := x * powerOfTen exponent.toNat
    if y.isInf then none else some y
  else if x == 0 then some x
  else none

/-- The double that a numeral writes, unless it is too great for a double. -/
def toFloat? (n : Numeral) : Option Float :=
  let (word, rest) := fill 0 n.whole
  let (word', dropped) := fill word n.fraction
  let kept := n.fraction.length - dropped.length
  let exponent := (rest.length : Int) - kept + n.exponent.getD 0
  (scaled? word' exponent).map fun x => if n.negative then -x else x

end Numeral

namespace Json

def ofNat (n : Nat) : Json := number (Numeral.ofNat n)

def ofInt (n : Int) : Json := number (Numeral.ofInt n)

def ofString (s : String) : Json := string (some s)

/-- An object with the given members. -/
def ofMembers (ms : List (String × Json)) : Json := object (ms.map fun (k, v) => (some k, v))

def ofOption {α : Type} (f : α → Json) : Option α → Json
  | some a => f a
  | none => null

def asString? : Json → Option String
  | string text => text
  | _ => none

def asWord? : Json → Option Nat
  | number n => n.toWord?
  | _ => none

def asFloat? : Json → Option Float
  | number n => n.toFloat?
  | _ => none

def asBool? : Json → Option Bool
  | bool b => some b
  | _ => none

/-- A list of values that all fit. -/
def asList? {α : Type} (f : Json → Option α) : Json → Option (List α)
  | array items => items.mapM f
  | _ => none

/-- A value that fits, or null. -/
def asOption? {α : Type} (f : Json → Option α) : Json → Option (Option α)
  | null => some none
  | j => (f j).map some

/-- What a field of a record may do besides being there. -/
inductive Presence where
  | required
  /-- The field counts as null where an object leaves it out. -/
  | nullable
  /-- The field may be left out of objects and at the end of arrays. -/
  | optional
deriving DecidableEq, Repr

/-- The values of the fields of an object in the order of the fields. A field may not stand there
twice; other members do not matter. -/
def fieldsOfMembers (members : List (Option String × Json)) :
    List (String × Presence) → Option (List (Option Json))
  | [] => some []
  | (name, presence) :: fields => do
    let rest ← fieldsOfMembers members fields
    match members.filter fun (k, _) => k == some name, presence with
    | [(_, v)], _ => some (some v :: rest)
    | [], .required => none
    | [], .nullable => some (some null :: rest)
    | [], .optional => some (none :: rest)
    | _, _ => none

/-- The values of the fields of an array, one item for each. -/
def fieldsOfItems : List (String × Presence) → List Json → Option (List (Option Json))
  | [], [] => some []
  | [], _ :: _ => none
  | _ :: fields, v :: vs => (fieldsOfItems fields vs).map (some v :: ·)
  | (_, presence) :: fields, [] =>
    if presence = .optional then (fieldsOfItems fields []).map (none :: ·) else none

/-- A record as an object with the fields as members or as an array of the fields in order. -/
def asRecord? (fields : List (String × Presence)) : Json → Option (List (Option Json))
  | object members =>
    if members.all (·.1.isSome) then fieldsOfMembers members fields else none
  | array items => fieldsOfItems fields items
  | _ => none

end Json

end RepairSearch
