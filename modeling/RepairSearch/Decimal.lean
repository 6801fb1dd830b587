/-!
# Decimals

A finite double is `m · 2^e`. The decimals that round to it form an interval around it. Of the
decimals in the interval with the fewest digits, the one nearest to the double is its text; a tie
goes to the larger. The text is positional whatever the exponent. With a fixed number of places the
exact value is rounded, and a tie goes to the even neighbour.
-/

namespace RepairSearch.Decimal

/-- A positive double as `significand · 2^exponent`. -/
structure Binary where
  significand : Nat
  exponent : Int
  /-- Whether the next smaller double is only half as far away as the next larger one. -/
  isPowerStep : Bool
deriving DecidableEq, Repr

/-- A positive decimal as `digits · 10^exponent`. -/
structure Number where
  digits : Nat
  exponent : Int
deriving DecidableEq, Repr

/-- A positive number as a quotient. -/
structure Quotient where
  num : Nat
  den : Nat
deriving DecidableEq, Repr

namespace Quotient

/-- `n · b^e`. -/
def scaled (n b : Nat) (e : Int) : Quotient :=
  if 0 ≤ e then ⟨n * b.pow e.toNat, 1⟩ else ⟨n, b.pow (-e).toNat⟩

def le (p q : Quotient) : Bool := p.num * q.den ≤ q.num * p.den

def lt (p q : Quotient) : Bool := p.num * q.den < q.num * p.den

end Quotient

private def digitCount (n : Nat) : Nat := (Nat.toDigits 10 n).length

/-- The `p` with `10^(p-1) ≤ v < 10^p`. -/
def magnitude (v : Quotient) : Int :=
  if v.den ≤ v.num then digitCount (v.num / v.den)
  else
    let least := (v.den + v.num - 1) / v.num
    1 - (digitCount (least - 1) : Int)

namespace Binary

def value (b : Binary) : Quotient := Quotient.scaled (4 * b.significand) 2 (b.exponent - 2)

def upper (b : Binary) : Quotient := Quotient.scaled (4 * b.significand + 2) 2 (b.exponent - 2)

def lower (b : Binary) : Quotient :=
  Quotient.scaled (4 * b.significand - if b.isPowerStep then 1 else 2) 2 (b.exponent - 2)

/-- Whether a decimal rounds to the double. The ends of the interval do if the significand is
even. -/
def holds (b : Binary) (d : Number) : Bool :=
  let q := Quotient.scaled d.digits 10 d.exponent
  if b.significand % 2 = 0 then b.lower.le q && q.le b.upper
  else b.lower.lt q && q.lt b.upper

/-- The largest decimal on the grid of step `10^exponent` that is not above the double. -/
private def below (b : Binary) (exponent : Int) : Number :=
  let v := b.value
  ⟨if 0 ≤ exponent then v.num / (v.den * Nat.pow 10 exponent.toNat)
    else v.num * Nat.pow 10 (-exponent).toNat / v.den, exponent⟩

/-- Of a decimal and the next one of its grid, the nearer to the double; a tie goes up. -/
private def isNearerAbove (b : Binary) (d : Number) : Bool :=
  (Quotient.scaled (2 * d.digits + 1) 10 d.exponent).le ⟨b.value.num * 2, b.value.den⟩

/-- The decimal of a grid that rounds to the double, the nearest if there are two. -/
def onGrid? (b : Binary) (exponent : Int) : Option Number :=
  let down := b.below exponent
  let up : Number := ⟨down.digits + 1, exponent⟩
  match b.holds down, b.holds up with
  | true, true => some (if b.isNearerAbove down then up else down)
  | true, false => some down
  | false, true => some up
  | false, false => none

/-- The first grid with a hit, from one digit up to the seventeen that always suffice. A hit with
a last digit zero is the power of ten above the double. -/
def shortest (b : Binary) : Number :=
  let p := magnitude b.value
  let grids := (List.range 17).map fun n => p - (n + 1 : Nat)
  let d := (grids.findSome? b.onGrid?).getD (b.below (p - 17))
  if d.digits % 10 = 0 then ⟨d.digits / 10, d.exponent + 1⟩ else d

end Binary

/-- The digits of a decimal with a point where it has one, and without an exponent. -/
def Number.positional (d : Number) : String :=
  let digits := Nat.toDigits 10 d.digits
  if 0 ≤ d.exponent then String.ofList (digits ++ List.replicate d.exponent.toNat '0')
  else
    let places := (-d.exponent).toNat
    let padded := List.replicate (places + 1 - digits.length) '0' ++ digits
    let whole := padded.length - places
    String.ofList (padded.take whole ++ '.' :: padded.drop whole)

/-- The parts of a finite double other than zero, without its sign. -/
def Binary.ofBits (bits : Nat) : Binary :=
  let mantissa : Nat := bits % Nat.pow 2 52
  let biased : Nat := bits / Nat.pow 2 52 % Nat.pow 2 11
  if biased = 0 then ⟨mantissa, -1074, false⟩
  else ⟨mantissa + Nat.pow 2 52, (biased : Int) - 1075, mantissa == 0 && 1 < biased⟩

/-- The text of a double. -/
def ofFloat (x : Float) : String :=
  let bits := x.toBits.toNat
  let sign := if Nat.pow 2 63 ≤ bits then "-" else ""
  if x.isNaN then "NaN"
  else if x.isInf then sign ++ "inf"
  else if bits % Nat.pow 2 63 = 0 then sign ++ "0"
  else sign ++ (Binary.ofBits bits).shortest.positional

/-- The nearest natural number; a tie goes to the even one. -/
def Quotient.rounded (q : Quotient) : Nat :=
  let down := q.num / q.den
  let rest := 2 * (q.num % q.den)
  if rest < q.den || (rest = q.den && down % 2 = 0) then down else down + 1

/-- The text of a finite double with a number of places after the point. -/
def fixed (places : Nat) (x : Float) : String :=
  let bits := x.toBits.toNat
  let value := (Binary.ofBits bits).value
  let digits := Quotient.rounded ⟨value.num * Nat.pow 10 places, value.den⟩
  let text := Number.positional ⟨digits, -(places : Int)⟩
  (if Nat.pow 2 63 ≤ bits then "-" else "") ++ text

/-- The number that a text writes, if it lies below a limit. -/
def natural? (limit : Nat) (s : String) : Option Nat :=
  let digits := match s.toList with
    | '+' :: rest => rest
    | cs => cs
  if digits.isEmpty || !digits.all Char.isDigit then none
  else
    let n := digits.foldl (fun n d => n * 10 + (d.toNat - '0'.toNat)) 0
    if n < limit then some n else none

end RepairSearch.Decimal
