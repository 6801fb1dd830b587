/-!
# Random numbers

The search asks a source of random numbers for words, for fractions below one and for naturals
below a bound. Any state machine that answers is a source; `WeylProduct` is the one in use.
-/

namespace RepairSearch

/-- A source of random numbers with states `σ` and fractions of type `W`. -/
class RandomSource (σ : Type) (W : outParam Type) where
  ofSeed : UInt64 → σ
  word : σ → UInt64 × σ
  /-- At least zero and below one. -/
  fraction : σ → W × σ
  /-- Below the bound, if that is not zero. -/
  below : Nat → σ → Nat × σ

/-- A Weyl sequence: the state grows by a constant, and a word is the product of the state with
itself in another mask, folded to 64 bits. -/
structure WeylProduct where
  state : UInt64
deriving DecidableEq, Repr

namespace WeylProduct

def step : UInt64 := 0x2d358dccaa6c78a5

def mask : UInt64 := 0x8bb84b93962eacc9

/-- The exclusive or of the two halves of a product. -/
def foldedProduct (a b : UInt64) : UInt64 :=
  let p := a.toNat * b.toNat
  (UInt64.ofNat p) ^^^ (UInt64.ofNat (p >>> 64))

def word (g : WeylProduct) : UInt64 × WeylProduct :=
  let s := g.state + step
  (foldedProduct s (s ^^^ mask), ⟨s⟩)

/-- The states come round after this many words. -/
def period : Nat := UInt64.size

/-- The first fraction below one; a word near the top rounds up to one and is passed over. -/
private def fractionWithin : Nat → WeylProduct → Float × WeylProduct
  | 0, g => (0, g)
  | n + 1, g =>
    let (w, g) := g.word
    let x := (w >>> 1).toFloat / Float.ofNat (Nat.pow 2 63)
    if x < 1 then (x, g) else fractionWithin n g

def fraction (g : WeylProduct) : Float × WeylProduct := fractionWithin period g

/-- The high half of a word times the bound. Low halves below `2^64 mod bound` are passed over,
so that no answer is more likely than another. -/
private def belowWithin (bound : Nat) : Nat → WeylProduct → Nat × WeylProduct
  | 0, g => (0, g)
  | n + 1, g =>
    let (w, g) := g.word
    let p := w.toNat * bound
    if p % UInt64.size < UInt64.size % bound then belowWithin bound n g
    else (p / UInt64.size, g)

def below (bound : Nat) (g : WeylProduct) : Nat × WeylProduct := belowWithin bound period g

end WeylProduct

instance : RandomSource WeylProduct Float where
  ofSeed s := ⟨s⟩
  word := WeylProduct.word
  fraction := WeylProduct.fraction
  below := WeylProduct.below

end RepairSearch
