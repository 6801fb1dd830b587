import RepairSearch.Decimal

/-!
# Weights

A pool needs little of its weights: zero and one, sums and products, an order, and which values
are legal. Doubles are the weights in use.
-/

namespace RepairSearch

class Weight (W : Type) extends Add W, Mul W where
  zero : W
  one : W
  /-- Whether one weight is less than another. -/
  less : W → W → Bool
  isFinite : W → Bool
  text : W → String

namespace Weight

variable {W : Type} [Weight W]

def isPositive (w : W) : Bool := less zero w

/-- Weights are finite and not negative. -/
def isLegal (w : W) : Bool := isFinite w && !less w zero

end Weight

instance : Weight Float where
  zero := 0
  one := 1
  less a b := a < b
  isFinite := Float.isFinite
  text := Decimal.ofFloat

end RepairSearch
