import Mathlib.Algebra.Order.Ring.Rat
import Mathlib.Algebra.BigOperators.Group.List.Basic

/-! Float arithmetic. A finite float is its exact rational value, and each
operation is the exact one followed by rounding; how results round, and how
`sum` accumulates, is left to `FloatArith`. -/
namespace Python

class FloatArith where
  round : ℚ → ℚ
  sum : List ℚ → ℚ

namespace FloatArith

/-- Arithmetic without rounding. -/
@[reducible] def exact : FloatArith where
  round := id
  sum := List.sum

variable [FloatArith]

def add (x y : ℚ) : ℚ := FloatArith.round (x + y)
def sub (x y : ℚ) : ℚ := FloatArith.round (x - y)
def mul (x y : ℚ) : ℚ := FloatArith.round (x * y)
def div (x y : ℚ) : ℚ := FloatArith.round (x / y)

end FloatArith
end Python
