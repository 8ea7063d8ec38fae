import Sentinel.Python.Rounding
import Sentinel.Python.Values

/-! Floats that need not be finite, and `float(v)` and `int(v)` of JSON values. A finite
float is its exact rational value; the sign of a zero is left out. How a text is read is a
parameter. -/
namespace Python

inductive FloatValue where
  | finite (x : ℚ)
  | infinite (negative : Bool)
  | nan
  deriving DecidableEq

namespace FloatValue

/-- `v < w`. -/
def lt : FloatValue → FloatValue → Bool
  | finite x, finite y => decide (x < y)
  | infinite negative, finite _ => negative
  | finite _, infinite negative => !negative
  | infinite v, infinite w => v && !w
  | nan, _ | _, nan => false

/-- `v <= w`. -/
def le : FloatValue → FloatValue → Bool
  | nan, _ | _, nan => false
  | v, w => !w.lt v

/-- An operation that keeps what is not finite. -/
def map (f : ℚ → ℚ) : FloatValue → FloatValue
  | finite x => finite (f x)
  | v => v

/-- `round(v)`. -/
def round : FloatValue → Py ℤ
  | finite x => .ok (roundEven x)
  | infinite _ => .error ⟨"OverflowError", "cannot convert float infinity to integer", false⟩
  | nan => .error ⟨"ValueError", "cannot convert float NaN to integer", false⟩

end FloatValue

/-- What `float(text)` reads, and nothing where it raises a `ValueError`. -/
class FloatText where
  parse : String → Option FloatValue

/-- What `int(text)` reads, and nothing where it raises a `ValueError`. -/
class IntText where
  parse : String → Option ℤ

namespace Json

/-- `float(v)`. -/
def asFloat [FloatText] : Json → Py FloatValue
  | bool b => .ok (.finite (if b then 1 else 0))
  | int n => .finite <$> toFloat n
  | float x => .ok (.finite x)
  | str text =>
    match FloatText.parse text with
    | some v => .ok v
    | none => .error ⟨"ValueError", s!"could not convert string to float: '{text}'", false⟩
  | v => .error
    ⟨"TypeError", s!"float() argument must be a string or a real number, not '{v.typeName}'", false⟩

/-- `int(v)`. -/
def asInt [IntText] : Json → Py ℤ
  | bool b => .ok (if b then 1 else 0)
  | int n => .ok n
  | float x => .ok (truncate x)
  | str text =>
    match IntText.parse text with
    | some n => .ok n
    | none => .error ⟨"ValueError", s!"invalid literal for int() with base 10: '{text}'", false⟩
  | v => .error ⟨"TypeError",
    s!"int() argument must be a string, a bytes-like object or a real number, not '{v.typeName}'", false⟩

end Json
end Python
