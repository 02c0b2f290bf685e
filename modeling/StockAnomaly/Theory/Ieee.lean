import Mathlib.Algebra.Order.Field.Basic

/-!
# Quotients of finite numbers

Division of doubles is total: a zero divisor gives an infinity or NaN, and NaN compares
false with everything. `Ieee` keeps these three results beside the exact quotients of
an ordered field. The sign of a zero divisor is not kept.
-/

namespace StockAnomaly.Theory

inductive Ieee (K : Type*)
  | finite (x : K)
  | posInf
  | negInf
  | nan

namespace Ieee

variable {K : Type*} [Field K] [LinearOrder K]

def div (x y : K) : Ieee K :=
  if y ≠ 0 then finite (x / y)
  else if 0 < x then posInf
  else if x < 0 then negInf
  else nan

/-- The product with a positive number. -/
def scale (k : K) : Ieee K → Ieee K
  | finite x => finite (x * k)
  | other => other

/-- Comparison with a finite number on the right. -/
def le : Ieee K → K → Bool
  | finite x, k => x ≤ k
  | negInf, _ => true
  | _, _ => false

/-- Comparison with a finite number on the right. -/
def ge : Ieee K → K → Bool
  | finite x, k => k ≤ x
  | posInf, _ => true
  | _, _ => false

end Ieee

end StockAnomaly.Theory
