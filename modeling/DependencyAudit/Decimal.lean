/-
# DependencyAudit.Decimal -- decimals that a double can hold

A decimal is written as a coefficient and a power of ten.  Rounded to the nearest
double, a number becomes infinite from halfway between the largest double and the
next power of two on.  `isFinite` decides on which side of that bound a decimal
lies, without forming powers that its size makes needless.  Zero is finite
whatever its power (`isFinite_zero`).
-/

namespace DependencyAudit

set_option autoImplicit false

/-- The number `coefficient * 10 ^ exponent`. -/
structure Decimal where
  coefficient : Nat
  exponent : Int
deriving Repr, DecidableEq

namespace Decimal

/-- The least number that rounds beyond the largest double. -/
def bound : Nat :=
  Nat.pow 2 1024 - Nat.pow 2 970

/-- Whether the nearest double is finite.  A power of ten from `10 ^ 309` on is
beyond the bound by itself. -/
def isFinite (decimal : Decimal) : Bool :=
  decimal.coefficient = 0 ||
    match decimal.exponent with
    | .ofNat n => n < 309 && decimal.coefficient * Nat.pow 10 n < bound
    | .negSucc n =>
        decimal.coefficient.log2 < 3 * (n + 1) ||
          decimal.coefficient < bound * Nat.pow 10 (n + 1)

/-- Zero is finite, whatever its exponent. -/
theorem isFinite_zero (exponent : Int) : isFinite ⟨0, exponent⟩ = true := rfl

end Decimal

end DependencyAudit
