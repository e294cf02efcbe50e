import Mathlib

/-!
The order of the floating-point numbers. Each number that is defined has a place in a linear order:
first by its class, from the negative infinity to the positive one, then by exponent and mantissa,
which count downward for negative numbers. Comparisons of numbers are comparisons of their places.
-/

set_option autoImplicit false

namespace DocDrift.Decimal

open Float.Model (UnpackedFloat)

/-! ### Places -/

/-- The place of a number; both zeros have the same. -/
def placeOf : UnpackedFloat → ℤ ×ₗ ℤ ×ₗ ℤ
  | .infinity .negative => toLex (-2, toLex (0, 0))
  | .finite .negative mantissa exponent _ => toLex (-1, toLex (-exponent, -mantissa))
  | .zero _ => toLex (0, toLex (0, 0))
  | .finite .positive mantissa exponent _ => toLex (1, toLex (exponent, mantissa))
  | .infinity .positive => toLex (2, toLex (0, 0))
  | .notANumber => toLex (3, toLex (0, 0))

theorem sign_compare_self (sign : UnpackedFloat.Sign) : compare sign sign = .eq := by
  cases sign <;> rfl

theorem sign_compare_lt :
    compare UnpackedFloat.Sign.negative UnpackedFloat.Sign.positive = .lt := rfl

theorem sign_compare_gt :
    compare UnpackedFloat.Sign.positive UnpackedFloat.Sign.negative = .gt := rfl

section Places

variable {left right : UnpackedFloat} (defined : left.isNaN = false)
  (otherDefined : right.isNaN = false)

include defined otherDefined

theorem lt_iff_placeOf : left.lt right = true ↔ placeOf left < placeOf right := by
  rcases left with (_ | _) | _ | _ | ⟨_ | _, mantissa, exponent, _⟩ <;>
    rcases right with (_ | _) | _ | _ | ⟨_ | _, otherMantissa, otherExponent, _⟩ <;>
    simp [UnpackedFloat.lt, UnpackedFloat.compare, UnpackedFloat.isNaN, placeOf,
      Prod.Lex.toLex_lt_toLex, Ordering.then_eq_lt, Ordering.then_eq_gt, Int.compare_eq_lt,
      Int.compare_eq_gt, Nat.compare_eq_lt, Nat.compare_eq_gt, sign_compare_lt] at *

theorem beq_iff_placeOf : left.beq right = true ↔ placeOf left = placeOf right := by
  rcases left with (_ | _) | _ | _ | ⟨_ | _, mantissa, exponent, _⟩ <;>
    rcases right with (_ | _) | _ | _ | ⟨_ | _, otherMantissa, otherExponent, _⟩ <;>
    simp [UnpackedFloat.beq, UnpackedFloat.compare, UnpackedFloat.isNaN, placeOf,
      Ordering.then_eq_eq, sign_compare_self, sign_compare_lt, sign_compare_gt] at *

end Places

/-! ### Numbers -/

/-- The place of a number in the order of all. -/
def rank (x : Float) : ℤ ×ₗ ℤ ×ₗ ℤ :=
  placeOf x.toModel.unpack

section Numbers

variable {x y : Float} (defined : x.isNaN = false) (otherDefined : y.isNaN = false)

include defined otherDefined

theorem lt_iff_rank : x < y ↔ rank x < rank y := by
  have same : x < y ↔ x.toModel.unpack.lt y.toModel.unpack = true := decide_eq_true_iff
  rw [same]
  exact lt_iff_placeOf defined otherDefined

theorem beq_iff_rank : (x == y) = true ↔ rank x = rank y :=
  beq_iff_placeOf defined otherDefined

end Numbers

end DocDrift.Decimal
