/-!
A finite binary number as an exact value: a sign, a whole mantissa and a power of two. Decimal text
is computed from it with whole numbers only.
-/

set_option autoImplicit false

namespace DocDrift.Decimal

/-- The value `mantissa * 2 ^ exponent` with a sign; `lowest` tells that the next smaller number is
only half as far away as the next larger one. -/
structure Binary where
  negative : Bool
  mantissa : Nat
  exponent : Int
  lowest : Bool
  deriving DecidableEq, Repr

/-- The kinds of numbers that text distinguishes. -/
inductive Value
  | finite (number : Binary)
  | infinite (negative : Bool)
  | undefined
  deriving DecidableEq, Repr

/-- The exact value of a floating-point number. -/
def Value.ofFloat (x : Float) : Value :=
  let bits : Nat := x.toBits.toNat
  let negative := bits >>> 63 == 1
  let power : Nat := (bits >>> 52) % 2048
  let fraction : Nat := bits % (1 <<< 52)
  if power == 0x7FF then
    if fraction == 0 then .infinite negative else .undefined
  else if power == 0 then .finite ⟨negative, fraction, -1074, false⟩
  else .finite ⟨negative, fraction + (1 <<< 52), (power : Int) - 1075, fraction == 0 && power != 1⟩

/-- The magnitude as a fraction of whole numbers. -/
def Binary.ratio (number : Binary) : Nat × Nat :=
  if number.exponent < 0 then (number.mantissa, 1 <<< number.exponent.natAbs)
  else (number.mantissa <<< number.exponent.toNat, 1)

end DocDrift.Decimal
