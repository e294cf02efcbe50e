/-!
The floating-point number nearest to a decimal.
-/

set_option autoImplicit false

namespace DocDrift.Decimal

/-- The number nearest to `significand * 10 ^ exponent`; one that is too large is infinite. Very
large and very small magnitudes are told by the number of digits alone. -/
def nearest (significand : Nat) (exponent : Int) : Float :=
  let digits : Int := (toString significand).length
  if significand = 0 || exponent + digits < -400 then 0.0
  else if 400 < exponent + digits then 1.0 / 0.0
  else Float.ofScientific significand (exponent < 0) exponent.natAbs

end DocDrift.Decimal
