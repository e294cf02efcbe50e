import DocDrift.Decimal.Shortest

/-!
The text of floating-point numbers. A `FloatStyle` holds the decisions that one format makes: which
magnitudes are written without an exponent. `fixed` writes a given number of places.
-/

set_option autoImplicit false

namespace DocDrift.Decimal

/-- What a format decides about finite numbers. -/
structure FloatStyle where
  /-- Whether a number is written without an exponent, by the place of its point counted from the
  first digit. -/
  positional : Int → Bool

/-- Numbers in messages and in JSON: without an exponent from 1e-5 up to below 1e16. -/
def exchangeStyle : FloatStyle := ⟨fun point => -5 < point && point ≤ 16⟩

/-- Numbers in configuration files: never an exponent. -/
def plainStyle : FloatStyle := ⟨fun _ => true⟩

def zeros (count : Nat) : String :=
  String.ofList (List.replicate count '0')

/-- The text of a decimal; a whole number has one zero behind the point. -/
def FloatStyle.decimalText (style : FloatStyle) (decimal : Decimal) : String :=
  let digits := toString decimal.digits
  let count : Int := digits.length
  let point := count + decimal.exponent
  if decimal.digits = 0 then "0.0"
  else if style.positional point then
    if 0 ≤ decimal.exponent then digits ++ zeros decimal.exponent.toNat ++ ".0"
    else if 0 < point then
      String.ofList (digits.toList.take point.toNat) ++ "." ++
        String.ofList (digits.toList.drop point.toNat)
    else "0." ++ zeros (-point).toNat ++ digits
  else
    let mantissa := match digits.toList with
      | [] => ""
      | [digit] => String.ofList [digit]
      | digit :: rest => String.ofList (digit :: '.' :: rest)
    mantissa ++ "e" ++ toString (point - 1)

def FloatStyle.finiteText? (style : FloatStyle) (x : Float) : Option String :=
  match Value.ofFloat x with
  | .finite number =>
      some ((if number.negative then "-" else "") ++ style.decimalText number.shortest)
  | _ => none

/-- A quotient rounded to a whole number, a half to the even neighbour. -/
def roundedRatio (numerator denominator : Nat) : Nat :=
  let quotient := numerator / denominator
  let rest := numerator % denominator
  if 2 * rest < denominator then quotient
  else if denominator < 2 * rest then quotient + 1
  else if quotient % 2 == 0 then quotient
  else quotient + 1

/-- A number with a fixed number of places, rounded from its exact value. -/
def fixed (places : Nat) (x : Float) : String :=
  match Value.ofFloat x with
  | .undefined => "NaN"
  | .infinite negative => if negative then "-inf" else "inf"
  | .finite number =>
      let (numerator, denominator) := number.ratio
      let scaled := roundedRatio (numerator * Nat.pow 10 places) denominator
      let digits := toString scaled
      let padded := zeros (places + 1 - digits.length) ++ digits
      let whole := padded.toList.take (padded.length - places)
      let part := padded.toList.drop (padded.length - places)
      (if number.negative then "-" else "") ++ String.ofList whole ++
        (if places = 0 then "" else "." ++ String.ofList part)

end DocDrift.Decimal
