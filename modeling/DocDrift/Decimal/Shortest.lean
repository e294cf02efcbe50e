import DocDrift.Decimal.Binary

/-!
The shortest decimal that reads back as a given binary number. The reals that round to the number
form an interval; of the decimals in it those on the coarsest grid are taken, and of these the
nearest to the number.
-/

set_option autoImplicit false

namespace DocDrift

/-- The decimal `digits * 10 ^ exponent`. -/
structure Decimal where
  digits : Nat
  exponent : Int
  deriving DecidableEq, Repr

namespace Decimal

/-- The reals that round to a number, with the number itself, as numerators over one denominator.
The ends belong to the interval exactly if the mantissa is even. -/
structure Interval where
  low : Nat
  value : Nat
  high : Nat
  denominator : Nat
  closed : Bool
  deriving DecidableEq, Repr

/-- The interval of the reals that round to a number other than zero. -/
def Binary.interval (number : Binary) : Interval :=
  let below := if number.lowest then 1 else 2
  let scale := number.exponent - 2
  let up := 1 <<< scale.toNat
  { low := (4 * number.mantissa - below) * up
    value := 4 * number.mantissa * up
    high := (4 * number.mantissa + 2) * up
    denominator := 1 <<< (-scale).toNat
    closed := number.mantissa % 2 == 0 }

/-- The point of the grid of multiples of `10 ^ exponent` that is nearest to the value among those
in the interval; a tie goes to the even neighbour. -/
def Interval.onGrid? (interval : Interval) (exponent : Int) : Option Nat :=
  let up := Nat.pow 10 (-exponent).toNat
  let unit := interval.denominator * Nat.pow 10 exponent.toNat
  let inside (count : Nat) : Bool :=
    if interval.closed then
      interval.low * up ≤ count * unit && count * unit ≤ interval.high * up
    else interval.low * up < count * unit && count * unit < interval.high * up
  let value := interval.value * up
  let below := value / unit
  let above := below + 1
  match inside below, inside above with
  | true, true =>
      let fromBelow := value - below * unit
      let fromAbove := above * unit - value
      if fromBelow < fromAbove then some below
      else if fromAbove < fromBelow then some above
      else if below % 2 == 0 then some below
      else some above
  | true, false => some below
  | false, true => some above
  | false, false => none

/-- Searches the grids from a coarse one towards finer ones. -/
def Interval.search (interval : Interval) : Nat → Int → Decimal
  | 0, exponent => ⟨interval.value / interval.denominator, exponent⟩
  | count + 1, exponent =>
      match interval.onGrid? exponent with
      | some digits => ⟨digits, exponent⟩
      | none => interval.search count (exponent - 1)

/-- The shortest decimal that reads back as a number, and the nearest of those. -/
def Binary.shortest (number : Binary) : Decimal :=
  if number.mantissa = 0 then ⟨0, 0⟩
  else
    let interval := number.interval
    let magnitude := (Nat.log2 interval.high : Int) - Nat.log2 interval.denominator
    interval.search 40 (magnitude * 30103 / 100000 + 2)

end Decimal

end DocDrift
