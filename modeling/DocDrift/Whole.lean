/-!
Whole numbers of sixty-four bits. Where they are added or multiplied, a result outside their range
wraps around.
-/

set_option autoImplicit false

namespace DocDrift

instance coeInt64 : Coe Int64 Int := ⟨Int64.toInt⟩

/-- A whole number that sixty-four bits can hold. -/
def InRange (value : Int) : Prop :=
  -9223372036854775808 ≤ value ∧ value ≤ 9223372036854775807

instance (value : Int) : Decidable (InRange value) :=
  inferInstanceAs (Decidable (_ ∧ _))

theorem inRange_toInt (number : Int64) : InRange number := by
  have least := number.le_toInt
  have most := number.toInt_lt
  unfold InRange
  omega

theorem toInt_ofInt {value : Int} (inside : InRange value) : (Int64.ofInt value).toInt = value := by
  unfold InRange at inside
  exact Int64.toInt_ofInt_of_le (by omega) (by omega)

theorem toInt_nonneg {number : Int64} (positive : 0 ≤ number) : 0 ≤ number.toInt :=
  Int64.le_iff_toInt_le.mp positive

/-- What whole numbers add up to, one after another. -/
def wrappingSum (items : List Int) : Int64 :=
  items.foldl (fun total item => total + Int64.ofInt item) 0

end DocDrift
