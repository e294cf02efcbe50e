import DocDrift.Decimal.Shortest
import DocDrift.Proofs.Decimal.Rounding

/-!
How large the shortest decimal of a number is: it lies in the interval of the reals that round to
the number, so it is not larger than the upper end of that interval.
-/

set_option autoImplicit false

namespace DocDrift.Decimal

/-! ### Floating-point numbers as binary numbers -/

/-- A number that a finite floating-point number can have as its value. -/
structure Binary.Double (number : Binary) : Prop where
  short : number.mantissa < 2 ^ 53
  high : number.exponent ≤ 971
  lowest : number.lowest = true → number.mantissa = 2 ^ 52

/-- The exponent field of a finite number has not all bits set. -/
theorem power_of_isFinite {x : Float} (finite : x.isFinite = true) :
    (x.toBits.toNat >>> 52) % 2048 ≠ 0x7FF := by
  intro top
  have field : @Float.Model.UnpackedFloat.unpackExponent Float.Model.Format.binary64
      x.toModel.toBits.toBitVec = -1#11 := by
    apply BitVec.eq_of_toNat_eq
    rw [Float.Model.UnpackedFloat.unpackExponent, BitVec.toNat_cast, BitVec.extractLsb_toNat]
    exact top
  change (Float.Model.UnpackedFloat.unpack Float.Model.Format.binary64
    x.toModel.toBits.toBitVec).isFinite = true at finite
  rw [Float.Model.UnpackedFloat.unpack] at finite
  dsimp only at finite
  rw [if_pos field] at finite
  split at finite <;> cases finite

theorem finite_of_isFinite {x : Float} (finite : x.isFinite = true) :
    ∃ number, Value.ofFloat x = .finite number ∧ number.Double := by
  have power := power_of_isFinite finite
  unfold Value.ofFloat
  dsimp only
  rw [if_neg (by rwa [beq_iff_eq])]
  have fraction : x.toBits.toNat % 1 <<< 52 < 2 ^ 52 := Nat.mod_lt _ (by decide)
  split
  case isTrue =>
    refine ⟨_, rfl, ?_, ?_, ?_⟩
    · change x.toBits.toNat % 1 <<< 52 < 2 ^ 53
      omega
    · exact (by decide : (-1074 : Int) ≤ 971)
    · intro lowest
      cases lowest
  case isFalse =>
    refine ⟨_, rfl, ?_, ?_, ?_⟩
    · change x.toBits.toNat % 1 <<< 52 + 2 ^ 52 < 2 ^ 53
      omega
    · dsimp only
      omega
    · intro lowest
      have zero := beq_iff_eq.mp (Bool.and_eq_true_iff.mp lowest).1
      change x.toBits.toNat % 1 <<< 52 + 2 ^ 52 = 2 ^ 52
      omega

/-! ### The search for a grid -/

theorem log2_mul_two_pow {value : Nat} (pos : 0 < value) (power : Nat) :
    (value * 2 ^ power).log2 = value.log2 + power := by
  rw [← Nat.shiftLeft_eq]
  exact log2_shiftLeft pos power

def Interval.holds (interval : Interval) (exponent : Int) (count : Nat) : Bool :=
  let up := 10 ^ (-exponent).toNat
  let point := count * (interval.denominator * 10 ^ exponent.toNat)
  if interval.closed then interval.low * up ≤ point && point ≤ interval.high * up
  else interval.low * up < point && point < interval.high * up

theorem Interval.holds_le {interval : Interval} {exponent : Int} {count : Nat}
    (holds : interval.holds exponent count = true) :
    count * (interval.denominator * 10 ^ exponent.toNat) ≤
      interval.high * 10 ^ (-exponent).toNat := by
  unfold Interval.holds at holds
  dsimp only at holds
  split at holds
  · exact of_decide_eq_true (Bool.and_eq_true_iff.mp holds).2
  · exact (of_decide_eq_true (Bool.and_eq_true_iff.mp holds).2).le

/-- Only points in the interval are found. -/
theorem Interval.holds_of_onGrid? {interval : Interval} {exponent : Int} {digits : Nat}
    (found : interval.onGrid? exponent = some digits) : interval.holds exponent digits = true := by
  unfold Interval.onGrid? at found
  dsimp only at found
  split at found
  case h_1 below_in above_in =>
    split at found
    · cases found
      exact below_in
    · split at found
      · cases found
        exact above_in
      · split at found
        · cases found
          exact below_in
        · cases found
          exact above_in
  case h_2 below_in _ =>
    cases found
    exact below_in
  case h_3 _ above_in =>
    cases found
    exact above_in
  case h_4 => cases found

/-- Something is found where the point below the value lies in the interval. -/
theorem Interval.onGrid?_of_holds {interval : Interval} {exponent : Int}
    (holds : interval.holds exponent (interval.value * 10 ^ (-exponent).toNat /
      (interval.denominator * 10 ^ exponent.toNat)) = true) :
    ∃ digits, interval.onGrid? exponent = some digits := by
  unfold Interval.onGrid?
  dsimp only
  split
  case h_1 =>
    split
    · exact ⟨_, rfl⟩
    · split
      · exact ⟨_, rfl⟩
      · split <;> exact ⟨_, rfl⟩
  case h_2 => exact ⟨_, rfl⟩
  case h_3 => exact ⟨_, rfl⟩
  case h_4 below_out _ =>
    have : interval.holds exponent (interval.value * 10 ^ (-exponent).toNat /
      (interval.denominator * 10 ^ exponent.toNat)) = false := below_out
    rw [this] at holds
    cases holds

/-- Something is found on a grid whose points are closer to each other than the value is to the lower
end of the interval. -/
theorem Interval.onGrid?_of_unit {interval : Interval} {exponent : Int}
    (pos : 0 < interval.denominator)
    (room : interval.low * 10 ^ (-exponent).toNat + interval.denominator * 10 ^ exponent.toNat ≤
      interval.value * 10 ^ (-exponent).toNat)
    (below : interval.value < interval.high) :
    ∃ digits, interval.onGrid? exponent = some digits := by
  refine Interval.onGrid?_of_holds ?_
  set up := 10 ^ (-exponent).toNat
  set unit := interval.denominator * 10 ^ exponent.toNat with unit_eq
  have unit_pos : 0 < unit := Nat.mul_pos pos (by positivity)
  have up_pos : 0 < up := by positivity
  have division := Nat.div_add_mod' (interval.value * up) unit
  have rest := Nat.mod_lt (interval.value * up) unit_pos
  have scaled : interval.value * up < interval.high * up := Nat.mul_lt_mul_of_pos_right below up_pos
  have above_low : interval.low * up < interval.value * up / unit * unit := by omega
  have below_high : interval.value * up / unit * unit < interval.high * up := by omega
  unfold Interval.holds
  dsimp only
  split
  · exact Bool.and_eq_true_iff.mpr ⟨decide_eq_true above_low.le, decide_eq_true below_high.le⟩
  · exact Bool.and_eq_true_iff.mpr ⟨decide_eq_true above_low, decide_eq_true below_high⟩

/-- The search finds a point of one of the grids, or ends behind all of them. -/
theorem Interval.search_holds (interval : Interval) (count : Nat) (exponent : Int) :
    interval.holds (interval.search count exponent).exponent
        (interval.search count exponent).digits = true ∨
      (∀ step : Nat, step < count → interval.onGrid? (exponent - step) = none) ∧
        interval.search count exponent = ⟨interval.value / interval.denominator, exponent - count⟩ := by
  -- The search goes from one grid to the next finer one, `count` times.
  induction count generalizing exponent with
  | zero =>
      refine .inr ⟨fun step before => absurd before (Nat.not_lt_zero step), ?_⟩
      rw [Interval.search, Int.natCast_zero, Int.sub_zero]
  | succ count ih =>
      rw [Interval.search]
      cases found : interval.onGrid? exponent with
      | some digits => exact .inl (Interval.holds_of_onGrid? found)
      | none =>
          dsimp only
          refine (ih (exponent - 1)).imp id (fun ⟨nowhere, last⟩ => ⟨fun step before => ?_, ?_⟩)
          · cases step with
            | zero => rwa [Int.natCast_zero, Int.sub_zero]
            | succ step =>
                rw [← nowhere step (by omega)]
                congr 1
                omega
          · rw [last]
            congr 1
            omega

/-! ### The size of the shortest decimal -/

/-- Where the search for the shortest decimal of a number begins. -/
def Binary.start (number : Binary) : Int :=
  ((Nat.log2 number.interval.high : Int) - Nat.log2 number.interval.denominator) * 30103 / 100000 + 2

theorem Binary.shortest_eq {number : Binary} (nonzero : number.mantissa ≠ 0) :
    number.shortest = number.interval.search 40 number.start := by
  rw [Binary.shortest, if_neg nonzero]
  rfl

theorem Binary.interval_high (number : Binary) :
    number.interval.high = (4 * number.mantissa + 2) * 2 ^ (number.exponent - 2).toNat := by
  rw [← Nat.one_shiftLeft]
  rfl

theorem Binary.interval_value (number : Binary) :
    number.interval.value = 4 * number.mantissa * 2 ^ (number.exponent - 2).toNat := by
  rw [← Nat.one_shiftLeft]
  rfl

theorem Binary.interval_denominator (number : Binary) :
    number.interval.denominator = 2 ^ (-(number.exponent - 2)).toNat := by
  rw [← Nat.one_shiftLeft]
  rfl

theorem Binary.interval_low {number : Binary} (nonzero : number.mantissa ≠ 0) :
    number.interval.low + 2 ^ (number.exponent - 2).toNat ≤ number.interval.value := by
  rw [number.interval_value]
  unfold Binary.interval
  dsimp only
  rw [Nat.one_shiftLeft, ← Nat.succ_mul]
  refine Nat.mul_le_mul_right _ ?_
  split <;> omega

theorem Binary.Double.log2_le {number : Binary} (double : number.Double) :
    (Nat.log2 number.interval.high : Int) - Nat.log2 number.interval.denominator ≤
      number.exponent + 52 := by
  have short := double.short
  have log : Nat.log2 (4 * number.mantissa + 2) ≤ 54 := by
    have := (Nat.log2_lt (n := 4 * number.mantissa + 2) (k := 55) (by omega)).mpr (by omega)
    omega
  rw [number.interval_high, number.interval_denominator, log2_mul_two_pow (by omega), Nat.log2_two_pow]
  omega

/-- A power of ten is below a power of two whose exponent is a good three times as large. -/
theorem ten_pow_le {power exponent : Nat} (le : 10 * power + 20 ≤ 3 * exponent) :
    10 ^ power ≤ 2 ^ exponent := by
  calc 10 ^ power ≤ 10 ^ (3 * ((power + 2) / 3)) := Nat.pow_le_pow_right (by omega) (by omega)
    _ = (10 ^ 3) ^ ((power + 2) / 3) := Nat.pow_mul ..
    _ ≤ (2 ^ 10) ^ ((power + 2) / 3) := Nat.pow_le_pow_left (by decide) _
    _ = 2 ^ (10 * ((power + 2) / 3)) := (Nat.pow_mul ..).symm
    _ ≤ 2 ^ exponent := Nat.pow_le_pow_right (by omega) (by omega)

/-- On the finest grid that is searched something is found, if the number is large. -/
theorem Binary.Double.found_of_large {number : Binary} (double : number.Double)
    (nonzero : number.mantissa ≠ 0) (large : 40 < number.start) :
    ∃ digits, number.interval.onGrid? (number.start - 39) = some digits := by
  have magnitude := double.log2_le
  have high := double.high
  unfold Binary.start at large ⊢
  set log := (Nat.log2 number.interval.high : Int) - Nat.log2 number.interval.denominator
  obtain ⟨scale, scale_eq⟩ := Int.eq_ofNat_of_zero_le (a := number.exponent - 2) (by omega)
  obtain ⟨power, power_eq⟩ := Int.eq_ofNat_of_zero_le (a := log * 30103 / 100000 + 2 - 39) (by omega)
  have coarse : 10 ^ power ≤ 2 ^ scale := ten_pow_le (by omega)
  have low := Binary.interval_low nonzero
  rw [scale_eq, Int.toNat_natCast] at low
  refine Interval.onGrid?_of_unit ?_ ?_ ?_
  · rw [number.interval_denominator]
    exact Nat.two_pow_pos _
  · rw [power_eq, Int.toNat_natCast, number.interval_denominator,
      show (-(number.exponent - 2)).toNat = 0 by omega, show (-(power : Int)).toNat = 0 by omega]
    omega
  · rw [number.interval_value, number.interval_high]
    exact Nat.mul_lt_mul_of_pos_right (by omega) (Nat.two_pow_pos _)

/-- The shortest decimal of a number is not larger than what rounds to the number. -/
theorem Binary.Double.shortest_le {number : Binary} (double : number.Double)
    (nonzero : number.mantissa ≠ 0) :
    number.shortest.digits * (number.interval.denominator * 10 ^ number.shortest.exponent.toNat) ≤
      number.interval.high * 10 ^ (-number.shortest.exponent).toNat := by
  rw [Binary.shortest_eq nonzero]
  obtain holds | ⟨nowhere, last⟩ := number.interval.search_holds 40 number.start
  · exact Interval.holds_le holds
  · -- For a large number the last grid has a point; a small one has no digits left to lose.
    have small : number.start ≤ 40 := by
      by_contra large
      obtain ⟨digits, found⟩ := double.found_of_large nonzero (by omega)
      have missed := nowhere 39 (by omega)
      exact absurd (found.symm.trans missed) (Option.some_ne_none digits)
    rw [last]
    dsimp only
    rw [show (number.start - (40 : Nat)).toNat = 0 by omega, pow_zero, mul_one]
    calc number.interval.value / number.interval.denominator * number.interval.denominator
        ≤ number.interval.value := Nat.div_mul_le_self _ _
      _ ≤ number.interval.high := by
        rw [number.interval_value, number.interval_high]
        exact Nat.mul_le_mul_right _ (by omega)
      _ ≤ number.interval.high * 10 ^ (-(number.start - (40 : Nat))).toNat :=
        Nat.le_mul_of_pos_right _ (by positivity)

theorem mul_two_pow_mul (value power more : Nat) :
    value * 2 ^ power * 2 ^ more = value * 2 ^ (power + more) := by
  rw [Nat.mul_assoc, ← Nat.pow_add]

/-- A number that is well below what is infinite has a shortest decimal that is so, too. -/
theorem Binary.Double.shortest_le_limit {number : Binary} (double : number.Double)
    (nonzero : number.mantissa ≠ 0)
    (clear : number.exponent < 971 ∨ number.mantissa < 2 ^ 53 - 16) :
    number.shortest.digits * 10 ^ number.shortest.exponent.toNat ≤
      limit * 10 ^ (-number.shortest.exponent).toNat := by
  have short := double.short
  have high := double.high
  have end_le : number.interval.high ≤ limit * number.interval.denominator := by
    rw [number.interval_high, number.interval_denominator, limit, mul_two_pow_mul]
    obtain ⟨part, part_le, room⟩ : ∃ part, 4 * number.mantissa + 2 ≤ (2 ^ 53 - 16) * 2 ^ part ∧
        part + (number.exponent - 2).toNat ≤ 971 + (-(number.exponent - 2)).toNat := by
      obtain below | top := clear
      · exact ⟨3, by omega, by omega⟩
      · exact ⟨2, by omega, by omega⟩
    calc (4 * number.mantissa + 2) * 2 ^ (number.exponent - 2).toNat
        ≤ (2 ^ 53 - 16) * 2 ^ part * 2 ^ (number.exponent - 2).toNat :=
          Nat.mul_le_mul_right _ part_le
      _ = (2 ^ 53 - 16) * 2 ^ (part + (number.exponent - 2).toNat) := mul_two_pow_mul ..
      _ ≤ (2 ^ 53 - 16) * 2 ^ (971 + (-(number.exponent - 2)).toNat) :=
          Nat.mul_le_mul_left _ (Nat.pow_le_pow_right (by omega) room)
  have denominator_pos : 0 < number.interval.denominator := by
    rw [number.interval_denominator]
    exact Nat.two_pow_pos _
  refine Nat.le_of_mul_le_mul_left ?_ denominator_pos
  set digits := number.shortest.digits
  set up := 10 ^ number.shortest.exponent.toNat
  set down := 10 ^ (-number.shortest.exponent).toNat
  calc number.interval.denominator * (digits * up)
      = digits * (number.interval.denominator * up) := Nat.mul_left_comm ..
    _ ≤ number.interval.high * down := double.shortest_le nonzero
    _ ≤ limit * number.interval.denominator * down := Nat.mul_le_mul_right _ end_le
    _ = number.interval.denominator * (limit * down) := by
      rw [Nat.mul_comm limit, Nat.mul_assoc]

end DocDrift.Decimal
