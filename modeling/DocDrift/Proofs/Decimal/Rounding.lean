import DocDrift.Json.Reader
import Mathlib

/-!
How far rounding moves a floating-point number up. Each rounding adds at most one unit in the last
place of a mantissa of 53 bits, so a number made from a significand and a power of ten in a few
steps stays below what is infinite as long as the decimal stays a few units below it.
-/

set_option autoImplicit false

namespace DocDrift.Decimal

open Float.Model Float.Model.UnpackedFloat

/-! ### Shifting a mantissa -/

theorem mantissa_shiftRight (extended : ExtendedMantissa) (count : Nat) :
    (extended >>> count).mantissa = extended.mantissa / 2 ^ count := by
  induction count with
  | zero => exact (Nat.div_one _).symm
  | succ count ih =>
      change (extended >>> count).mantissa / 2 = _
      rw [ih, Nat.div_div_eq_div_mul, Nat.pow_succ]

theorem roundedMantissa_bounds (extended : ExtendedMantissa) :
    extended.mantissa ≤ extended.roundedMantissa ∧
      extended.roundedMantissa ≤ extended.mantissa + 1 := by
  obtain ⟨mantissa, roundBit, stickyBit⟩ := extended
  cases roundBit <;> cases stickyBit <;>
    simp only [ExtendedMantissa.roundedMantissa, ExtendedMantissa.accuracy,
      Accuracy.roundToNearestEven] <;>
    omega

/-- The exponent that a mantissa is shifted to, where no number is too small for a full one. -/
theorem targetExponent_eq {mantissa : Nat} {exponent : Int}
    (normal : 0 ≤ (mantissa.log2 : Int) + exponent) :
    Format.binary64.targetExponent (totalExponent mantissa exponent) =
      mantissa.log2 + exponent - 52 := by
  simp only [Format.targetExponent, totalExponent, Format.mantissaBits, Format.minExponent]
  omega

/-- A mantissa of at least 53 bits is cut down to 53 bits. -/
theorem shiftToTargetExponent_eq {mantissa : Nat} {exponent : Int} (full : 52 ≤ mantissa.log2)
    (normal : 0 ≤ (mantissa.log2 : Int) + exponent) :
    shiftToTargetExponent Format.binary64 mantissa exponent .exact =
      (ExtendedMantissa.mk mantissa false false >>> (mantissa.log2 - 52),
        exponent + (mantissa.log2 - 52 : Nat)) := by
  have count : ((mantissa.log2 : Int) + exponent - 52 - exponent).toNat = mantissa.log2 - 52 := by
    omega
  rw [shiftToTargetExponent, targetExponent_eq normal, shiftToExponent, count]
  rfl

/-! ### Rounding -/

/-- A number that is zero, or at least one and at most some bound in magnitude. -/
inductive AtMost (bound : ℚ) : UnpackedFloat → Prop
  | zero (sign : Sign) : AtMost bound (.zero sign)
  | finite (sign : Sign) {mantissa : Nat} {exponent : Int} (pos : 0 < mantissa)
      (full : mantissa.log2 = 52) (normal : -52 ≤ exponent)
      (below : (mantissa : ℚ) * 2 ^ exponent ≤ bound) :
      AtMost bound (.finite sign mantissa exponent pos)

/-- What one rounding can make of a number. -/
def grown (value : ℚ) : ℚ :=
  value * (1 + 1 / 2 ^ 52)

theorem grown_mono {smaller larger : ℚ} (le : smaller ≤ larger) : grown smaller ≤ grown larger := by
  unfold grown
  gcongr

theorem AtMost.mono {smaller larger : ℚ} {number : UnpackedFloat} (most : AtMost smaller number)
    (le : smaller ≤ larger) : AtMost larger number := by
  cases most with
  | zero sign => exact .zero sign
  | finite sign pos full normal below => exact .finite sign pos full normal (below.trans le)

theorem two_zpow_pos (exponent : Int) : (0 : ℚ) < 2 ^ exponent :=
  zpow_pos (by norm_num) exponent

/-- One unit more than a shifted mantissa is within one rounding of the mantissa. -/
theorem le_grown {mantissa rounded count : Nat} (exponent : Int)
    (full : 2 ^ 52 ≤ mantissa / 2 ^ count) (le : rounded ≤ mantissa / 2 ^ count + 1) :
    (rounded : ℚ) * 2 ^ (exponent + count) ≤ grown (mantissa * 2 ^ exponent) := by
  have kept : (mantissa / 2 ^ count : Nat) * (2 : ℚ) ^ count ≤ mantissa := by
    exact_mod_cast Nat.div_mul_le_self mantissa (2 ^ count)
  have unit : (rounded : ℚ) ≤ (mantissa / 2 ^ count : Nat) * (1 + 1 / 2 ^ 52) := by
    have one : ((rounded : Nat) : ℚ) ≤ (mantissa / 2 ^ count : Nat) + 1 := by exact_mod_cast le
    have large : ((2 : ℚ) ^ 52) ≤ (mantissa / 2 ^ count : Nat) := by exact_mod_cast full
    have share : (1 : ℚ) ≤ (mantissa / 2 ^ count : Nat) * (1 / 2 ^ 52) := by
      rw [mul_one_div, one_le_div (by positivity)]
      exact large
    linarith
  have power := two_zpow_pos exponent
  calc (rounded : ℚ) * 2 ^ (exponent + count)
      = rounded * 2 ^ count * 2 ^ exponent := by
        rw [zpow_add₀ (by norm_num), zpow_natCast]
        ring
    _ ≤ (mantissa / 2 ^ count : Nat) * (1 + 1 / 2 ^ 52) * 2 ^ count * 2 ^ exponent := by
        gcongr
    _ = (mantissa / 2 ^ count : Nat) * 2 ^ count * 2 ^ exponent * (1 + 1 / 2 ^ 52) := by ring
    _ ≤ mantissa * 2 ^ exponent * (1 + 1 / 2 ^ 52) := by gcongr

/-- A mantissa of 53 bits, or the next power of two, has its final form after one more shift. -/
theorem finished_atMost (sign : Sign) {bound : ℚ} {rounded : Nat} {exponent : Int}
    (least : 2 ^ 52 ≤ rounded) (most : rounded ≤ 2 ^ 53) (normal : -52 ≤ exponent)
    (below : (rounded : ℚ) * 2 ^ exponent ≤ bound) :
    ∃ mantissa final, ∃ pos : 0 < mantissa,
      (shiftToTargetExponent Format.binary64 rounded exponent .exact).1.mantissa = mantissa ∧
      (shiftToTargetExponent Format.binary64 rounded exponent .exact).2 = final ∧
      AtMost bound (.finite sign mantissa final pos) := by
  by_cases small : rounded < 2 ^ 53
  · have log : rounded.log2 = 52 := (Nat.log2_eq_iff (by omega)).mpr ⟨least, small⟩
    rw [shiftToTargetExponent_eq log.ge (by omega), log]
    refine ⟨rounded, exponent, by omega, rfl, Int.add_zero _, ?_⟩
    exact .finite sign _ log normal below
  · -- The rounding was carried into one more bit, which is shifted out again.
    obtain rfl : rounded = 2 ^ 53 := by omega
    have log : (2 ^ 53 : Nat).log2 = 53 := Nat.log2_two_pow
    rw [shiftToTargetExponent_eq (by omega) (by omega), log, mantissa_shiftRight]
    refine ⟨2 ^ 52, exponent + 1, by decide, rfl, rfl, ?_⟩
    refine .finite sign _ Nat.log2_two_pow (by omega) (le_of_eq_of_le ?_ below)
    rw [zpow_add₀ (by norm_num)]
    norm_num
    ring

/-- Rounding a number that is at least one and has a mantissa long enough. -/
theorem roundWithAccuracy_atMost (sign : Sign) {mantissa : Nat} (exponent : Int)
    (pos : 0 < mantissa) (full : 52 ≤ mantissa.log2) (normal : 0 ≤ (mantissa.log2 : Int) + exponent) :
    AtMost (grown (mantissa * 2 ^ exponent))
      (roundWithAccuracy Format.binary64 sign mantissa exponent .exact) := by
  set count := mantissa.log2 - 52 with count_eq
  have least : 2 ^ 52 ≤ mantissa / 2 ^ count := by
    rw [Nat.le_div_iff_mul_le (by positivity), ← Nat.pow_add]
    have digits := Nat.log2_self_le pos.ne'
    rwa [show 52 + count = mantissa.log2 by omega]
  have most : mantissa / 2 ^ count < 2 ^ 53 := by
    rw [Nat.div_lt_iff_lt_mul (by positivity), ← Nat.pow_add]
    have digits := Nat.lt_log2_self (n := mantissa)
    rwa [show 53 + count = mantissa.log2 + 1 by omega]
  have bounds := roundedMantissa_bounds (ExtendedMantissa.mk mantissa false false >>> count)
  rw [mantissa_shiftRight] at bounds
  obtain ⟨final, power, final_pos, mantissa_eq, power_eq, most⟩ :=
    finished_atMost sign (least.trans bounds.1) (bounds.2.trans most) (by omega)
      (le_grown exponent least bounds.2)
  rw [roundWithAccuracy, shiftToTargetExponent_eq full normal]
  dsimp only
  rw [← count_eq, mantissa_eq, power_eq, dif_neg final_pos.ne']
  exact most

theorem mul_atMost {left right : ℚ} {first second : UnpackedFloat} (first_most : AtMost left first)
    (second_most : AtMost right second) :
    AtMost (grown (left * right)) (mul Format.binary64 first second) := by
  cases first_most with
  | zero sign =>
      cases second_most with
      | zero other => exact .zero _
      | finite other _ _ _ _ => exact .zero _
  | @finite sign mantissa exponent pos full normal below =>
      cases second_most with
      | zero other => exact .zero _
      | @finite other factor power factor_pos factor_full factor_normal factor_below =>
          have product_full : 104 ≤ (mantissa * factor).log2 := by
            rw [Nat.le_log2 (Nat.mul_pos pos factor_pos).ne', show 104 = 52 + 52 from rfl,
              Nat.pow_add]
            refine Nat.mul_le_mul ?_ ?_
            · exact full ▸ Nat.log2_self_le pos.ne'
            · exact factor_full ▸ Nat.log2_self_le factor_pos.ne'
          refine (roundWithAccuracy_atMost _ _ (Nat.mul_pos pos factor_pos) (by omega)
            (by omega)).mono (grown_mono ?_)
          have power_pos := two_zpow_pos exponent
          have factor_power_pos := two_zpow_pos power
          have left_nonneg : 0 ≤ left := le_trans (by positivity) below
          calc ((mantissa * factor : Nat) : ℚ) * 2 ^ (exponent + power)
              = (mantissa * 2 ^ exponent) * (factor * 2 ^ power) := by
                rw [zpow_add₀ (by norm_num)]
                push_cast
                ring
            _ ≤ left * right := by gcongr

/-! ### Packing -/

/-- A mantissa of 53 bits without its first bit, and that bit in front again. -/
theorem append_ofNat {mantissa : Nat} (least : 2 ^ 52 ≤ mantissa) (most : mantissa < 2 ^ 53) :
    (1#1 ++ BitVec.ofNat 52 mantissa).toNat = mantissa := by
  rw [BitVec.toNat_append, ← Nat.shiftLeft_add_eq_or_of_lt (BitVec.isLt _), BitVec.toNat_ofNat]
  change 2 ^ 52 + mantissa % 2 ^ 52 = mantissa
  omega

theorem exponent_le {mantissa : Nat} {exponent : Int} {bound : ℚ} (least : 2 ^ 52 ≤ mantissa)
    (below : (mantissa : ℚ) * 2 ^ exponent ≤ bound) (fits : bound < 2 ^ 1024) :
    exponent ≤ 971 := by
  have power := two_zpow_pos exponent
  have large : (2 : ℚ) ^ (52 + exponent) < 2 ^ (1024 : Int) := by
    calc (2 : ℚ) ^ (52 + exponent) = 2 ^ 52 * 2 ^ exponent := zpow_add₀ (by norm_num) _ _
      _ ≤ mantissa * 2 ^ exponent := by
        gcongr
        exact_mod_cast least
      _ < 2 ^ (1024 : Int) := below.trans_lt fits
  have order := (zpow_lt_zpow_iff_right₀ (by norm_num)).mp large
  omega

/-- A full mantissa that is packed with an exponent in range is found again when it is unpacked. -/
theorem unpack_pack_full (sign : Sign) {mantissa : Nat} {exponent : Int} (pos : 0 < mantissa)
    (full : mantissa.log2 = 52) (low : -52 ≤ exponent) (high : exponent ≤ 971) :
    ∃ other, (Float.Model.pack (.finite sign mantissa exponent pos)).unpack =
      .finite other mantissa exponent pos := by
  have ⟨least, short⟩ := (Nat.log2_eq_iff pos.ne').mp full
  obtain ⟨field, field_eq⟩ := Int.eq_ofNat_of_zero_le (a := exponent + 1023 + 52) (by omega)
  have field_toNat : (BitVec.ofNat 11 field).toNat = field := by
    rw [BitVec.toNat_ofNat, Nat.mod_eq_of_lt (by omega)]
  -- In range means that the exponent field is neither zero nor all ones.
  have packed : UnpackedFloat.pack Format.binary64 (.finite sign mantissa exponent pos) =
      packComponents Format.binary64 sign (BitVec.ofNat 11 field) (BitVec.ofNat 52 mantissa) := by
    change (if 2 ^ 11 ≤ (exponent + 1023 + 52).toNat + 1 then _
      else if mantissa.log2 + 1 = 53 then packComponents Format.binary64 sign
        (BitVec.ofNat 11 (exponent + 1023 + 52).toNat) (BitVec.ofNat 52 mantissa) else _) = _
    rw [field_eq, Int.toNat_natCast, if_neg (by omega), if_pos (by omega)]
  have not_top : BitVec.ofNat 11 field ≠ -1#11 := by
    intro same
    have top : field = 2047 := field_toNat.symm.trans (congrArg BitVec.toNat same)
    omega
  have not_zero : BitVec.ofNat 11 field ≠ 0#11 := by
    intro same
    have zero : field = 0 := field_toNat.symm.trans (congrArg BitVec.toNat same)
    omega
  change ∃ other, UnpackedFloat.unpack Format.binary64 (UnpackedFloat.pack Format.binary64
    (.finite sign mantissa exponent pos)) = .finite other mantissa exponent pos
  rw [packed, UnpackedFloat.unpack]
  simp only [unpackExponent_packComponents, unpackMantissa_packComponents, not_top, not_zero,
    if_false, field_toNat, append_ofNat least short]
  obtain rfl : exponent = field - 1075 := by omega
  exact ⟨_, rfl⟩

/-- A number that is not too large keeps its magnitude when it is packed. -/
theorem unpack_pack_atMost {bound : ℚ} {number : UnpackedFloat} (most : AtMost bound number)
    (fits : bound < 2 ^ 1024) : AtMost bound (Float.Model.pack number).unpack := by
  cases most with
  | zero sign => cases sign <;> exact .zero _
  | finite sign pos full normal below =>
      have least := ((Nat.log2_eq_iff pos.ne').mp full).1
      obtain ⟨other, same⟩ := unpack_pack_full sign pos full normal (exponent_le least below fits)
      rw [same]
      exact .finite other pos full normal below

/-! ### Whole numbers and powers of ten -/

theorem shiftLeft_value (mantissa count : Nat) (exponent : Int) :
    ((mantissa <<< count : Nat) : ℚ) * 2 ^ (exponent - count) = mantissa * 2 ^ exponent := by
  rw [Nat.shiftLeft_eq, zpow_sub₀ (by norm_num), zpow_natCast]
  push_cast
  rw [mul_assoc, mul_div_cancel₀ _ (by positivity)]

theorem log2_shiftLeft {mantissa : Nat} (pos : 0 < mantissa) (count : Nat) :
    (mantissa <<< count).log2 = mantissa.log2 + count := by
  rw [Nat.shiftLeft_eq, Nat.log2_eq_iff (by positivity)]
  have ⟨least, most⟩ := (Nat.log2_eq_iff pos.ne').mp rfl
  have scale := Nat.two_pow_pos count
  refine ⟨?_, ?_⟩
  · rw [Nat.pow_add]
    exact Nat.mul_le_mul_right _ least
  · rw [Nat.add_right_comm, Nat.pow_add]
    exact Nat.mul_lt_mul_of_pos_right most scale

/-- A magnitude with a bound on it. -/
def Within (bound : ℚ) (x : Float) : Prop :=
  AtMost bound x.toModel.unpack

theorem Within.mul {left right : ℚ} {x y : Float} (first : Within left x) (second : Within right y)
    (fits : grown (left * right) < 2 ^ 1024) : Within (grown (left * right)) (x * y) :=
  unpack_pack_atMost (mul_atMost first second) fits

theorem Within.not_infinite {bound : ℚ} {x : Float} (within : Within bound x) : x.isInf = false := by
  change x.toModel.unpack.isInf = false
  unfold Within at within
  cases h : x.toModel.unpack with
  | infinity sign =>
      rw [h] at within
      cases within
  | notANumber => rfl
  | zero sign => rfl
  | finite sign mantissa exponent pos => rfl

theorem ofNat_atMost (value : Nat) :
    AtMost (grown value) (UnpackedFloat.ofNat Format.binary64 value) := by
  obtain rfl | pos := Nat.eq_zero_or_pos value
  · exact .zero .positive
  · have order : compare (value : Int) 0 = .gt := Int.compare_eq_gt.mpr (by omega)
    rw [UnpackedFloat.ofNat, UnpackedFloat.ofInt, UnpackedFloat.normalize, order]
    dsimp only
    rw [Int.toNat_natCast, UnpackedFloat.round, targetExponent_eq (by omega)]
    set count := (0 - ((value.log2 : Int) + 0 - 52)).toNat with count_eq
    change AtMost _ (roundWithAccuracy Format.binary64 .positive (value <<< count) (0 - count) .exact)
    have log := log2_shiftLeft pos count
    have shifted : 0 < value <<< count := by
      rw [Nat.shiftLeft_eq]
      positivity
    refine (roundWithAccuracy_atMost .positive _ shifted (by omega) (by omega)).mono (grown_mono ?_)
    rw [shiftLeft_value, zpow_zero, mul_one]

/-- A decimal without a fraction is rounded once. -/
theorem ofScientific_atMost {mantissa : Nat} (pos : 0 < mantissa) {power : Nat}
    (small : power ≤ 2048) :
    AtMost (grown (mantissa * 10 ^ power))
      (UnpackedFloat.ofScientific Format.binary64 mantissa power) := by
  have product : 2 ^ 53 ≤ mantissa <<< 53 * 10 ^ power := by
    rw [Nat.shiftLeft_eq]
    exact Nat.le_mul_of_pos_left _ pos |>.trans (Nat.le_mul_of_pos_right _ (by positivity))
  have pos_product := (Nat.two_pow_pos 53).trans_le product
  have log : 53 ≤ (mantissa <<< 53 * 10 ^ power).log2 :=
    (Nat.le_log2 pos_product.ne').mpr product
  have rounded := roundWithAccuracy_atMost (.positive * .positive) (-53 + 0) pos_product
    (by omega) (by omega)
  have same : ((mantissa <<< 53 * 10 ^ power : Nat) : ℚ) * 2 ^ (-53 + 0 : Int) =
      mantissa * 10 ^ power := by
    have shifted := shiftLeft_value mantissa 53 0
    rw [zpow_zero, mul_one] at shifted
    rw [← shifted]
    push_cast
    ring
  rw [same] at rounded
  rw [UnpackedFloat.ofScientific, dif_neg pos.ne', if_neg, if_neg, if_pos (by omega)]
  · exact rounded
  · change ¬ (power : Int) < -(2048 + (mantissa.log2 : Int))
    omega
  · change ¬ (power : Int) > 2048
    omega

/-- A power of ten is the number nearest to it, also where it is looked up. -/
theorem powerOfTen_eq (power : Nat) :
    Json.Read.powerOfTen power = Float.ofModel (Float.Model.ofScientific 1 power) := by
  have exact : ∀ power < 23,
      Float.ofScientific 1 false power = Float.ofModel (Float.Model.ofScientific 1 power) := by
    decide +kernel
  by_cases small : power ≤ 22
  · exact exact power (by omega)
  · unfold Json.Read.powerOfTen Float.ofScientific
    rw [dif_neg (fun both => small both.2)]
    rfl

theorem model_within {mantissa : Nat} (power : Nat) (pos : 0 < mantissa) (small : power ≤ 2048)
    (fits : grown (mantissa * 10 ^ power) < 2 ^ 1024) :
    Within (grown (mantissa * 10 ^ power)) (Float.ofModel (Float.Model.ofScientific mantissa power)) :=
  unpack_pack_atMost (ofScientific_atMost pos small) fits

theorem powerOfTen_within {power : Nat} (small : power ≤ 308) :
    Within (grown (10 ^ power)) (Json.Read.powerOfTen power) := by
  have order : (10 : ℚ) ^ power ≤ 10 ^ 308 := pow_le_pow_right₀ (by norm_num) small
  have fits : (10 : ℚ) ^ 308 * (2 ^ 52 + 1) < 2 ^ 1024 * 2 ^ 52 := by
    have exact : 10 ^ 308 * (2 ^ 52 + 1) < 2 ^ 1024 * 2 ^ 52 := by decide +kernel
    exact_mod_cast exact
  have within := model_within power Nat.one_pos (by omega)
  rw [Nat.cast_one, one_mul] at within
  rw [powerOfTen_eq]
  refine within ((grown_mono order).trans_lt ?_)
  unfold grown
  -- These powers are too large to be multiplied out.
  generalize (10 : ℚ) ^ 308 = largest at fits
  generalize (2 : ℚ) ^ 1024 = infinite at fits
  linarith

theorem one_within : Within (grown 1) Float.exactlyRepresentablePowersOfTen[0] := by
  have exact : Float.exactlyRepresentablePowersOfTen[0] =
      Float.ofModel (Float.Model.ofScientific 1 0) := by
    decide +kernel
  have within := model_within 0 Nat.one_pos (by omega)
  rw [Nat.cast_one, pow_zero, mul_one] at within
  rw [exact]
  refine within ?_
  have order : (2 : ℚ) ^ 1 ≤ 2 ^ 1024 := pow_le_pow_right₀ (by norm_num) (by norm_num)
  refine lt_of_lt_of_le ?_ order
  unfold grown
  norm_num

/-- What a significand can become, which takes the way through a product if it is short. -/
def grownSignificand (value : Nat) : ℚ :=
  grown (grown value * grown 1)

theorem grown_le_significand (value : Nat) : grown value ≤ grownSignificand value := by
  have nonneg : (0 : ℚ) ≤ value := Nat.cast_nonneg value
  have larger : (value : ℚ) ≤ grown value * grown 1 := by
    unfold grown
    linarith
  exact grown_mono larger

theorem grownSignificand_lt {value : Nat} (small : value ≤ Json.Read.greatestWhole) :
    grownSignificand value < 2 ^ 1024 := by
  have value_le : (value : ℚ) ≤ 2 ^ 64 := by
    refine (Nat.cast_le (α := ℚ).mpr small).trans ?_
    norm_num [Json.Read.greatestWhole]
  have order : (2 : ℚ) ^ 65 ≤ 2 ^ 1024 := pow_le_pow_right₀ (by norm_num) (by norm_num)
  refine lt_of_lt_of_le ?_ order
  unfold grownSignificand grown
  norm_num
  linarith

theorem ofNat_within {value : Nat} (small : value ≤ Json.Read.greatestWhole) :
    Within (grownSignificand value) (Float.ofNat value) := by
  have fits := grownSignificand_lt small
  have once := grown_le_significand value
  change Within _ (Float.ofScientific value false 0)
  unfold Float.ofScientific
  split
  case isTrue short =>
    refine Within.mul ?_ one_within fits
    refine unpack_pack_atMost ?_ (once.trans_lt fits)
    rw [UnpackedFloat.ofUInt64, show value.toUInt64.toNat = value from Nat.mod_eq_of_lt (by omega)]
    exact ofNat_atMost value
  case isFalse long =>
    have pos : 0 < value := by omega
    have within := model_within 0 pos (by omega)
    rw [pow_zero, mul_one] at within
    exact (within (once.trans_lt fits)).mono once

/-! ### Numbers made of a significand and a power of ten -/

/-- The largest magnitude that may be met in a few steps that each round: sixteen units below what
is infinite. -/
def limit : Nat := (2 ^ 53 - 16) * 2 ^ 971

theorem product_not_infinite {significand power : Nat}
    (small : significand ≤ Json.Read.greatestWhole) (power_le : power ≤ 308)
    (below : significand * 10 ^ power ≤ limit) :
    (Float.ofNat significand * Json.Read.powerOfTen power).isInf = false := by
  refine (Within.mul (ofNat_within small) (powerOfTen_within power_le) ?_).not_infinite
  have decimal : (significand : ℚ) * 10 ^ power ≤ (2 ^ 53 - 16 : Nat) * 2 ^ 971 := by
    have cast := Nat.cast_le (α := ℚ).mpr below
    rwa [limit, Nat.cast_mul, Nat.cast_mul, Nat.cast_pow, Nat.cast_pow, Nat.cast_ofNat,
      Nat.cast_ofNat] at cast
  have infinite : (2 : ℚ) ^ 1024 = 2 ^ 53 * 2 ^ 971 := by rw [← pow_add]
  have unit_pos : (0 : ℚ) < 2 ^ 971 := pow_pos (by norm_num) 971
  have room : ((2 ^ 53 - 16 : Nat) : ℚ) * (1 + 1 / 2 ^ 52) ^ 5 < 2 ^ 53 := by norm_num
  generalize (2 : ℚ) ^ 971 = unit at decimal infinite unit_pos
  rw [infinite]
  -- Five roundings: three of the significand, one of the power and one of the product.
  calc grown (grownSignificand significand * grown (10 ^ power))
      = significand * 10 ^ power * (1 + 1 / 2 ^ 52) ^ 5 := by
        unfold grownSignificand grown
        ring
    _ ≤ (2 ^ 53 - 16 : Nat) * unit * (1 + 1 / 2 ^ 52) ^ 5 := by gcongr
    _ = (2 ^ 53 - 16 : Nat) * (1 + 1 / 2 ^ 52) ^ 5 * unit := by ring
    _ < 2 ^ 53 * unit := by gcongr

/-- A negative power of ten is divided by, which makes no number too large. -/
theorem scaled?_of_neg (count : Nat) (value : Float) {exponent : Int} (neg : exponent < 0) :
    ∃ result, Json.Read.scaled? count value exponent = some result := by
  induction count generalizing value exponent with
  | zero => exact ⟨value, rfl⟩
  | succ count ih =>
      unfold Json.Read.scaled?
      split
      · rw [if_neg (by omega)]
        exact ⟨_, rfl⟩
      · split
        · exact ⟨value, rfl⟩
        · rw [if_neg (by omega)]
          exact ih _ (by omega)

theorem scaled?_isSome {significand : Nat} {exponent : Int}
    (small : significand ≤ Json.Read.greatestWhole)
    (fits : 0 ≤ exponent → exponent ≤ 308 ∧ significand * 10 ^ exponent.toNat ≤ limit) :
    ∃ result, Json.Read.scaled? 4 (Float.ofNat significand) exponent = some result := by
  by_cases neg : exponent < 0
  · exact scaled?_of_neg 4 _ neg
  · have nonneg : 0 ≤ exponent := by omega
    obtain ⟨power_le, below⟩ := fits nonneg
    rw [show exponent.toNat = exponent.natAbs by omega] at below
    have finite := product_not_infinite small (by omega) below
    refine ⟨Float.ofNat significand * Json.Read.powerOfTen exponent.natAbs, ?_⟩
    unfold Json.Read.scaled?
    rw [if_pos (by omega), if_pos nonneg]
    dsimp only
    rw [finite, if_neg Bool.false_ne_true]

end DocDrift.Decimal
