import DocDrift.Proofs.Json.Numbers

/-!
The text of a finite floating-point number is read again as a finite number or what one rounding
more makes of it: its shortest decimal is far enough from what is infinite, except for the sixteen
largest numbers, which are looked at one by one.
-/

set_option autoImplicit false

namespace DocDrift.Json

open Read

/-! ### The significand that is read -/

/-- What a reader makes of digits with a point behind the first one and an exponent: a significand
and a power of ten. -/
def scientific (decimal : Decimal) : Nat × Int :=
  match Nat.toDigits 10 decimal.digits with
  | [] => (0, 0)
  | digit :: part =>
      let (significand, used) := absorb (Nat.ofDigitChars 10 [digit] 0) part
      (significand, part.length + decimal.exponent - used)

/-- A decimal that a reader makes a number of: its point is not too far to the right. -/
structure Makes (decimal : Decimal) : Prop where
  point : decimal.exponent + (Nat.toDigits 10 decimal.digits).length ≤ 309
  made : ∃ value, scaled? 4 (Float.ofNat (scientific decimal).1) (scientific decimal).2 = some value

theorem ten_pow_le_digits {value : Nat} (pos : 0 < value) :
    10 ^ ((Nat.toDigits 10 value).length - 1) ≤ value := by
  by_contra less
  obtain one | more : (Nat.toDigits 10 value).length ≤ 1 ∨ 1 < (Nat.toDigits 10 value).length := by
    omega
  · rw [show (Nat.toDigits 10 value).length - 1 = 0 by omega, Nat.pow_zero] at less
    omega
  · have shorter : (Nat.toDigits 10 value).length ≤ (Nat.toDigits 10 value).length - 1 :=
      (Nat.length_toDigits_le_iff (by decide) (by omega)).mpr (by omega)
    omega

theorem makes_of_le {decimal : Decimal} (pos : 0 < decimal.digits)
    (below : decimal.digits * 10 ^ decimal.exponent.toNat ≤
      Decimal.limit * 10 ^ (-decimal.exponent).toNat) : Makes decimal := by
  have point : decimal.exponent + (Nat.toDigits 10 decimal.digits).length ≤ 309 := by
    have limit_lt : Decimal.limit < 10 ^ 309 := by decide +kernel
    have power : 10 ^ ((Nat.toDigits 10 decimal.digits).length - 1 + decimal.exponent.toNat) <
        10 ^ (309 + (-decimal.exponent).toNat) := by
      rw [Nat.pow_add, Nat.pow_add]
      calc 10 ^ ((Nat.toDigits 10 decimal.digits).length - 1) * 10 ^ decimal.exponent.toNat
          ≤ decimal.digits * 10 ^ decimal.exponent.toNat :=
            Nat.mul_le_mul_right _ (ten_pow_le_digits pos)
        _ ≤ Decimal.limit * 10 ^ (-decimal.exponent).toNat := below
        _ < 10 ^ 309 * 10 ^ (-decimal.exponent).toNat :=
            Nat.mul_lt_mul_of_pos_right limit_lt (Nat.pow_pos (by decide))
    have order := (Nat.pow_lt_pow_iff_right (by decide)).mp power
    omega
  refine ⟨point, ?_⟩
  unfold scientific
  cases begins : Nat.toDigits 10 decimal.digits with
  | nil => exact absurd begins Nat.toDigits_ne_nil
  | cons digit part =>
      rw [begins, List.length_cons] at point
      have small : Nat.ofDigitChars 10 [digit] 0 ≤ greatestWhole :=
        first_small (begins ▸ toDigits_digits decimal.digits)
      have value : Nat.ofDigitChars 10 part (Nat.ofDigitChars 10 [digit] 0) = decimal.digits := by
        rw [← Nat.ofDigitChars_append, List.singleton_append, ← begins, Nat.ofDigitChars_ten_toDigits]
      -- The digits that are left out only make the significand smaller than the decimal is.
      have ⟨count, taken⟩ := absorb_le (Nat.ofDigitChars 10 [digit] 0) part
      rw [value] at taken
      dsimp only
      set used := (absorb (Nat.ofDigitChars 10 [digit] 0) part).2
      set significand := (absorb (Nat.ofDigitChars 10 [digit] 0) part).1
      refine Decimal.scaled?_isSome (absorb_small small part) (fun nonneg => ⟨by omega, ?_⟩)
      have scale_pos : 0 < 10 ^ (-decimal.exponent).toNat := Nat.pow_pos (by decide)
      refine Nat.le_of_mul_le_mul_right ?_ scale_pos
      calc significand * 10 ^ (part.length + decimal.exponent - used).toNat *
            10 ^ (-decimal.exponent).toNat
          = significand * 10 ^ (part.length - used) * 10 ^ decimal.exponent.toNat := by
            rw [Nat.mul_assoc, Nat.mul_assoc, ← Nat.pow_add, ← Nat.pow_add]
            congr 2
            omega
        _ ≤ decimal.digits * 10 ^ decimal.exponent.toNat := Nat.mul_le_mul_right _ taken
        _ ≤ Decimal.limit * 10 ^ (-decimal.exponent).toNat := below

theorem makes_of_largest (lower : Nat) (few : lower < 16) :
    Makes (Decimal.Binary.shortest ⟨false, 2 ^ 53 - 1 - lower, 971, false⟩) := by
  -- Their shortest decimals are too near to what is infinite for a bound on the rounding.
  have all : ∀ lower < 16,
      let decimal := Decimal.Binary.shortest ⟨false, 2 ^ 53 - 1 - lower, 971, false⟩
      decimal.exponent + (Nat.toDigits 10 decimal.digits).length ≤ 309 ∧
        (scaled? 4 (Float.ofNat (scientific decimal).1) (scientific decimal).2).isSome = true := by
    decide +kernel
  have ⟨point, made⟩ := all lower few
  exact ⟨point, Option.isSome_iff_exists.mp made⟩

theorem makes_of_double {number : Decimal.Binary} (double : number.Double)
    (pos : 0 < number.shortest.digits) : Makes number.shortest := by
  have nonzero : number.mantissa ≠ 0 := by
    intro zero
    rw [Decimal.Binary.shortest, if_pos zero] at pos
    exact absurd pos (Nat.lt_irrefl 0)
  by_cases clear : number.exponent < 971 ∨ number.mantissa < 2 ^ 53 - 16
  · exact makes_of_le pos (double.shortest_le_limit nonzero clear)
  · obtain ⟨negative, mantissa, exponent, lowest⟩ := number
    have high : exponent ≤ 971 := double.high
    have short : mantissa < 2 ^ 53 := double.short
    have noLowest : lowest ≠ true := by
      intro lowest
      have smallest : mantissa = 2 ^ 52 := double.lowest lowest
      exact clear (.inr (smallest ▸ (by decide : 2 ^ 52 < 2 ^ 53 - 16)))
    have last : ¬ mantissa < 2 ^ 53 - 16 := fun less => clear (.inr less)
    obtain rfl : exponent = 971 := by
      have top : ¬ exponent < 971 := fun less => clear (.inl less)
      omega
    obtain rfl : lowest = false := Bool.eq_false_iff.mpr noLowest
    have made := makes_of_largest (2 ^ 53 - 1 - mantissa) (by omega)
    rwa [show 2 ^ 53 - 1 - (2 ^ 53 - 1 - mantissa) = mantissa by omega] at made

/-! ### The text of a number -/

theorem toDigits_first {value : Nat} (pos : 0 < value) :
    ∃ digit part, Nat.toDigits 10 value = digit :: part ∧ digit ≠ '0' := by
  cases begins : Nat.toDigits 10 value with
  | nil => exact absurd begins Nat.toDigits_ne_nil
  | cons digit part =>
      refine ⟨digit, part, rfl, ?_⟩
      rintro rfl
      have digits := toDigits_digits value
      rw [begins] at digits
      have rest : Nat.ofDigitChars 10 part 0 = value := by
        have all := Nat.ofDigitChars_ten_toDigits (n := value)
        rwa [begins, Nat.ofDigitChars_cons] at all
      have below := ofDigitChars_lt (fun c mem => digits c (List.mem_cons_of_mem _ mem))
      have least := ten_pow_le_digits pos
      rw [begins, List.length_cons, Nat.add_sub_cancel] at least
      omega

theorem zeros_digits (count : Nat) : Digits (List.replicate count '0') :=
  fun _ mem => (List.eq_of_mem_replicate mem).symm ▸ rfl

theorem Digits.append {left right : List Char} (first : Digits left) (second : Digits right) :
    Digits (left ++ right) :=
  fun c mem => (List.mem_append.mp mem).elim (first c) (second c)

/-- The digits of a decimal with a point in its place. -/
def placed (decimal : Decimal) : List Char :=
  let digits := Nat.toDigits 10 decimal.digits
  let point : Int := digits.length + decimal.exponent
  if 0 ≤ decimal.exponent then
    digits ++ List.replicate decimal.exponent.toNat '0' ++ ['.', '0']
  else if 0 < point then digits.take point.toNat ++ '.' :: digits.drop point.toNat
  else '0' :: '.' :: (List.replicate (-point).toNat '0' ++ digits)

theorem decimalText_toList (style : Decimal.FloatStyle) {decimal : Decimal}
    (pos : 0 < decimal.digits) :
    let digits := Nat.toDigits 10 decimal.digits
    let point : Int := digits.length + decimal.exponent
    (style.decimalText decimal).toList =
      if style.positional point then placed decimal
      else pointed digits ++ 'e' :: (toString (point - 1)).toList := by
  have digits : (toString decimal.digits).toList = Nat.toDigits 10 decimal.digits := by
    rw [Nat.toString_eq_repr, Nat.toList_repr]
  unfold Decimal.FloatStyle.decimalText placed
  dsimp only
  rw [if_neg (by omega), digits, ← String.length_toList, digits]
  split
  · split
    · simp [Decimal.zeros]
    · split
      · simp
      · simp [Decimal.zeros]
  · cases Nat.toDigits 10 decimal.digits with
    | nil => simp [pointed]
    | cons digit part =>
        cases part <;> simp [pointed]

theorem placed_eq {decimal : Decimal} (pos : 0 < decimal.digits) :
    ∃ whole part, placed decimal = whole ++ '.' :: part ∧ Leads whole ∧ Digits part ∧ part ≠ [] ∧
      (whole.length : Int) ≤ max 1 ((Nat.toDigits 10 decimal.digits).length + decimal.exponent) := by
  obtain ⟨digit, part, begins, leading⟩ := toDigits_first pos
  have digits := toDigits_digits decimal.digits
  unfold placed
  rw [begins] at digits ⊢
  dsimp only
  split
  case isTrue whole =>
    have all := digits.append (zeros_digits decimal.exponent.toNat)
    refine ⟨_, ['0'], rfl, .inr ⟨digit, _, rfl, leading, all⟩, zeros_digits 1,
      List.cons_ne_nil _ _, ?_⟩
    rw [List.length_append, List.length_replicate]
    omega
  case isFalse broken =>
    split
    case isTrue inside =>
      set point := ((digit :: part).length + decimal.exponent).toNat with point_eq
      have front : (digit :: part).take point = digit :: part.take (point - 1) := by
        rw [← List.take_succ_cons]
        congr 1
        omega
      refine ⟨_, _, rfl, .inr ⟨digit, _, front, leading, ?_⟩, ?_, ?_, ?_⟩
      · exact fun c mem => digits c (List.mem_of_mem_take mem)
      · exact fun c mem => digits c (List.mem_of_mem_drop mem)
      · intro empty
        have short := List.drop_eq_nil_iff.mp empty
        omega
      · rw [List.length_take]
        omega
    case isFalse outside =>
      refine ⟨['0'], _, rfl, .inl rfl, (zeros_digits _).append digits, ?_, by simp⟩
      exact List.append_ne_nil_of_right_ne_nil _ (List.cons_ne_nil _ _)

theorem yields_placed (positive : Bool) {decimal : Decimal} (pos : 0 < decimal.digits)
    (near : (Nat.toDigits 10 decimal.digits).length + decimal.exponent ≤ 16) :
    ReadsReal (number positive) (placed decimal) := by
  obtain ⟨whole, part, text, leads, places, nonempty, short⟩ := placed_eq pos
  rw [text]
  exact yields_places positive leads places nonempty (by omega)

theorem yields_pointed (positive : Bool) {decimal : Decimal} (pos : 0 < decimal.digits)
    (makes : Makes decimal) :
    ReadsReal (number positive)
      (pointed (Nat.toDigits 10 decimal.digits) ++
        'e' :: (toString ((Nat.toDigits 10 decimal.digits).length + decimal.exponent - 1)).toList) := by
  obtain ⟨digit, part, begins, leading⟩ := toDigits_first pos
  have digits := toDigits_digits decimal.digits
  obtain ⟨near, value, made⟩ := makes
  rw [scientific, begins] at made
  rw [begins] at digits near ⊢
  dsimp only at made
  have small := first_small digits
  have taken := absorb_small small part
  rw [List.length_cons] at near ⊢
  rw [Int.toString_eq_repr, Int.repr_eq_if]
  split
  case isTrue up =>
    obtain ⟨power, power_eq⟩ := Int.eq_ofNat_of_zero_le up
    rw [power_eq, Int.toNat_natCast, Nat.toList_repr]
    set used := (absorb (Nat.ofDigitChars 10 [digit] 0) part).2
    have kept : ∃ value, scaled? 4
        (Float.ofNat (absorb (Nat.ofDigitChars 10 [digit] 0) part).1)
        (max (-2147483648) (min 2147483647 ((0 : Nat) - (used : Int) + power))) = some value := by
      -- Below zero the number is divided by a power of ten, and nothing can become infinite.
      by_cases nonneg : 0 ≤ part.length + decimal.exponent - used
      · refine ⟨value, ?_⟩
        rw [← made]
        congr 1
        omega
      · exact made_of_nonpos taken _ (by omega)
    obtain ⟨value, kept⟩ := kept
    exact yields_scientific positive digits leading (yields_exponentUp positive (by omega) kept)
  case isFalse down =>
    rw [String.toList_append, Nat.toList_repr]
    have exponent : ((0 : Nat) : Int) - (absorb (Nat.ofDigitChars 10 [digit] 0) part).2 ≤ 0 := by
      omega
    exact yields_scientific positive digits leading (yields_exponentDown positive taken exponent)

theorem decimalText_zero {decimal : Decimal} (zero : decimal.digits = 0) :
    Decimal.exchangeStyle.decimalText decimal = "0.0" := by
  unfold Decimal.FloatStyle.decimalText
  exact if_pos zero

theorem yields_decimalText (positive : Bool) {decimal : Decimal}
    (makes : 0 < decimal.digits → Makes decimal) :
    ReadsReal (number positive) (Decimal.exchangeStyle.decimalText decimal).toList := by
  obtain zero | pos := Nat.eq_zero_or_pos decimal.digits
  · rw [decimalText_zero zero]
    exact yields_places positive (.inl rfl) (zeros_digits 1) (List.cons_ne_nil _ _) (by decide)
  · rw [decimalText_toList _ pos]
    split
    case isTrue positional =>
      have near := of_decide_eq_true (Bool.and_eq_true_iff.mp positional).2
      exact yields_placed positive pos near
    case isFalse => exact yields_pointed positive pos (makes pos)

theorem decimalText_begins (decimal : Decimal) :
    ∃ c more, (Decimal.exchangeStyle.decimalText decimal).toList = c :: more ∧ c.isDigit = true := by
  obtain zero | pos := Nat.eq_zero_or_pos decimal.digits
  · rw [decimalText_zero zero]
    exact ⟨'0', ['.', '0'], by decide, rfl⟩
  · obtain ⟨digit, part, begins, _⟩ := toDigits_first pos
    have isDigit := toDigits_digits decimal.digits digit (begins ▸ List.mem_cons_self)
    rw [decimalText_toList _ pos]
    unfold placed
    rw [begins]
    dsimp only
    split
    · split
      · exact ⟨digit, _, rfl, isDigit⟩
      · split
        case isTrue inside =>
          obtain ⟨point, point_eq⟩ := Int.eq_succ_of_zero_lt inside
          rw [point_eq]
          exact ⟨digit, _, rfl, isDigit⟩
        case isFalse => exact ⟨'0', _, rfl, rfl⟩
    · cases part <;> exact ⟨digit, _, rfl, isDigit⟩

/-! ### Finite numbers -/

theorem realText_toList {x : Float} (finite : x.isFinite = true) :
    ∃ (negative : Bool) (decimal : Decimal), (0 < decimal.digits → Makes decimal) ∧
      (realText x).toList =
        (if negative then ['-'] else []) ++ (Decimal.exchangeStyle.decimalText decimal).toList := by
  obtain ⟨number, value, double⟩ := Decimal.finite_of_isFinite finite
  refine ⟨number.negative, number.shortest, fun pos => makes_of_double double pos, ?_⟩
  rw [realText, Decimal.FloatStyle.finiteText?, value]
  dsimp only [Option.getD_some]
  rw [String.toList_append]
  cases number.negative <;> rfl

theorem isSpace_of_isDigit {c : Char} (digit : c.isDigit = true) : isSpace c = false := by
  refine Bool.eq_false_iff.mpr (fun space => ?_)
  unfold isSpace at space
  simp only [Bool.or_eq_true, beq_iff_eq] at space
  obtain ((rfl | rfl) | rfl) | rfl := space <;> cases digit

theorem yields_signedNumber (negative : Bool) {decimal : Decimal}
    (makes : 0 < decimal.digits → Makes decimal) :
    ReadsReal signedNumber
      ((if negative then ['-'] else []) ++ (Decimal.exchangeStyle.decimalText decimal).toList) := by
  obtain ⟨c, more, begins, digit⟩ := decimalText_begins decimal
  obtain ⟨value, reads⟩ := yields_decimalText (!negative) makes
  refine ⟨value, fun rest ends => ?_⟩
  have reads := reads rest ends
  unfold signedNumber
  cases negative with
  | true =>
      refine yields_bind [] _ (yields_peek '-' _) ?_
      rw [if_pos (by decide)]
      exact yields_bind ['-'] _ (yields_skip ['-'] _) reads
  | false =>
      rw [begins] at reads ⊢
      refine yields_bind [] (c :: more) (yields_peek c _) ?_
      rw [if_neg]
      · exact reads
      · intro minus
        rw [Option.some.inj (beq_iff_eq.mp minus)] at digit
        cases digit

/-- A finite number is read as a number, though perhaps not as the same one. -/
theorem Rereads.real {x : Float} (finite : x.isFinite = true) :
    ∃ y, Rereads .real (.real x) (.real y) := by
  obtain ⟨negative, decimal, makes, text⟩ := realText_toList finite
  obtain ⟨value, reads⟩ := yields_signedNumber negative makes
  have begins : ∃ c more, (realText x).toList = c :: more ∧ isSpace c = false ∧
      beginsNumber c = true ∧ c ≠ ']' := by
    obtain ⟨c, more, first, digit⟩ := decimalText_begins decimal
    rw [text, first]
    cases negative with
    | true => exact ⟨'-', _, rfl, rfl, rfl, by decide⟩
    | false =>
        refine ⟨c, more, rfl, isSpace_of_isDigit digit, Bool.or_eq_true_iff.mpr (.inr digit), ?_⟩
        rintro rfl
        cases digit
  obtain ⟨c, more, first, part, number, notClosing⟩ := begins
  have written : (Json.real x).compact = realText x := by
    rw [compact]
  refine ⟨value, ⟨⟨c, more, written ▸ first, part, notClosing⟩, fun rest ends => ?_⟩⟩
  have reads := reads rest ends
  rw [← text, first] at reads
  rw [written, Read.value, first]
  unfold floating
  refine yields_bind [] (c :: more) (yields_opening part _) ?_
  rw [if_pos number]
  exact yields_then reads (yields_pure _ _)

end DocDrift.Json
