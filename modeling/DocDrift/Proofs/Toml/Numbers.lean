import DocDrift.Proofs.Json.Forms
import DocDrift.Proofs.Json.Unread
import DocDrift.Proofs.Toml.Strings

/-!
Numbers of TOML text. A whole number within sixty-four bits is read again, and so is an infinite one.
A finite floating-point number is written with digits on both sides of a point, and what is read from
these does not depend on what stands behind them.
-/

set_option autoImplicit false

namespace DocDrift.Toml

open Read
open Json (Digits Leads)

/-- What stands behind a value: nothing more, the end of a line, or the next mark of a list. -/
def Ends (rest : List Char) : Prop :=
  ∀ c, rest.head? = some c → c = '\n' ∨ c = ',' ∨ c = ']'

theorem Ends.stops {accepts : Char → Bool} {rest : List Char} (ends : Ends rest)
    (clear : accepts '\n' = false ∧ accepts ',' = false ∧ accepts ']' = false) :
    Stops accepts rest := by
  intro c first
  obtain rfl | rfl | rfl := ends c first
  · exact clear.1
  · exact clear.2.1
  · exact clear.2.2

theorem fails_string {text : List Char} (stops : Stops isQuote text) : Fails string text := by
  cases text with
  | nil => rfl
  | cons c rest =>
      have other : c ≠ '"' ∧ c ≠ '\'' := by simpa [isQuote] using stops c rfl
      unfold string basicString literalString
      apply fails_either (fails_longString _ other.1)
      apply fails_either (fails_longString _ other.2)
      apply fails_either
      · exact fails_bind _ (fails_char (by simpa using other.1))
      · exact fails_bind _ (fails_char (by simpa using other.2))

/-! ### Digits -/

theorem digitsValue_eq {text : List Char} (isDigits : Digits text) :
    digitsValue 10 text = Nat.ofDigitChars 10 text 0 := by
  unfold digitsValue Nat.ofDigitChars
  generalize 0 = start
  induction text generalizing start with
  | nil => rfl
  | cons c more ih =>
      have digit : ('0' ≤ c && c ≤ '9') = true := isDigits c List.mem_cons_self
      have value : start * 10 + digitValue c = 10 * start + (c.toNat - '0'.toNat) := by
        rw [digitValue, if_pos digit, Nat.mul_comm]
        rfl
      rw [List.foldl_cons, List.foldl_cons, value]
      exact ih (fun other mem => isDigits other (List.mem_cons_of_mem c mem)) _

theorem digitsValue_toDigits (value : Nat) : digitsValue 10 (Nat.toDigits 10 value) = value := by
  rw [digitsValue_eq (Json.toDigits_digits value), Nat.ofDigitChars_ten_toDigits]

def continuesDigits (c : Char) : Bool :=
  isDigit c || c == '_'

theorem Ends.noMoreDigits {rest : List Char} (ends : Ends rest) : Stops continuesDigits rest :=
  ends.stops (by decide)

theorem repeats_digits {text rest : List Char} (isDigits : Digits text)
    (stops : Stops continuesDigits rest) :
    Repeats (do let _ ← maybe (char '_'); one isDigit) text text rest := by
  induction text with
  | nil =>
      apply Repeats.done
      apply fails_behind []
      · apply takes_nothing (fails_char _)
        intro first
        cases stops '_' first
      · apply fails_one
        apply stops.imp
        intro c clear
        exact (Bool.or_eq_false_iff.mp clear).1
  | cons c more ih =>
      have digit := isDigits c List.mem_cons_self
      have others := ih (fun other mem => isDigits other (List.mem_cons_of_mem c mem))
      apply Repeats.more (List.cons_ne_nil c []) _ others
      apply takes_bind [] [c]
      · apply takes_nothing (fails_char _)
        intro first
        cases first
        cases digit
      · exact takes_one digit _

theorem takes_digits {c : Char} {more rest : List Char} (isDigits : Digits (c :: more))
    (stops : Stops continuesDigits rest) :
    Takes (digits isDigit) (c :: more) (c :: more) rest := by
  unfold digits
  apply takes_bind [c] more (takes_one (isDigits c List.mem_cons_self) _)
  apply takes_last (takes_many (repeats_digits _ stops))
  · exact takes_pure _ rest
  · intro other mem
    exact isDigits other (List.mem_cons_of_mem c mem)

theorem takes_wholeDigits {whole rest : List Char} (leads : Leads whole)
    (stops : Stops continuesDigits rest) : Takes wholeDigits whole whole rest := by
  unfold wholeDigits
  obtain rfl | ⟨c, more, rfl, other, isDigits⟩ := leads
  · exact takes_last (takes_maybe (takes_char '0' rest)) (takes_pure _ rest)
  · apply takes_bind [] (c :: more)
    · exact takes_nothing (fails_char (by simpa using other))
    · exact takes_digits isDigits stops

/-! ### Signs -/

def signText (negative : Bool) : List Char :=
  if negative then ['-'] else []

def isSign (c : Char) : Bool :=
  c == '+' || c == '-'

theorem takes_sign (negative : Bool) {rest : List Char} (stops : Stops isSign rest) :
    Takes sign (signText negative) negative rest := by
  unfold sign
  cases negative with
  | true =>
      exact takes_last (takes_maybe (takes_one (c := '-') rfl rest)) (takes_pure true rest)
  | false => exact takes_last (takes_nothing (fails_one stops)) (takes_pure false rest)

theorem stops_of_digit {accepts : Char → Bool} (only : ∀ c, c.isDigit = true → accepts c = false)
    {whole : List Char} (leads : Leads whole) (rest : List Char) :
    Stops accepts (whole ++ rest) := by
  obtain ⟨c, more, rfl, digit, _⟩ := leads.cons
  exact stops_cons (only c digit) _

theorem not_sign_of_digit (c : Char) (digit : c.isDigit = true) : isSign c = false := by
  simp [isSign, ne_of_accepts digit]

theorem not_quote_of_digit (c : Char) (digit : c.isDigit = true) : isQuote c = false := by
  simp [isQuote, ne_of_accepts digit]

/-! ### No dates -/

/-- A character that may stand behind the digits of a date or a time of day. -/
def continuesMoment (c : Char) : Bool :=
  isDigit c || c == '-' || c == ':'

theorem stops_of_momentStops {text : List Char} (stops : Stops continuesMoment text) :
    Stops isDigit text := by
  apply stops.imp
  intro c clear
  simp only [continuesMoment, Bool.or_eq_false_iff] at clear
  exact clear.1.1

/-- Digits are taken in a given number, if there are as many. -/
theorem exactly_digits {text rest : List Char} (isDigits : Digits text)
    (stops : Stops isDigit rest) (count : Nat) :
    Fails (exactly isDigit count) (text ++ rest) ∨
      ∃ front back, text = front ++ back ∧
        Takes (exactly isDigit count) front front (back ++ rest) := by
  obtain few | enough := Nat.lt_or_ge text.length count
  · left
    induction count generalizing text with
    | zero => simp at few
    | succ count ih =>
        unfold exactly
        cases text with
        | nil => exact fails_bind _ (fails_one stops)
        | cons c more =>
            apply fails_behind [c] (takes_one (isDigits c List.mem_cons_self) _)
            apply fails_bind
            apply ih
            · exact fun other mem => isDigits other (List.mem_cons_of_mem c mem)
            · exact Nat.lt_of_succ_lt_succ few
  · right
    have front : Digits (text.take count) := fun c mem => isDigits c (List.mem_of_mem_take mem)
    have taken := takes_exactly front (text.drop count ++ rest)
    rw [List.length_take_of_le enough] at taken
    exact ⟨text.take count, text.drop count, (List.take_append_drop count text).symm, taken⟩

/-- Behind some of the digits in front of what is no part of a date there is no mark of one. -/
theorem head_ne_of_digits {text rest : List Char} {mark : Char} (isDigits : Digits text)
    (stops : Stops continuesMoment rest) (known : mark = '-' ∨ mark = ':') :
    (text ++ rest).head? ≠ some mark := by
  intro first
  cases text with
  | nil =>
      have clear := stops mark first
      obtain rfl | rfl := known <;> cases clear
  | cons c more =>
      cases first
      have digit := isDigits mark List.mem_cons_self
      obtain rfl | rfl := known <;> cases digit

theorem fails_date {text rest : List Char} (isDigits : Digits text)
    (stops : Stops continuesMoment rest) : Fails date (text ++ rest) := by
  unfold date
  obtain fails | ⟨front, back, rfl, takes⟩ :=
    exactly_digits isDigits (stops_of_momentStops stops) 4
  · exact fails_bind _ fails
  · rw [List.append_assoc]
    apply fails_behind _ takes
    apply fails_bind
    apply fails_char
    exact head_ne_of_digits (fun c mem => isDigits c (List.mem_append_right _ mem)) stops (.inl rfl)

/-- Two digits are taken if they make a number within bounds. -/
theorem twoDigits_digits (low high : Nat) {text rest : List Char} (isDigits : Digits text)
    (stops : Stops isDigit rest) :
    Fails (twoDigits low high) (text ++ rest) ∨
      ∃ front back, text = front ++ back ∧
        Takes (twoDigits low high) front front (back ++ rest) := by
  unfold twoDigits
  obtain fails | ⟨front, back, rfl, takes⟩ := exactly_digits isDigits stops 2
  · exact .inl (fails_bind _ fails)
  · cases within : decide (low ≤ digitsValue 10 front) && decide (digitsValue 10 front ≤ high) with
    | true =>
        refine .inr ⟨front, back, rfl, ?_⟩
        apply takes_last takes
        apply takes_last (takes_ensure within _)
        exact takes_pure front _
    | false =>
        left
        rw [List.append_assoc]
        apply fails_behind _ takes
        exact fails_bind _ (fails_ensure within _)

theorem fails_timeOfDay {text rest : List Char} (isDigits : Digits text)
    (stops : Stops continuesMoment rest) : Fails timeOfDay (text ++ rest) := by
  unfold timeOfDay
  obtain fails | ⟨front, back, rfl, takes⟩ :=
    twoDigits_digits 0 23 isDigits (stops_of_momentStops stops)
  · exact fails_bind _ fails
  · rw [List.append_assoc]
    apply fails_behind _ takes
    apply fails_bind
    apply fails_char
    exact head_ne_of_digits (fun c mem => isDigits c (List.mem_append_right _ mem)) stops (.inr rfl)

theorem fails_moment {text rest : List Char} (isDigits : Digits text)
    (stops : Stops continuesMoment rest) : Fails moment (text ++ rest) :=
  fails_either (fails_bind _ (fails_date isDigits stops))
    (fails_bind _ (fails_timeOfDay isDigits stops))

/-- A text with a sign and digits begins neither a string nor a date. -/
theorem takes_simple {negative : Bool} {whole part rest : List Char}
    {value : Value} (leads : Leads whole) (stops : Stops continuesMoment (part ++ rest))
    (takes : Takes (either decimal (either specialNumber (either integer boolean)))
      (signText negative ++ whole ++ part) value rest) :
    Takes simpleValue (signText negative ++ whole ++ part) value rest := by
  have behind : signText negative ++ whole ++ part ++ rest =
      signText negative ++ (whole ++ (part ++ rest)) := by simp
  unfold simpleValue
  apply takes_second
  · apply fails_bind
    apply fails_string
    rw [behind]
    cases negative with
    | true => exact stops_cons rfl _
    | false => exact stops_of_digit not_quote_of_digit leads _
  apply takes_second _ takes
  rw [behind]
  cases negative with
  | true => rfl
  | false =>
      obtain ⟨_, _, _, _, isDigits⟩ := leads.cons
      change Fails moment (whole ++ (part ++ rest))
      exact fails_moment isDigits stops

/-! ### Whole numbers -/

theorem toString_toList (value : Int) :
    (toString value).toList =
      signText (decide (value < 0)) ++ Nat.toDigits 10 value.natAbs := by
  rw [Int.toString_eq_repr, Int.repr_eq_if]
  split
  case isTrue nonneg =>
    have natural : value.toNat = value.natAbs := by omega
    rw [decide_eq_false (by omega), natural, Nat.toList_repr]
    rfl
  case isFalse negative =>
    have natural : (-value).toNat = value.natAbs := by omega
    rw [decide_eq_true (by omega), natural, String.toList_append, Nat.toList_repr]
    rfl

theorem fails_decimal {negative : Bool} {whole rest : List Char} (leads : Leads whole)
    (ends : Ends rest) : Fails decimal (signText negative ++ whole ++ rest) := by
  have point : Fails (char '.') rest := by
    apply fails_char
    intro first
    obtain same | same | same := ends '.' first <;> cases same
  have exponent : Fails (some <$> exponentPart) rest := by
    have fails : Fails exponentPart rest := fails_bind _ (fails_one (ends.stops (by decide)))
    rw [map_eq_pure_bind]
    exact fails_bind _ fails
  rw [List.append_assoc]
  unfold decimal
  apply fails_behind _ (takes_sign negative (stops_of_digit not_sign_of_digit leads rest))
  apply fails_behind _ (takes_wholeDigits leads ends.noMoreDigits)
  apply fails_behind [] (takes_nothing (fails_bind _ point))
  exact fails_bind _ exponent

theorem fails_special {negative : Bool} {whole : List Char} (leads : Leads whole)
    (rest : List Char) : Fails specialNumber (signText negative ++ whole ++ rest) := by
  rw [List.append_assoc]
  unfold specialNumber
  apply fails_behind _ (takes_sign negative (stops_of_digit not_sign_of_digit leads rest))
  obtain ⟨c, more, rfl, digit, _⟩ := leads.cons
  apply fails_bind
  apply fails_either
  · exact fails_bind _ (fails_literal _ (by simpa using ne_of_accepts digit rfl))
  · exact fails_bind _ (fails_literal _ (by simpa using ne_of_accepts digit rfl))

theorem fails_prefixed {mark : Char} (base : Nat) (accepts : Char → Bool) {negative : Bool}
    {whole rest : List Char} (leads : Leads whole)
    (other : rest.head? ≠ some mark) :
    Fails (prefixed mark base accepts) (signText negative ++ whole ++ rest) := by
  unfold prefixed
  apply fails_bind
  cases negative with
  | true => exact fails_literal _ (by simp [signText])
  | false =>
      obtain rfl | ⟨c, more, rfl, leading, isDigits⟩ := leads
      · cases rest with
        | nil => simp [Fails, literal, signText, List.isPrefixOf]
        | cons d more =>
            have different : ¬ mark = d := fun same => other (congrArg some same.symm)
            simp [Fails, literal, signText, List.isPrefixOf, different]
      · exact fails_literal _ (by simpa [signText] using leading)

/-- A whole number of sixty-four bits is read again. -/
theorem takes_integer {value : Int}
    (range : -9223372036854775808 ≤ value ∧ value ≤ 9223372036854775807) {rest : List Char}
    (ends : Ends rest) : Takes simpleValue (toString value).toList (.integer value) rest := by
  have leads := Json.leads_toDigits value.natAbs
  have number := digitsValue_toDigits value.natAbs
  have written := toString_toList value
  -- Digits are taken as they are from here on, and not for what they make.
  generalize Nat.toDigits 10 value.natAbs = whole at leads number written
  have noMark : ∀ mark, mark = 'x' ∨ mark = 'o' ∨ mark = 'b' → rest.head? ≠ some mark := by
    rintro mark known first
    obtain rfl | rfl | rfl := known <;> obtain same | same | same := ends _ first <;> cases same
  have signed : (if decide (value < 0) = true then -(digitsValue 10 whole : Int)
      else digitsValue 10 whole) = value := by
    rw [number]
    split
    case isTrue negative =>
      have negative := of_decide_eq_true negative
      omega
    case isFalse nonneg =>
      have nonneg : ¬ value < 0 := by simpa using nonneg
      omega
  rw [written, ← List.append_nil (signText _ ++ whole)]
  apply takes_simple leads (ends.stops (by decide))
  rw [List.append_nil]
  apply takes_second (fails_decimal leads ends)
  apply takes_second (fails_special leads rest)
  apply takes_first
  unfold integer
  apply takes_second (fails_prefixed _ _ leads (noMark _ (.inl rfl)))
  apply takes_second (fails_prefixed _ _ leads (noMark _ (.inr (.inl rfl))))
  apply takes_second (fails_prefixed _ _ leads (noMark _ (.inr (.inr rfl))))
  apply takes_bind (signText _) whole
  · exact takes_sign _ (stops_of_digit not_sign_of_digit leads rest)
  apply takes_last (takes_wholeDigits leads ends.noMoreDigits)
  dsimp only
  rw [signed]
  unfold ranged
  apply takes_last (takes_ensure _ rest)
  · exact takes_pure _ rest
  · simpa using range

/-! ### Floating-point numbers -/

theorem run_behind {α β : Type} {reader : Read α} {text rest : List Char} {value : α}
    (next : α → Read β) (first : Takes reader text value rest) :
    (reader >>= next) (text ++ rest) = next value rest := by
  unfold Takes at first
  rw [run_bind, first]
  rfl

/-- The magnitude of a number that is given by its digits before and behind the point. -/
def magnitude (whole part : List Char) : Float :=
  Decimal.nearest (digitsValue 10 (whole ++ part)) (0 - part.length)

/-- What is made of digits on both sides of a point does not depend on what stands behind them. -/
theorem decimal_pointed (negative : Bool) {whole part rest : List Char} (leads : Leads whole)
    (places : Digits part) (nonempty : part ≠ []) (ends : Ends rest) :
    decimal (signText negative ++ whole ++ '.' :: part ++ rest) =
      if negative || !(magnitude whole part).isInf then
        some (.float (if negative then -magnitude whole part else magnitude whole part), rest)
      else none := by
  have fraction : Takes (do char '.'; digits isDigit) ('.' :: part) part rest := by
    cases part with
    | nil => contradiction
    | cons c more =>
        apply takes_bind ['.'] (c :: more) (takes_char '.' _)
        exact takes_digits places ends.noMoreDigits
  have leading : Takes wholeDigits whole whole ('.' :: part ++ rest) :=
    takes_wholeDigits leads (stops_cons rfl _)
  have exponent : Takes (maybe exponentPart) [] none rest :=
    takes_nothing (fails_bind _ (fails_one (ends.stops (by decide))))
  have behind : signText negative ++ whole ++ '.' :: part ++ rest =
      signText negative ++ (whole ++ ('.' :: part ++ rest)) := by simp
  rw [behind]
  unfold decimal
  rw [run_behind _ (takes_sign negative (stops_of_digit not_sign_of_digit leads _)),
    run_behind _ leading, run_behind _ (takes_maybe fraction)]
  change ((maybe exponentPart >>= _) ([] ++ rest)) = _
  rw [run_behind _ exponent]
  dsimp only [Option.getD]
  change ((ensure (negative || !(magnitude whole part).isInf) >>= _) ([] ++ rest)) = _
  cases fits : negative || !(magnitude whole part).isInf with
  | true =>
      rw [run_behind _ (takes_ensure rfl rest)]
      rfl
  | false => exact fails_bind _ (fails_ensure rfl _)

theorem floatText_pointed {x : Float} (finite : x.isFinite = true) :
    ∃ negative whole part, (floatText x).toList = signText negative ++ whole ++ '.' :: part ∧
      Leads whole ∧ Digits part ∧ part ≠ [] := by
  obtain ⟨number, value, _⟩ := Decimal.finite_of_isFinite finite
  have text : (floatText x).toList =
      signText number.negative ++ (Decimal.plainStyle.decimalText number.shortest).toList := by
    rw [floatText, value]
    dsimp only
    rw [Decimal.FloatStyle.finiteText?, value]
    dsimp only [Option.getD_some]
    rw [String.toList_append]
    cases number.negative <;> rfl
  rw [text]
  obtain zero | pos := Nat.eq_zero_or_pos number.shortest.digits
  · have zeroText : (Decimal.plainStyle.decimalText number.shortest).toList = ['0', '.', '0'] := by
      rw [Decimal.FloatStyle.decimalText]
      dsimp only
      rw [if_pos zero]
      rfl
    refine ⟨number.negative, ['0'], ['0'], ?_, .inl rfl, Json.zeros_digits 1, List.cons_ne_nil _ _⟩
    rw [zeroText, List.append_assoc]
    rfl
  · obtain ⟨whole, part, placed, leads, places, nonempty, _⟩ := Json.placed_eq pos
    refine ⟨number.negative, whole, part, ?_, leads, places, nonempty⟩
    rw [Json.decimalText_toList _ pos, List.append_assoc, ← placed]
    rfl

theorem eq_of_toBits {x y : Float} (same : x.toBits.toNat = y.toBits.toNat) : x = y := by
  obtain ⟨⟨bits, valid⟩⟩ := x
  obtain ⟨⟨other, valid'⟩⟩ := y
  obtain rfl : bits = other := UInt64.toNat_inj.mp same
  rfl

/-- A number whose text is read as that number. -/
def Exact (x : Float) : Prop :=
  decimal (floatText x).toList = some (.float x, [])

/-- Whether the text of a number is read as a number with the same bits. -/
def readsSame (x : Float) : Bool :=
  match decimal (floatText x).toList with
  | some (.float y, []) => y.toBits == x.toBits
  | _ => false

theorem exact_iff_readsSame (x : Float) : Exact x ↔ readsSame x = true := by
  unfold Exact readsSame
  constructor
  · intro exact
    rw [exact]
    exact beq_self_eq_true _
  · split
    case h_1 y read =>
      intro same
      rw [read, eq_of_toBits (congrArg UInt64.toNat (beq_iff_eq.mp same))]
    case h_2 => exact fun same => absurd same Bool.false_ne_true

instance (x : Float) : Decidable (Exact x) :=
  decidable_of_iff _ (exact_iff_readsSame x).symm

/-- A finite number whose text is exact is read again wherever a value may stand. -/
theorem takes_float {x : Float} (finite : x.isFinite = true) (exact : Exact x) {rest : List Char}
    (ends : Ends rest) : Takes simpleValue (floatText x).toList (.float x) rest := by
  obtain ⟨negative, whole, part, text, leads, places, nonempty⟩ := floatText_pointed finite
  have nothing : Ends [] := by simp [Ends]
  have alone := decimal_pointed negative leads places nonempty nothing
  have inside := decimal_pointed negative leads places nonempty ends
  rw [Exact, text] at exact
  rw [List.append_nil, exact] at alone
  rw [text]
  apply takes_simple leads (stops_cons rfl _)
  apply takes_first
  unfold Takes
  rw [inside]
  split at alone
  case isTrue fits =>
    obtain ⟨same, _⟩ := Prod.mk.inj (Option.some.inj alone)
    rw [if_pos fits, same]
  case isFalse => cases alone

/-! ### Infinite numbers -/

/-- The infinite number with a sign. -/
def infinity (negative : Bool) : Float :=
  if negative then -(1.0 / 0.0) else 1.0 / 0.0

theorem infinity_toBits (negative : Bool) :
    (infinity negative).toBits.toNat = if negative then 0xFFF <<< 52 else 0x7FF <<< 52 := by
  cases negative <;> decide +kernel

/-- The fraction field of a number is zero if the number is neither finite nor undefined. -/
theorem fraction_of_infinite {x : Float} (number : x.isNaN = false)
    (infinite : x.isFinite = false) : x.toBits.toNat % 2 ^ 52 = 0 := by
  by_contra nonzero
  have power := Decimal.power_of_not_isFinite infinite
  have exponent : @Float.Model.UnpackedFloat.unpackExponent Float.Model.Format.binary64
      x.toModel.toBits.toBitVec = -1#11 := by
    apply BitVec.eq_of_toNat_eq
    rw [Float.Model.UnpackedFloat.unpackExponent, BitVec.toNat_cast, BitVec.extractLsb_toNat]
    exact power
  have mantissa : @Float.Model.UnpackedFloat.unpackMantissa Float.Model.Format.binary64
      x.toModel.toBits.toBitVec ≠ 0#52 := by
    intro zero
    have value := congrArg BitVec.toNat zero
    rw [Float.Model.UnpackedFloat.unpackMantissa, BitVec.toNat_cast, BitVec.extractLsb_toNat]
      at value
    exact nonzero value
  change (Float.Model.UnpackedFloat.unpack Float.Model.Format.binary64
    x.toModel.toBits.toBitVec).isNaN = false at number
  rw [Float.Model.UnpackedFloat.unpack] at number
  dsimp only at number
  rw [if_pos exponent, if_neg mantissa] at number
  cases number

/-- A number that is neither finite nor undefined is infinite. -/
theorem infinite_cases {x : Float} (number : x.isNaN = false) (infinite : x.isFinite = false) :
    ∃ negative, Decimal.Value.ofFloat x = .infinite negative ∧ x = infinity negative := by
  have power := Decimal.power_of_not_isFinite infinite
  have fraction := fraction_of_infinite number infinite
  refine ⟨x.toBits.toNat >>> 63 == 1, ?_, ?_⟩
  · rw [Decimal.Value.ofFloat, if_pos (beq_iff_eq.mpr power)]
    exact if_pos (beq_iff_eq.mpr fraction)
  · apply eq_of_toBits
    rw [infinity_toBits]
    have bits := x.toBits.toNat_lt
    simp only [Nat.shiftRight_eq_div_pow] at power ⊢
    split
    case isTrue negative =>
      have sign := beq_iff_eq.mp negative
      omega
    case isFalse positive =>
      have sign : x.toBits.toNat / 2 ^ 63 ≠ 1 := by simpa using positive
      omega

theorem floatText_infinite {x : Float} {negative : Bool}
    (infinite : Decimal.Value.ofFloat x = .infinite negative) :
    (floatText x).toList = signText negative ++ ['i', 'n', 'f'] := by
  rw [floatText, infinite]
  cases negative with
  | true => exact (by decide : "-inf".toList = ['-', 'i', 'n', 'f'])
  | false => exact (by decide : "inf".toList = ['i', 'n', 'f'])

/-- An infinite number is read again wherever a value may stand. -/
theorem takes_infinity {x : Float} {negative : Bool}
    (infinite : Decimal.Value.ofFloat x = .infinite negative) (same : x = infinity negative)
    (rest : List Char) : Takes simpleValue (floatText x).toList (.float x) rest := by
  rw [floatText_infinite infinite, same]
  cases negative <;> rfl

/-- A number that a configuration file can hold is read again: any but the undefined one, if its text
is exact where it is finite. -/
theorem takes_floatText {x : Float} (number : x.isNaN = false)
    (exact : x.isFinite = true → Exact x) {rest : List Char} (ends : Ends rest) :
    Takes simpleValue (floatText x).toList (.float x) rest := by
  cases finite : x.isFinite with
  | true => exact takes_float finite (exact finite) ends
  | false =>
      obtain ⟨negative, infinite, same⟩ := infinite_cases number finite
      exact takes_infinity infinite same rest

end DocDrift.Toml
