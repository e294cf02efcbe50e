import DocDrift.Proofs.Decimal.Shortest
import DocDrift.Proofs.Json.Rereading

/-!
The text of a finite floating-point number is read as a number. The digits that are written may be
more than a reader keeps exactly, and each of its steps rounds, so the number that is read can be
another one; but it is a number, since none of the steps reaches what is infinite.
-/

set_option autoImplicit false

namespace DocDrift.Json

open Read

/-! ### Digits -/

def Digits (text : List Char) : Prop :=
  ∀ c ∈ text, c.isDigit = true

/-- A text that does not go on with a digit. -/
def NoDigit (rest : List Char) : Prop :=
  ∀ c ∈ rest.head?, c.isDigit = false

theorem Ends.noDigit {rest : List Char} (ends : Ends rest) : NoDigit rest := by
  cases rest with
  | nil =>
      intro c mem
      cases mem
  | cons first more =>
      intro c mem
      obtain rfl : first = c := Option.some.inj mem
      obtain rfl | rfl | rfl := ends <;> rfl

theorem takeWhile_digits {text rest : List Char} (digits : Digits text) (ends : NoDigit rest) :
    (text ++ rest).takeWhile Char.isDigit = text := by
  induction text with
  | nil =>
      cases rest with
      | nil => rfl
      | cons c more =>
          have other := ends c rfl
          rw [List.nil_append, List.takeWhile_cons_of_neg (by rw [other]; exact Bool.false_ne_true)]
  | cons c text ih =>
      rw [List.cons_append, List.takeWhile_cons_of_pos (digits c List.mem_cons_self),
        ih (fun other mem => digits other (List.mem_cons_of_mem c mem))]

theorem yields_digits {text rest : List Char} (digits : Digits text) (ends : NoDigit rest) :
    Yields Read.digits text text rest := by
  unfold Read.digits
  refine yields_get (fun cursor begins => ?_)
  dsimp only
  rw [begins, takeWhile_digits digits ends]
  exact yields_then (yields_skip text rest) (yields_pure text rest)

theorem toDigits_digits (value : Nat) : Digits (Nat.toDigits 10 value) :=
  fun _ mem => Nat.isDigit_of_mem_toDigits (by decide) (by decide) mem

theorem le_ofDigitChars (text : List Char) (start : Nat) :
    start ≤ Nat.ofDigitChars 10 text start := by
  rw [Nat.ofDigitChars_eq_ofDigitChars_zero]
  exact Nat.le_add_right_of_le (Nat.le_mul_of_pos_left _ (Nat.pow_pos (by decide)))

theorem ofDigitChars_lt {text : List Char} (digits : Digits text) :
    Nat.ofDigitChars 10 text 0 < 10 ^ text.length := by
  induction text with
  | nil => exact Nat.one_pos
  | cons c text ih =>
      have below := ih (fun other mem => digits other (List.mem_cons_of_mem c mem))
      have digit : c.toNat - '0'.toNat ≤ 9 := by
        have range := Char.isDigit_iff_toNat.mp (digits c List.mem_cons_self)
        exact Nat.sub_le_iff_le_add.mpr range.2
      rw [Nat.ofDigitChars_cons, Nat.ofDigitChars_eq_ofDigitChars_zero, Nat.mul_zero, Nat.zero_add,
        List.length_cons, Nat.pow_succ]
      calc 10 ^ text.length * (c.toNat - '0'.toNat) + Nat.ofDigitChars 10 text 0
          < 10 ^ text.length * 9 + 10 ^ text.length :=
            Nat.add_lt_add_of_le_of_lt (Nat.mul_le_mul_left _ digit) below
        _ = 10 ^ text.length * 10 := by ring

/-! ### Taking up digits -/

/-- Digits that are taken up make no more than all digits do, however many were left out. -/
theorem absorb_le (start : Nat) (text : List Char) :
    (absorb start text).2 ≤ text.length ∧
      (absorb start text).1 * 10 ^ (text.length - (absorb start text).2) ≤
        Nat.ofDigitChars 10 text start := by
  induction text generalizing start with
  | nil => exact ⟨Nat.le_refl _, by rw [absorb, Nat.ofDigitChars_nil]; simp⟩
  | cons c text ih =>
      rw [absorb, Nat.ofDigitChars_cons]
      dsimp only
      split
      case isTrue =>
        have ⟨count, below⟩ := ih (start * 10 + (c.toNat - 0x30))
        refine ⟨Nat.succ_le_succ count, ?_⟩
        rw [List.length_cons, Nat.add_sub_add_right, Nat.mul_comm 10 start]
        exact below
      case isFalse =>
        refine ⟨Nat.zero_le _, ?_⟩
        rw [Nat.sub_zero, List.length_cons, Nat.ofDigitChars_eq_ofDigitChars_zero, Nat.pow_succ]
        calc start * (10 ^ text.length * 10) = 10 ^ text.length * (10 * start) := by ring
          _ ≤ 10 ^ text.length * (10 * start + (c.toNat - '0'.toNat)) :=
            Nat.mul_le_mul_left _ (Nat.le_add_right _ _)
          _ ≤ _ := Nat.le_add_right _ _

theorem absorb_small {start : Nat} (small : start ≤ greatestWhole) (text : List Char) :
    (absorb start text).1 ≤ greatestWhole := by
  induction text generalizing start with
  | nil => exact small
  | cons c text ih =>
      rw [absorb]
      dsimp only
      split
      case isTrue more => exact ih more
      case isFalse => exact small

/-- All digits are taken up if what they make is kept exactly. -/
theorem absorb_all {start : Nat} {text : List Char}
    (fits : Nat.ofDigitChars 10 text start ≤ greatestWhole) :
    absorb start text = (Nat.ofDigitChars 10 text start, text.length) := by
  induction text generalizing start with
  | nil => rw [absorb, Nat.ofDigitChars_nil]; rfl
  | cons c text ih =>
      have same : 10 * start + (c.toNat - '0'.toNat) = start * 10 + (c.toNat - 0x30) := by
        rw [Nat.mul_comm]
        rfl
      rw [Nat.ofDigitChars_cons, same] at fits ⊢
      rw [absorb]
      dsimp only
      rw [if_pos ((le_ofDigitChars text _).trans fits), ih fits]
      rfl

/-! ### Numbers with places -/

/-- The digits in front of a point: a zero alone, or digits that begin with another one. -/
def Leads (whole : List Char) : Prop :=
  whole = ['0'] ∨ ∃ c more, whole = c :: more ∧ c ≠ '0' ∧ Digits whole

theorem noDigit_cons {mark : Char} (noDigit : mark.isDigit = false) (rest : List Char) :
    NoDigit (mark :: rest) :=
  fun _ mem => Option.some.inj mem ▸ noDigit

theorem yields_wholeDigits {whole rest : List Char} (leads : Leads whole) (ends : NoDigit rest) :
    Yields wholeDigits whole whole rest := by
  unfold wholeDigits
  obtain rfl | ⟨c, more, rfl, other, digits⟩ := leads
  · refine yields_bind [] _ (yields_peek '0' _) ?_
    refine yields_bind ['0'] [] (yields_skip ['0'] _) ?_
    cases rest with
    | nil =>
        have peeks : Yields peek [] none [] := by
          intro cursor begins
          refine ⟨cursor, begins, ?_⟩
          rw [run_peek, begins]
          rfl
        exact yields_bind [] [] peeks (yields_pure _ _)
    | cons mark more =>
        refine yields_bind [] [] (yields_peek mark more) ?_
        dsimp only
        rw [ends mark rfl, if_neg Bool.false_ne_true]
        exact yields_pure _ _
  · refine yields_bind [] _ (yields_peek c _) ?_
    rw [if_neg (fun same => other (Option.some.inj (beq_iff_eq.mp same)))]
    exact yields_digits digits ends

theorem yields_real (positive : Bool) {significand : Nat} {exponent : Int} {value : Float}
    (made : scaled? 4 (Float.ofNat significand) exponent = some value) (rest : List Char) :
    Yields (Read.real positive significand exponent) []
      (Number.real (if positive then value else -value)) rest := by
  unfold Read.real
  rw [made]
  exact yields_pure _ _

theorem yields_peekEnd {rest : List Char} (ends : Ends rest) :
    ∃ found, Yields peek [] found rest ∧ (found == some '.') = false ∧
      beginsExponent found = false := by
  cases rest with
  | nil =>
      refine ⟨none, fun cursor begins => ⟨cursor, begins, ?_⟩, rfl, rfl⟩
      rw [run_peek, begins]
      rfl
  | cons c more =>
      refine ⟨some c, yields_peek c more, ?_⟩
      obtain rfl | rfl | rfl := ends <;> exact ⟨rfl, rfl⟩

/-- A text that is read as a number with a fraction, whatever may stand behind a value. -/
def ReadsReal (reader : Read Number) (text : List Char) : Prop :=
  ∃ value, ∀ rest, Ends rest → Yields reader text (Number.real value) rest

/-- A significand is made a number without a power of ten that is positive. -/
theorem made_of_nonpos {significand : Nat} (small : significand ≤ greatestWhole) (exponent : Int)
    (nonpos : exponent ≤ 0) :
    ∃ value, scaled? 4 (Float.ofNat significand) exponent = some value := by
  refine Decimal.scaled?_isSome small (fun nonneg => ⟨by omega, ?_⟩)
  have greatest : greatestWhole ≤ Decimal.limit := by decide +kernel
  rw [show exponent.toNat = 0 by omega, Nat.pow_zero, Nat.mul_one]
  exact small.trans greatest

theorem yields_fractionPart (positive : Bool) {significand : Nat}
    (small : significand ≤ greatestWhole) {part : List Char} (places : Digits part)
    (nonempty : part ≠ []) : ReadsReal (fractionPart positive significand 0) ('.' :: part) := by
  have taken := absorb_small small part
  obtain ⟨value, made⟩ := made_of_nonpos taken ((0 : Nat) - ((absorb significand part).2 : Int))
    (by omega)
  refine ⟨if positive then value else -value, fun rest ends => ?_⟩
  obtain ⟨found, peeks, _noPoint, noExponent⟩ := yields_peekEnd ends
  unfold fractionPart
  refine yields_bind ['.'] part (yields_skip ['.'] _) ?_
  refine yields_then (yields_digits places ends.noDigit) ?_
  dsimp only
  rw [if_neg (fun empty => nonempty (List.isEmpty_iff.mp empty))]
  refine yields_bind [] [] peeks ?_
  rw [noExponent, if_neg Bool.false_ne_true]
  exact yields_real positive made rest

theorem Leads.cons {whole : List Char} (leads : Leads whole) :
    ∃ c more, whole = c :: more ∧ c.isDigit = true ∧ Digits whole := by
  obtain rfl | ⟨c, more, rfl, _, digits⟩ := leads
  · exact ⟨'0', [], rfl, rfl, fun c mem => List.mem_singleton.mp mem ▸ rfl⟩
  · exact ⟨c, more, rfl, digits c List.mem_cons_self, digits⟩

theorem yields_places (positive : Bool) {whole part : List Char} (leads : Leads whole)
    (places : Digits part) (nonempty : part ≠ []) (short : whole.length ≤ 16) :
    ReadsReal (number positive) (whole ++ '.' :: part) := by
  obtain ⟨c, more, begins, digit, digits⟩ := leads.cons
  have small : Nat.ofDigitChars 10 whole 0 ≤ greatestWhole := by
    have below := ofDigitChars_lt digits
    have power : 10 ^ whole.length ≤ 10 ^ 16 := Nat.pow_le_pow_right (by decide) short
    have greatest : 10 ^ 16 ≤ greatestWhole := by decide
    omega
  obtain ⟨value, reads⟩ := yields_fractionPart positive small places nonempty
  refine ⟨value, fun rest ends => ?_⟩
  have first : Yields peek [] (some c) ((whole ++ '.' :: part) ++ rest) := by
    rw [begins]
    exact yields_peek c _
  unfold number
  refine yields_bind [] _ first ?_
  dsimp only
  rw [digit, if_neg (by decide)]
  refine yields_bind whole _ (yields_wholeDigits leads (noDigit_cons rfl _)) ?_
  rw [absorb_all small]
  dsimp only
  rw [Nat.sub_self]
  exact yields_bind [] _ (yields_peek '.' _) (reads rest ends)

/-! ### Numbers with an exponent -/

theorem digitsValue_eq (text : List Char) : digitsValue text = Nat.ofDigitChars 10 text 0 := by
  unfold digitsValue Nat.ofDigitChars
  congr 1
  funext value digit
  rw [Nat.mul_comm]
  rfl

theorem digitsValue_toDigits (value : Nat) : digitsValue (Nat.toDigits 10 value) = value := by
  rw [digitsValue_eq, Nat.ofDigitChars_ten_toDigits]

/-- An exponent that is not too large is kept. -/
theorem tooLong?_none {text : List Char} (small : digitsValue text ≤ 2147483647) :
    tooLong? text = none := by
  refine List.find?_eq_none.mpr (fun count _ long => ?_)
  have whole : digitsValue text = Nat.ofDigitChars 10 (text.drop count) (digitsValue (text.take count)) := by
    rw [digitsValue_eq, digitsValue_eq, ← Nat.ofDigitChars_append, List.take_append_drop]
  have least := le_ofDigitChars (text.drop count) (digitsValue (text.take count))
  have long := of_decide_eq_true long
  omega

theorem takeWhile_exponent {power : Nat} {rest : List Char} (ends : Ends rest) :
    (Nat.toDigits 10 power ++ rest).takeWhile Char.isDigit = Nat.toDigits 10 power :=
  takeWhile_digits (toDigits_digits power) ends.noDigit

theorem peek_toDigits (power : Nat) (rest : List Char) :
    ∃ c, c.isDigit = true ∧ Yields peek [] (some c) (Nat.toDigits 10 power ++ rest) := by
  have digits := toDigits_digits power
  cases begins : Nat.toDigits 10 power with
  | nil => exact absurd begins Nat.toDigits_ne_nil
  | cons c more =>
      rw [begins] at digits
      exact ⟨c, digits c List.mem_cons_self, yields_peek c _⟩

theorem yields_exponentUp (positive : Bool) {significand power : Nat} {exponent : Int} {value : Float}
    (small : power ≤ 2147483647)
    (made : scaled? 4 (Float.ofNat significand)
      (max (-2147483648) (min 2147483647 (exponent + power))) = some value) :
    ReadsReal (exponentPart positive significand exponent) ('e' :: Nat.toDigits 10 power) := by
  refine ⟨if positive then value else -value, fun rest ends => ?_⟩
  obtain ⟨c, digit, peeks⟩ := peek_toDigits power rest
  have noSign : (some c == some '+' || some c == some '-') = false := by
    refine Bool.eq_false_iff.mpr (fun sign => ?_)
    obtain plus | minus := Bool.or_eq_true_iff.mp sign
    · rw [Option.some.inj (beq_iff_eq.mp plus)] at digit
      cases digit
    · rw [Option.some.inj (beq_iff_eq.mp minus)] at digit
      cases digit
  unfold exponentPart
  refine yields_bind ['e'] _ (yields_skip ['e'] _) ?_
  refine yields_bind [] (Nat.toDigits 10 power) peeks ?_
  rw [noSign, if_neg Bool.false_ne_true]
  unfold exponentDigits
  refine yields_bind [] (Nat.toDigits 10 power) peeks ?_
  dsimp only
  rw [digit, if_pos rfl]
  refine yields_get (fun cursor begins => ?_)
  rw [begins, takeWhile_exponent ends, digitsValue_toDigits,
    tooLong?_none (by rwa [digitsValue_toDigits]), if_pos rfl]
  exact yields_then (yields_skip _ rest) (yields_real positive made rest)

/-- A negative exponent makes a number, however small it is. -/
theorem yields_exponentDown (positive : Bool) {significand power : Nat} {exponent : Int}
    (small : significand ≤ greatestWhole) (nonpos : exponent ≤ 0) :
    ReadsReal (exponentPart positive significand exponent)
      ('e' :: '-' :: Nat.toDigits 10 power) := by
  have behind : ReadsReal (exponentDigits positive significand exponent false)
      (Nat.toDigits 10 power) := by
    -- An exponent that is too long makes a zero; any other one makes some number.
    obtain ⟨value, made⟩ := made_of_nonpos small
      (max (-2147483648) (min 2147483647 (exponent - power))) (by omega)
    refine ⟨if positive then if (tooLong? (Nat.toDigits 10 power)).isSome then 0.0 else value
      else -if (tooLong? (Nat.toDigits 10 power)).isSome then 0.0 else value, fun rest ends => ?_⟩
    obtain ⟨c, digit, peeks⟩ := peek_toDigits power rest
    unfold exponentDigits
    refine yields_bind [] (Nat.toDigits 10 power) peeks ?_
    dsimp only
    rw [digit, if_pos rfl]
    refine yields_get (fun cursor begins => ?_)
    rw [begins, takeWhile_exponent ends]
    cases long : tooLong? (Nat.toDigits 10 power) with
    | some count =>
        rw [Bool.and_false]
        exact yields_then (yields_skip _ rest) (yields_pure _ _)
    | none =>
        rw [digitsValue_toDigits, if_neg Bool.false_ne_true]
        exact yields_then (yields_skip _ rest) (yields_real positive made rest)
  obtain ⟨value, reads⟩ := behind
  refine ⟨value, fun rest ends => ?_⟩
  unfold exponentPart
  refine yields_bind ['e'] _ (yields_skip ['e'] _) ?_
  refine yields_bind [] _ (yields_peek '-' _) ?_
  rw [if_pos (by decide)]
  exact yields_bind ['-'] _ (yields_skip ['-'] _) (reads rest ends)

/-- Digits with a point behind the first one, if there are more. -/
def pointed : List Char → List Char
  | [] => []
  | [digit] => [digit]
  | digit :: part => digit :: '.' :: part

theorem Digits.first {digit : Char} {part : List Char} (digits : Digits (digit :: part)) :
    Digits [digit] :=
  fun _ mem => List.mem_singleton.mp mem ▸ digits digit List.mem_cons_self

theorem first_small {digit : Char} {part : List Char} (digits : Digits (digit :: part)) :
    Nat.ofDigitChars 10 [digit] 0 ≤ greatestWhole := by
  have below := ofDigitChars_lt digits.first
  have greatest : 10 ^ [digit].length ≤ greatestWhole := (by decide : 10 ^ 1 ≤ greatestWhole)
  omega

theorem yields_scientific (positive : Bool) {digit : Char} {part tail : List Char}
    (digits : Digits (digit :: part)) (leading : digit ≠ '0')
    (behind : ReadsReal (exponentPart positive (absorb (Nat.ofDigitChars 10 [digit] 0) part).1
      ((0 : Nat) - ((absorb (Nat.ofDigitChars 10 [digit] 0) part).2 : Int))) ('e' :: tail)) :
    ReadsReal (number positive) (pointed (digit :: part) ++ 'e' :: tail) := by
  have one := digits.first
  have small := first_small digits
  have leads : Leads [digit] := .inr ⟨digit, [], rfl, leading, one⟩
  obtain ⟨value, reads⟩ := behind
  refine ⟨value, fun rest ends => ?_⟩
  have reads := reads rest ends
  unfold number
  cases part with
  | nil =>
      refine yields_bind [] (digit :: 'e' :: tail) (yields_peek digit _) ?_
      dsimp only
      rw [one digit List.mem_cons_self, if_neg (by decide)]
      refine yields_bind [digit] ('e' :: tail) (yields_wholeDigits leads (noDigit_cons rfl _)) ?_
      rw [absorb_all small]
      dsimp only
      refine yields_bind [] _ (yields_peek 'e' _) ?_
      rw [if_neg (by decide), if_pos (by decide)]
      exact reads
  | cons next more =>
      have places : Digits (next :: more) := fun c mem => digits c (List.mem_cons_of_mem _ mem)
      refine yields_bind [] (digit :: '.' :: (next :: more) ++ 'e' :: tail) (yields_peek digit _) ?_
      dsimp only
      rw [one digit List.mem_cons_self, if_neg (by decide)]
      refine yields_bind [digit] ('.' :: (next :: more) ++ 'e' :: tail)
        (yields_wholeDigits leads (noDigit_cons rfl _)) ?_
      rw [absorb_all small]
      dsimp only
      refine yields_bind [] ('.' :: (next :: more) ++ 'e' :: tail) (yields_peek '.' _) ?_
      rw [if_pos (by decide)]
      unfold fractionPart
      refine yields_bind ['.'] ((next :: more) ++ 'e' :: tail) (yields_skip ['.'] _) ?_
      refine yields_bind (next :: more) ('e' :: tail) (yields_digits places ?_) ?_
      · exact fun c mem => Option.some.inj mem ▸ rfl
      · dsimp only
        rw [if_neg (fun empty => List.cons_ne_nil next more (List.isEmpty_iff.mp empty))]
        refine yields_bind [] _ (yields_peek 'e' _) ?_
        rw [if_pos (by decide)]
        exact reads

end DocDrift.Json
