import DocDrift.Proofs.Toml.Reading
import DocDrift.Toml.Printer

/-!
Strings of TOML text. A string is written in the plainest of four forms that needs no escapes, and a
reader of any string reads it again, whichever form was taken.
-/

set_option autoImplicit false

namespace DocDrift.Toml

open Read

/-! ### Characters -/

/-- A character that is written as it is between double quotes. -/
def isRaw (c : Char) : Bool :=
  isBasic c && c != '\t'

/-- A text that is read as an escape for a character. -/
structure EscapeOf (c : Char) (text : List Char) : Prop where
  takes : ∀ rest, Takes escapeSequence text c rest
  begins : ∃ mark more, text = '\\' :: mark :: more ∧ isSpace mark = false ∧
    mark ≠ '\n' ∧ mark ≠ '\r'

theorem hexDigit_read {value : Nat} (small : value < 16) :
    isHexDigit (Nat.digitChar value).toUpper = true ∧
      digitValue (Nat.digitChar value).toUpper = value := by
  have all : ∀ value < 16, isHexDigit (Nat.digitChar value).toUpper = true ∧
      digitValue (Nat.digitChar value).toUpper = value := by decide
  exact all value small

theorem takes_numbered (text : List Char) {code : Nat} (accepted : ∀ c ∈ text, isHexDigit c = true)
    (value : digitsValue 16 text = code) (small : code < 0xD800) (rest : List Char) :
    Takes (numbered text.length) text (Char.ofNat code) rest := by
  unfold numbered
  apply takes_last (takes_exactly accepted rest)
  dsimp only
  rw [value]
  apply takes_last (takes_ensure _ rest)
  · exact takes_pure _ rest
  · simp [small]

/-- A character with a small number is read again from the digits of its number. -/
theorem escapeOf_numbered {c : Char} (small : c.toNat < 0xD800) : EscapeOf c (numberedText c) := by
  have first := hexDigit_read (show c.toNat / 4096 % 16 < 16 by omega)
  have second := hexDigit_read (show c.toNat / 256 % 16 < 16 by omega)
  have third := hexDigit_read (show c.toNat / 16 % 16 < 16 by omega)
  have fourth := hexDigit_read (show c.toNat / 1 % 16 < 16 by omega)
  refine ⟨fun rest => ?_, 'u', _, rfl, by decide, by decide, by decide⟩
  unfold numberedText escapeSequence
  apply takes_bind ['\\'] _ (takes_char '\\' _)
  apply takes_bind ['u'] _ (takes_one rfl _)
  have read := takes_numbered [(Nat.digitChar (c.toNat / 4096 % 16)).toUpper,
    (Nat.digitChar (c.toNat / 256 % 16)).toUpper, (Nat.digitChar (c.toNat / 16 % 16)).toUpper,
    (Nat.digitChar (c.toNat / 1 % 16)).toUpper] ?_ ?_ small rest
  · rwa [Char.ofNat_toNat] at read
  · simpa using And.intro first.1 (And.intro second.1 (And.intro third.1 fourth.1))
  · simp only [digitsValue, List.foldl, first.2, second.2, third.2, fourth.2]
    omega

theorem escapeOf_quote : EscapeOf '"' ['\\', '"'] :=
  ⟨fun _ => rfl, '"', [], rfl, by decide⟩

theorem eq_of_number {c : Char} {number : Nat} (same : (c.toNat == number) = true) :
    c = Char.ofNat number := by
  rw [← beq_iff_eq.mp same, Char.ofNat_toNat]

/-- Any character but a quote and a line end is written as it is or as an escape. -/
theorem escapedChar_cases {c : Char} (noQuote : c ≠ '"') (noBreak : c ≠ '\n') :
    (isRaw c = true ∧ escapedChar c = [c]) ∨ EscapeOf c (escapedChar c) := by
  have named : ∀ {d mark : Char}, c = d → (∀ rest, Takes escapeSequence ['\\', mark] d rest) →
      (isSpace mark = false ∧ mark ≠ '\n' ∧ mark ≠ '\r') → EscapeOf c ['\\', mark] := by
    intro d mark same takes clear
    subst same
    exact ⟨takes, mark, [], rfl, clear⟩
  unfold escapedChar
  split
  case isTrue same => exact .inr (named (beq_iff_eq.mp same) (fun _ => rfl) (by decide))
  case isFalse noSlash =>
  split
  case isTrue same => exact .inr (named (eq_of_number same) (fun _ => rfl) (by decide))
  case isFalse =>
  split
  case isTrue same => exact .inr (named (beq_iff_eq.mp same) (fun _ => rfl) (by decide))
  case isFalse noTab =>
  split
  case isTrue same => exact .inr (named (eq_of_number same) (fun _ => rfl) (by decide))
  case isFalse =>
  split
  case isTrue same => exact .inr (named (beq_iff_eq.mp same) (fun _ => rfl) (by decide))
  case isFalse =>
  split
  case isTrue control =>
    refine .inr (escapeOf_numbered ?_)
    simp only [needsEscape, Bool.or_eq_true, Bool.and_eq_true, decide_eq_true_eq, beq_iff_eq]
      at control
    omega
  case isFalse printed =>
    refine .inl ⟨?_, rfl⟩
    simp only [needsEscape, isRaw, isBasic, isPlain, isWide, Bool.or_eq_true, Bool.and_eq_true,
      decide_eq_true_eq, beq_iff_eq, bne_iff_ne] at noSlash noTab printed ⊢
    simp only [noQuote, noBreak, noSlash, noTab, ne_eq, not_false_eq_true, and_true, false_or,
      not_or] at printed ⊢
    omega

/-! ### Strings on one line -/

theorem takes_escapedLine (chars rest : List Char) :
    Repeats (either (one isBasic) escapeSequence) (escapedLine chars) chars ('"' :: rest) := by
  induction chars with
  | nil => exact .done (fails_either (fails_one (stops_cons rfl rest)) rfl)
  | cons c more ih =>
      have escaped : ∀ {text : List Char}, EscapeOf c text →
          Repeats (either (one isBasic) escapeSequence) (text ++ escapedLine more) (c :: more)
            ('"' :: rest) := by
        intro text escape
        obtain ⟨mark, tail, rfl, _⟩ := escape.begins
        apply Repeats.more (List.cons_ne_nil _ _) _ ih
        exact takes_second (fails_one (stops_cons rfl _)) (escape.takes _)
      by_cases quote : c = '"'
      · subst quote
        exact escaped escapeOf_quote
      by_cases lineEnd : c = '\n'
      · subst lineEnd
        exact escaped ⟨fun _ => rfl, 'n', [], rfl, by decide⟩
      have text : escapedLine (c :: more) = escapedChar c ++ escapedLine more := by
        simp [escapedLine, quote, lineEnd]
      rw [text]
      obtain ⟨raw, itself⟩ | escape := escapedChar_cases quote lineEnd
      · rw [itself]
        have basic : isBasic c = true := (Bool.and_eq_true_iff.mp raw).1
        exact .more (List.cons_ne_nil _ _) (takes_first _ (takes_one basic _)) ih
      · exact escaped escape

theorem takes_basicString (chars rest : List Char) :
    Takes basicString ('"' :: escapedLine chars ++ ['"']) (String.ofList chars) rest := by
  unfold basicString
  apply takes_bind ['"'] _ (takes_char '"' _)
  apply takes_bind (escapedLine chars) ['"'] (takes_many (takes_escapedLine chars rest))
  exact takes_last (takes_char '"' rest) (takes_pure _ rest)

theorem takes_literalString {chars : List Char}
    (plain : ∀ c ∈ chars, (isPlain c && c != '\'') = true) (rest : List Char) :
    Takes literalString ('\'' :: chars ++ ['\'']) (String.ofList chars) rest := by
  unfold literalString
  apply takes_bind ['\''] _ (takes_char '\'' _)
  apply takes_bind chars ['\''] (takes_span plain (stops_cons rfl rest))
  exact takes_last (takes_char '\'' rest) (takes_pure _ rest)

/-! ### Strings of several lines -/

/-- What is written between the quotes of a string of several lines, and what is read of it: pieces
and single quotes, and at most two quotes at the end. -/
inductive Inside (quote : Char) (piece : Read (List Char)) (rest : List Char) :
    List Char → List Char → Prop
  | quotes {count : Nat} (few : count ≤ 2) :
      Inside quote piece rest (List.replicate count quote) (List.replicate count quote)
  | part {text written value content : List Char} (nonempty : text ≠ [])
      (takes : Takes (either piece (fewQuotes quote)) text value
        (written ++ quote :: quote :: quote :: rest))
      (behind : Inside quote piece rest written content) :
      Inside quote piece rest (text ++ written) (value ++ content)

section Inside

variable {quote : Char} {piece : Read (List Char)} {rest : List Char}

theorem takes_fewQuotes {count : Nat} (pos : 0 < count) (few : count ≤ 2) {text : List Char}
    (stops : Stops (· == quote) text) :
    Takes (fewQuotes quote) (List.replicate count quote) (List.replicate count quote) text := by
  unfold fewQuotes
  apply takes_last (takes_some _ _ stops)
  · apply takes_last (takes_ensure _ text)
    · exact takes_pure _ text
    · simp [few]
  · simp [Nat.ne_of_gt pos]
  · simp

theorem fails_fewQuotes {count : Nat} (many : 2 < count) {text : List Char}
    (stops : Stops (· == quote) text) :
    Fails (fewQuotes quote) (List.replicate count quote ++ text) := by
  unfold fewQuotes
  apply fails_behind _ (takes_some _ _ stops)
  · apply fails_bind
    apply fails_ensure
    simpa using many
  · simp [Nat.ne_of_gt (Nat.zero_lt_of_lt many)]
  · simp

/-- What stands between the quotes, as a reader goes through it. -/
theorem Inside.repeats {written content : List Char}
    (inside : Inside quote piece rest written content)
    (noPiece : ∀ more, Fails piece (quote :: more)) (stops : Stops (· == quote) rest) :
    ∃ body pieces count, count ≤ 2 ∧ written = body ++ List.replicate count quote ∧
      content = pieces.flatten ++ List.replicate count quote ∧
      Repeats (either piece (fewQuotes quote)) body pieces
        (List.replicate count quote ++ quote :: quote :: quote :: rest) := by
  induction inside with
  | @quotes count few =>
      refine ⟨[], [], count, few, rfl, rfl, .done ?_⟩
      have closing : List.replicate count quote ++ quote :: quote :: quote :: rest =
          List.replicate (count + 3) quote ++ rest := by
        rw [← List.replicate_append_replicate, List.append_assoc]
        rfl
      rw [closing]
      apply fails_either _ (fails_fewQuotes (by omega) stops)
      exact noPiece _
  | @part text written value content nonempty takes behind ih =>
      obtain ⟨body, pieces, count, few, rfl, rfl, repeats⟩ := ih
      refine ⟨text ++ body, value :: pieces, count, few, ?_, ?_, .more nonempty ?_ repeats⟩
      · rw [List.append_assoc]
      · rw [List.flatten_cons, List.append_assoc]
      · rwa [List.append_assoc] at takes

theorem fails_threeQuotes (count : Nat) (few : count < 3) (stops : Stops (· == quote) rest) :
    Fails (literal [quote, quote, quote]) (List.replicate count quote ++ rest) := by
  have opens : [quote, quote, quote].isPrefixOf (List.replicate count quote ++ rest) = false := by
    cases rest with
    | nil => match count, few with | 0, _ | 1, _ | 2, _ => simp
    | cons c more =>
        have other : quote ≠ c := by
          rintro rfl
          simpa using stops quote rfl
        match count, few with | 0, _ | 1, _ | 2, _ => simp [List.isPrefixOf, other]
  simp [Fails, literal, opens]

theorem takes_closingQuotes {count : Nat} (few : count ≤ 2) (stops : Stops (· == quote) rest) :
    Takes (closingQuotes quote) (List.replicate count quote ++ [quote, quote, quote])
      (List.replicate count quote) rest := by
  have three : Takes (literal [quote, quote, quote]) [quote, quote, quote] () rest :=
    takes_literal _ rest
  have one : ∀ more, Takes (char quote) [quote] () more := takes_char quote
  unfold closingQuotes
  match count, few with
  | 2, _ =>
      apply takes_first
      apply takes_bind [quote] (quote :: [quote, quote, quote]) (one _)
      apply takes_bind [quote] [quote, quote, quote] (one _)
      exact takes_last three (takes_pure _ rest)
  | 1, _ =>
      apply takes_second
      · apply fails_behind [quote] (one _)
        apply fails_behind [quote] (one _)
        apply fails_bind
        exact fails_threeQuotes 2 (by decide) stops
      · apply takes_first
        apply takes_bind [quote] [quote, quote, quote] (one _)
        exact takes_last three (takes_pure _ rest)
  | 0, _ =>
      apply takes_second
      · apply fails_behind [quote] (one _)
        apply fails_behind [quote] (one _)
        apply fails_bind
        exact fails_threeQuotes 1 (by decide) stops
      · apply takes_second
        · apply fails_behind [quote] (one _)
          apply fails_bind
          exact fails_threeQuotes 2 (by decide) stops
        · exact takes_last three (takes_pure _ rest)

theorem takes_longString {opening written content : List Char} {found : Option Unit}
    (inside : Inside quote piece rest written content)
    (noPiece : ∀ more, Fails piece (quote :: more)) (stops : Stops (· == quote) rest)
    (opens : Takes (maybe newline) opening found
      (written ++ quote :: quote :: quote :: rest)) :
    Takes (longString quote piece)
      ([quote, quote, quote] ++ (opening ++ (written ++ [quote, quote, quote])))
      (String.ofList content) rest := by
  obtain ⟨body, pieces, count, few, rfl, rfl, repeats⟩ := inside.repeats noPiece stops
  unfold longString
  apply takes_bind _ _ (takes_literal _ _)
  apply takes_bind opening
  · simpa using opens
  rw [List.append_assoc]
  apply takes_bind body
  · apply takes_many
    simpa using repeats
  exact takes_last (takes_closingQuotes few stops) (takes_pure _ rest)

/-- Quotes in front of a text that belong together: at most two, or three of a longer run. -/
theorem quotes_cases (quote : Char) (chars : List Char) :
    (∃ count ≤ 2, chars = List.replicate count quote) ∨
      (∃ more, chars = [quote, quote, quote] ++ more) ∨
      ∃ count ≤ 2, ∃ c more, c ≠ quote ∧ chars = List.replicate count quote ++ c :: more := by
  match chars with
  | [] => exact .inl ⟨0, by decide, rfl⟩
  | c :: more =>
      by_cases first : c = quote
      case neg => exact .inr (.inr ⟨0, by decide, c, more, first, rfl⟩)
      subst first
      match more with
      | [] => exact .inl ⟨1, by decide, rfl⟩
      | d :: more =>
          by_cases second : d = c
          case neg => exact .inr (.inr ⟨1, by decide, d, more, second, rfl⟩)
          subst second
          match more with
          | [] => exact .inl ⟨2, by decide, rfl⟩
          | e :: more =>
              by_cases third : e = d
              case neg => exact .inr (.inr ⟨2, by decide, e, more, third, rfl⟩)
              subst third
              exact .inr (.inl ⟨more, rfl⟩)

/-- At most two quotes in front of what goes on otherwise. -/
theorem Inside.withQuotes (count : Nat) {written content : List Char} (few : count ≤ 2)
    (noPiece : ∀ more, Fails piece (quote :: more))
    (stops : Stops (· == quote) (written ++ quote :: quote :: quote :: rest))
    (behind : Inside quote piece rest written content) :
    Inside quote piece rest (List.replicate count quote ++ written)
      (List.replicate count quote ++ content) := by
  match count, few with
  | 0, _ => exact behind
  | count + 1, few =>
      apply Inside.part _ _ behind
      · simp
      · apply takes_second
        · exact noPiece _
        · exact takes_fewQuotes (Nat.succ_pos count) few stops

end Inside

/-! ### Several lines with escapes -/

theorem fails_basicPiece (more : List Char) : Fails basicPiece ('"' :: more) :=
  fails_either (fails_some (stops_cons rfl more)) rfl

theorem takes_basicPiece_escape {c : Char} {text : List Char} (escape : EscapeOf c text)
    (rest : List Char) : Takes basicPiece text [c] rest := by
  obtain ⟨mark, more, rfl, solid, noBreak, noReturn⟩ := escape.begins
  unfold basicPiece
  apply takes_second (fails_some (stops_cons rfl _))
  apply takes_second
  · -- What follows the backslash is neither a blank nor a line end.
    apply fails_behind ['\\'] (takes_char '\\' _)
    have blanks : Takes spaces [] () (mark :: more ++ rest) :=
      takes_last (takes_span (List.forall_mem_nil _) (stops_cons solid _)) (takes_pure _ _)
    apply fails_behind [] blanks
    apply fails_bind
    apply fails_either
    · exact fails_char (by simpa using noBreak)
    · exact fails_literal _ (by simpa using noReturn)
  · exact takes_first _ (takes_map (fun c => [c]) (escape.takes rest))

theorem takes_basicPiece_raw {text rest : List Char} (nonempty : text ≠ [])
    (raw : ∀ c ∈ text, isRaw c = true) (stops : Stops isBasic rest) :
    Takes basicPiece text text rest := by
  apply takes_first
  apply takes_some nonempty _ stops
  intro c mem
  exact (Bool.and_eq_true_iff.mp (raw c mem)).1

theorem isRaw_iff {c : Char} : isRaw c = true ↔
    c ≠ '"' ∧ c ≠ '\\' ∧ c ≠ '\t' ∧ 0x20 ≤ c.toNat ∧ c.toNat ≠ 0x7F := by
  simp only [isRaw, isBasic, isPlain, isWide, Bool.or_eq_true, Bool.and_eq_true, decide_eq_true_eq,
    beq_iff_eq, bne_iff_ne]
  constructor
  · rintro ⟨⟨⟨(same | printed) | wide, noQuote⟩, noSlash⟩, noTab⟩
    · contradiction
    · exact ⟨noQuote, noSlash, noTab, by omega, by omega⟩
    · exact ⟨noQuote, noSlash, noTab, by omega, by omega⟩
  · rintro ⟨noQuote, noSlash, noTab, printed, noDelete⟩
    refine ⟨⟨⟨?_, noQuote⟩, noSlash⟩, noTab⟩
    omega

theorem escapedChar_of_raw {c : Char} (raw : isRaw c = true) : escapedChar c = [c] := by
  obtain ⟨noQuote, noSlash, noTab, printed, noDelete⟩ := isRaw_iff.mp raw
  have noReturn : c ≠ '\r' := by
    rintro rfl
    exact absurd printed (by decide)
  unfold escapedChar needsEscape
  simp only [beq_iff_eq, noSlash, noTab, noReturn, if_false, Bool.or_eq_true, Bool.and_eq_true,
    decide_eq_true_eq]
  rw [if_neg (by omega), if_neg (by omega), if_neg (by omega)]

theorem escapedLines_cons {c : Char} (noQuote : c ≠ '"') (quotes : Nat) (more : List Char) :
    escapedLines quotes (c :: more) = escapedChar c ++ escapedLines 0 more := by
  rw [escapedLines]
  exact noQuote

/-- What is no character as it is begins with a quote, a line end or a backslash. -/
theorem escapedLines_stops {c : Char} (marked : isRaw c = false) (more tail : List Char) :
    Stops isBasic (escapedLines 0 (c :: more) ++ tail) := by
  by_cases quote : c = '"'
  · subst quote
    exact stops_cons rfl _
  rw [escapedLines_cons quote, List.append_assoc]
  by_cases lineEnd : c = '\n'
  · subst lineEnd
    exact stops_cons rfl _
  obtain ⟨raw, _⟩ | escape := escapedChar_cases quote lineEnd
  · rw [raw] at marked
    contradiction
  · obtain ⟨mark, rest, text, _⟩ := escape.begins
    rw [text]
    exact stops_cons rfl _

theorem escapedLines_raw {front : List Char} (raw : ∀ c ∈ front, isRaw c = true)
    (back : List Char) : escapedLines 0 (front ++ back) = front ++ escapedLines 0 back := by
  induction front with
  | nil => rfl
  | cons c more ih =>
      have first := raw c List.mem_cons_self
      have others := ih fun d mem => raw d (List.mem_cons_of_mem c mem)
      rw [List.cons_append, escapedLines_cons (isRaw_iff.mp first).1, escapedChar_of_raw first,
        others]
      rfl

/-- What is written of a text with other characters than a quote in front does not begin with one. -/
theorem escapedLines_noQuote {c : Char} (noQuote : c ≠ '"') (more tail : List Char) :
    Stops (· == '"') (escapedLines 0 (c :: more) ++ tail) := by
  rw [escapedLines_cons noQuote, List.append_assoc]
  by_cases lineEnd : c = '\n'
  · subst lineEnd
    exact stops_cons rfl _
  obtain ⟨_, itself⟩ | escape := escapedChar_cases noQuote lineEnd
  · rw [itself]
    exact stops_cons (by simpa using noQuote) _
  · obtain ⟨mark, rest, text, _⟩ := escape.begins
    rw [text]
    exact stops_cons rfl _

theorem escapedLines_quotes {count : Nat} (few : count ≤ 2) {more : List Char}
    (stops : Stops (· == '"') more) :
    escapedLines 0 (List.replicate count '"' ++ more) =
      List.replicate count '"' ++ escapedLines 0 more := by
  have onward : ∀ quotes, escapedLines quotes more = escapedLines 0 more := by
    intro quotes
    cases more with
    | nil => rfl
    | cons c more =>
        have noQuote : c ≠ '"' := by
          rintro rfl
          simpa using stops '"' rfl
        rw [escapedLines_cons noQuote, escapedLines_cons noQuote]
  match count, few with
  | 0, _ => rfl
  | 1, _ => exact congrArg ('"' :: ·) (onward 1)
  | 2, _ => exact congrArg ('"' :: '"' :: ·) (onward 2)

theorem takes_basicPiece_break (rest : List Char) : Takes basicPiece ['\n'] ['\n'] rest := rfl

/-- Characters other than a quote in front of what is read already. -/
theorem inside_escapedFront {rest : List Char} {c : Char} (noQuote : c ≠ '"') (more : List Char)
    (shorter : ∀ back : List Char, back.length ≤ more.length →
      Inside '"' basicPiece rest (escapedLines 0 back) back) :
    Inside '"' basicPiece rest (escapedLines 0 (c :: more)) (c :: more) := by
  by_cases lineEnd : c = '\n'
  · subst lineEnd
    have behind := shorter more (Nat.le_refl _)
    exact .part (List.cons_ne_nil _ _) (takes_first _ (takes_basicPiece_break _)) behind
  by_cases raw : isRaw c = true
  · obtain ⟨front, back, rfl, inside, stops⟩ := exists_span isRaw more
    have allRaw : ∀ d ∈ c :: front, isRaw d = true := List.forall_mem_cons.mpr ⟨raw, inside⟩
    have behind := shorter back (by simp)
    rw [← List.cons_append, escapedLines_raw allRaw]
    apply Inside.part (List.cons_ne_nil _ _) _ behind
    apply takes_first
    apply takes_basicPiece_raw (List.cons_ne_nil _ _) allRaw
    cases back with
    | nil => exact stops_cons rfl _
    | cons d back => exact escapedLines_stops (stops d rfl) back _
  · obtain ⟨isRaw, _⟩ | escape := escapedChar_cases noQuote lineEnd
    · contradiction
    · obtain ⟨mark, tail, text, _⟩ := escape.begins
      rw [escapedLines_cons noQuote]
      have nonempty : escapedChar c ≠ [] := by
        rw [text]
        exact List.cons_ne_nil _ _
      have piece (behind : List Char) := takes_basicPiece_escape escape behind
      exact Inside.part nonempty (takes_first _ (piece _)) (shorter more (Nat.le_refl _))

theorem inside_escapedLines (chars rest : List Char) :
    Inside '"' basicPiece rest (escapedLines 0 chars) chars := by
  obtain ⟨count, few, same⟩ | ⟨more, same⟩ | ⟨count, few, c, more, noQuote, same⟩ :=
    quotes_cases '"' chars
  · have written := escapedLines_quotes few (stops_nil (· == '"'))
    rw [List.append_nil, ← same] at written
    rw [written, same]
    simpa [escapedLines] using Inside.quotes few
  · -- The third quote is written with a backslash in front of it.
    have behind := inside_escapedLines more rest
    have last := Inside.part (List.cons_ne_nil _ _)
      (takes_first _ (takes_basicPiece_escape escapeOf_quote _)) behind
    rw [same]
    exact .withQuotes 2 (by decide) fails_basicPiece (stops_cons rfl _) last
  · have stops := escapedLines_noQuote noQuote more
    rw [same, escapedLines_quotes few (stops_cons (by simpa using noQuote) more)]
    apply Inside.withQuotes count few fails_basicPiece (stops _)
    exact inside_escapedFront noQuote more fun back _ => inside_escapedLines back rest
termination_by chars.length
decreasing_by
  · simp only [same, List.length_append, List.length_cons]
    omega
  · simp only [same, List.length_append, List.length_cons]
    omega

/-! ### Several lines without escapes -/

theorem le_longestRun (quote : Char) (length : Nat) (chars : List Char) :
    length ≤ longestRun quote length chars := by
  induction chars generalizing length with
  | nil => exact Nat.le_refl length
  | cons c more ih =>
      rw [longestRun]
      split
      · exact Nat.le_of_succ_le (ih (length + 1))
      · exact Nat.le_max_left _ _

theorem longestRun_mono (quote : Char) {less more : Nat} (le : less ≤ more) (chars : List Char) :
    longestRun quote less chars ≤ longestRun quote more chars := by
  induction chars generalizing less more with
  | nil => exact le
  | cons c rest ih =>
      rw [longestRun, longestRun]
      split
      · exact ih (Nat.succ_le_succ le)
      · omega

/-- The longest run of a text is no shorter than that of an end of the text. -/
theorem longestRun_suffix (quote : Char) (length : Nat) (front back : List Char) :
    longestRun quote 0 back ≤ longestRun quote length (front ++ back) := by
  induction front generalizing length with
  | nil => exact longestRun_mono quote (Nat.zero_le length) back
  | cons c more ih =>
      rw [List.cons_append, longestRun]
      split
      · exact ih (length + 1)
      · exact Nat.le_trans (ih 0) (Nat.le_max_right _ _)

theorem isPlain_of_printed {c : Char} (printed : needsEscape c = false) (noBreak : c ≠ '\n') :
    isPlain c = true := by
  simp only [needsEscape, Bool.or_eq_false_iff, Bool.and_eq_false_iff, decide_eq_false_iff_not,
    beq_eq_false_iff_ne, bne_eq_false_iff_eq] at printed
  simp only [isPlain, isWide, Bool.or_eq_true, Bool.and_eq_true, decide_eq_true_eq, beq_iff_eq]
  obtain ⟨(large | same) | same, noDelete⟩ := printed
  · omega
  · exact .inl (.inl same)
  · contradiction

/-- What stands for itself between single quotes. -/
def isLiteral (c : Char) : Bool :=
  isPlain c && c != '\''

theorem fails_literalPiece (more : List Char) : Fails literalPiece ('\'' :: more) :=
  fails_either (fails_some (stops_cons rfl more)) rfl

theorem takes_literalPiece_break (rest : List Char) : Takes literalPiece ['\n'] ['\n'] rest := rfl

/-- Characters other than a quote in front of what is read already. -/
theorem inside_literalFront {rest : List Char} {c : Char} (noQuote : c ≠ '\'') (more : List Char)
    (printed : ∀ d ∈ c :: more, needsEscape d = false)
    (shorter : ∀ front back : List Char, more = front ++ back →
      Inside '\'' literalPiece rest back back) :
    Inside '\'' literalPiece rest (c :: more) (c :: more) := by
  by_cases lineEnd : c = '\n'
  · subst lineEnd
    have behind := shorter [] more rfl
    exact .part (List.cons_ne_nil _ _) (takes_first _ (takes_literalPiece_break _)) behind
  · have plain : isLiteral c = true := by
      have plain := isPlain_of_printed (printed c List.mem_cons_self) lineEnd
      simp [isLiteral, plain, noQuote]
    obtain ⟨front, back, rfl, inside, stops⟩ := exists_span isLiteral more
    have behind := shorter front back rfl
    rw [← List.cons_append]
    apply Inside.part (List.cons_ne_nil c front) _ behind
    apply takes_first
    apply takes_first
    apply takes_some (List.cons_ne_nil _ _)
    · exact List.forall_mem_cons.mpr ⟨plain, inside⟩
    · cases back with
      | nil => exact stops_cons rfl _
      | cons d back => exact stops_cons (stops d rfl) _

theorem inside_literal {chars : List Char} (rest : List Char)
    (printed : ∀ c ∈ chars, needsEscape c = false) (few : longestRun '\'' 0 chars ≤ 2) :
    Inside '\'' literalPiece rest chars chars := by
  obtain ⟨count, few', same⟩ | ⟨more, same⟩ | ⟨count, few', c, more, noQuote, same⟩ :=
    quotes_cases '\'' chars
  · rw [same]
    exact .quotes few'
  · -- Three quotes side by side are a run that is too long.
    have run : longestRun '\'' 0 (['\'', '\'', '\''] ++ more) = longestRun '\'' 3 more := rfl
    have long := le_longestRun '\'' 3 more
    rw [same, run] at few
    omega
  · rw [same]
    apply Inside.withQuotes count few' fails_literalPiece (stops_cons (by simpa using noQuote) _)
    apply inside_literalFront noQuote
    · intro d mem
      exact printed d (same ▸ List.mem_append_right _ mem)
    · rintro front back rfl
      have split : chars = (List.replicate count '\'' ++ c :: front) ++ back := by
        rw [same, List.append_assoc]
        rfl
      apply inside_literal rest
      · intro d mem
        exact printed d (split ▸ List.mem_append_right _ mem)
      · have whole := longestRun_suffix '\'' 0 (List.replicate count '\'' ++ c :: front) back
        rw [← split] at whole
        omega
termination_by chars.length
decreasing_by
  simp only [split, List.length_append, List.length_cons]
  omega

/-! ### Strings of any form -/

/-- A mark that a string begins and ends with. -/
def isQuote (c : Char) : Bool :=
  c == '"' || c == '\''

theorem stops_quote {quote : Char} {rest : List Char} (stops : Stops isQuote rest)
    (known : isQuote quote = true) : Stops (· == quote) rest := by
  intro c first
  apply Bool.eq_false_iff.mpr
  intro same
  have other := stops c first
  rw [beq_iff_eq.mp same, known] at other
  contradiction

/-- The text of a string in several lines: a line end in front of the first line is not part of it. -/
def longText (quote : Char) (breaks : Bool) (inside : List Char) : List Char :=
  [quote, quote, quote] ++ ((if breaks then ['\n'] else []) ++ (inside ++ [quote, quote, quote]))

theorem takes_longText {quote : Char} {piece : Read (List Char)} {breaks : Bool}
    {written content rest : List Char} (inside : Inside quote piece rest written content)
    (noPiece : ∀ more, Fails piece (quote :: more)) (stops : Stops (· == quote) rest)
    (onOneLine : breaks = false → Stops (fun c => c == '\n' || c == '\r')
      (written ++ quote :: quote :: quote :: rest)) :
    Takes (longString quote piece) (longText quote breaks written) (String.ofList content)
      rest := by
  cases breaks with
  | true =>
      apply takes_longString inside noPiece stops
      exact takes_maybe (takes_first _ (takes_char '\n' _))
  | false =>
      apply takes_longString inside noPiece stops (takes_nothing _)
      have first := onOneLine rfl
      apply fails_either
      · apply fails_char
        intro same
        simpa using first _ same
      · apply fails_literal
        intro same
        simpa using first _ same

theorem fails_longString {quote c : Char} {text : List Char} (piece : Read (List Char))
    (other : c ≠ quote) : Fails (longString quote piece) (c :: text) := by
  unfold longString
  exact fails_bind _ (fails_literal _ (by simpa using other))

/-- A quote in front of a text that does not begin with two more. -/
theorem fails_longString_short {quote : Char} (count : Nat) {text : List Char}
    (piece : Read (List Char)) (few : count < 3) (stops : Stops (· == quote) text) :
    Fails (longString quote piece) (List.replicate count quote ++ text) := by
  unfold longString
  exact fails_bind _ (fails_threeQuotes count few stops)

theorem takes_basicForm (chars : List Char) {rest : List Char} (stops : Stops isQuote rest) :
    Takes string ('"' :: escapedLine chars ++ ['"']) (String.ofList chars) rest := by
  have short : Fails (longString '"' basicPiece) ('"' :: escapedLine chars ++ ['"'] ++ rest) := by
    cases chars with
    | nil => exact fails_longString_short 2 _ (by decide) (stops_quote stops rfl)
    | cons c more =>
        apply fails_longString_short 1 _ (by decide)
        by_cases quote : c = '"'
        · subst quote
          exact stops_cons rfl _
        by_cases lineEnd : c = '\n'
        · subst lineEnd
          exact stops_cons rfl _
        have text : escapedLine (c :: more) = escapedChar c ++ escapedLine more := by
          simp [escapedLine, quote, lineEnd]
        have behind := escapedLines_noQuote quote [] (escapedLine more ++ ['"'] ++ rest)
        rw [escapedLines_cons quote] at behind
        rw [text]
        simpa [escapedLines] using behind
  unfold string
  apply takes_second short
  apply takes_second (fails_longString _ (by decide))
  exact takes_first _ (takes_basicString chars rest)

theorem takes_literalForm {chars rest : List Char} (plain : ∀ c ∈ chars, isLiteral c = true)
    (stops : Stops isQuote rest) :
    Takes string ('\'' :: chars ++ ['\'']) (String.ofList chars) rest := by
  have short : Fails (longString '\'' literalPiece) ('\'' :: chars ++ ['\''] ++ rest) := by
    cases chars with
    | nil => exact fails_longString_short 2 _ (by decide) (stops_quote stops rfl)
    | cons c more =>
        apply fails_longString_short 1 _ (by decide)
        have noQuote := (Bool.and_eq_true_iff.mp (plain c List.mem_cons_self)).2
        exact stops_cons (by simpa using noQuote) _
  unfold string
  apply takes_second (fails_longString _ (by decide))
  apply takes_second short
  apply takes_second
  · exact fails_bind _ (fails_char (by simp))
  · exact takes_literalString plain rest

theorem takes_longBasicForm {chars : List Char} {breaks : Bool} {rest : List Char}
    (stops : Stops isQuote rest) (onOneLine : breaks = false → '\n' ∉ chars) :
    Takes string (longText '"' breaks (escapedLines 0 chars)) (String.ofList chars) rest := by
  apply takes_first
  apply takes_longText (inside_escapedLines chars rest) fails_basicPiece (stops_quote stops rfl)
  intro one
  cases chars with
  | nil => exact stops_cons rfl _
  | cons c more =>
      by_cases quote : c = '"'
      · subst quote
        exact stops_cons rfl _
      have noBreak : c ≠ '\n' := by
        rintro rfl
        exact onOneLine one List.mem_cons_self
      rw [escapedLines_cons quote, List.append_assoc]
      obtain ⟨raw, itself⟩ | escape := escapedChar_cases quote noBreak
      · have noReturn : c ≠ '\r' := by
          rintro rfl
          contradiction
        rw [itself]
        exact stops_cons (by simp [noBreak, noReturn]) _
      · obtain ⟨mark, tail, text, _⟩ := escape.begins
        rw [text]
        exact stops_cons rfl _

theorem takes_longLiteralForm {chars : List Char} {breaks : Bool} {rest : List Char}
    (stops : Stops isQuote rest) (printed : ∀ c ∈ chars, needsEscape c = false)
    (few : longestRun '\'' 0 chars ≤ 2) (onOneLine : breaks = false → '\n' ∉ chars) :
    Takes string (longText '\'' breaks chars) (String.ofList chars) rest := by
  apply takes_second (fails_longString _ (by decide))
  apply takes_first
  apply takes_longText (inside_literal rest printed few) fails_literalPiece (stops_quote stops rfl)
  intro one
  cases chars with
  | nil => exact stops_cons rfl _
  | cons c more =>
      have noBreak : c ≠ '\n' := by
        rintro rfl
        exact onOneLine one List.mem_cons_self
      have noReturn : c ≠ '\r' := by
        rintro rfl
        exact absurd (printed '\r' List.mem_cons_self) (by decide)
      exact stops_cons (by simp [noBreak, noReturn]) _

theorem not_mem_of_longestRun {quote : Char} {chars : List Char}
    (none : longestRun quote 0 chars = 0) : quote ∉ chars := by
  intro mem
  obtain ⟨front, back, rfl⟩ := List.append_of_mem mem
  have whole := longestRun_suffix quote 0 front (quote :: back)
  have run := le_longestRun quote (0 + 1) back
  rw [longestRun, if_pos (beq_self_eq_true quote)] at whole
  omega

/-- A string is read again from the form that it is written in. -/
theorem takes_string (text : String) {rest : List Char} (stops : Stops isQuote rest) :
    Takes string (stringText text).toList text rest := by
  have long : ∀ (quote : Char) (inside : List Char),
      [quote, quote, quote] ++ (if text.toList.contains '\n' then ['\n'] else []) ++ inside ++
        [quote, quote, quote] = longText quote (text.toList.contains '\n') inside := by
    simp [longText]
  have onOneLine : text.toList.contains '\n' = false → '\n' ∉ text.toList := by
    simp
  have printed : text.toList.any needsEscape = false → ∀ c ∈ text.toList, needsEscape c = false := by
    simp
  have basic := takes_basicForm text.toList stops
  have longBasic := takes_longBasicForm stops onOneLine
  rw [String.ofList_toList] at basic longBasic
  unfold stringText
  dsimp only
  rw [String.toList_ofList]
  simp only [long, Bool.and_eq_true, Bool.not_eq_true', beq_iff_eq, decide_eq_true_eq]
  split
  case isTrue => exact basic
  case isFalse =>
  split
  case isTrue plain =>
    obtain ⟨⟨clear, singles⟩, one⟩ := plain
    have literal : ∀ c ∈ text.toList, isLiteral c = true := by
      intro c mem
      have noBreak : c ≠ '\n' := by
        rintro rfl
        exact onOneLine one mem
      have noQuote : c ≠ '\'' := by
        rintro rfl
        exact not_mem_of_longestRun singles mem
      simp [isLiteral, isPlain_of_printed (printed clear c mem) noBreak, noQuote]
    have takes := takes_literalForm literal stops
    rwa [String.ofList_toList] at takes
  case isFalse =>
  split
  case isTrue => exact longBasic
  case isFalse =>
  split
  case isTrue few =>
    have takes := takes_longLiteralForm stops (printed few.1) few.2 onOneLine
    rwa [String.ofList_toList] at takes
  case isFalse =>
  split
  case isTrue => exact longBasic
  case isFalse => exact basic

theorem stringText_begins (text : String) :
    ∃ quote more, (stringText text).toList = quote :: more ∧ isQuote quote = true := by
  unfold stringText
  dsimp only
  rw [String.toList_ofList]
  repeat' split
  all_goals exact ⟨_, _, rfl, rfl⟩

end DocDrift.Toml
