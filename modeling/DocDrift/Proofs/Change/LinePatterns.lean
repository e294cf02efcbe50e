import DocDrift.Change.LineKind
import DocDrift.Proofs.Text.Pattern
import Mathlib

/-!
What changed lines are searched for. A line is a comment if one pattern is found in it, and it opens
or alters a declaration if one of five others is. The patterns are made of keywords in any case, and
of what stands behind keywords; both can be told from the words of a text.
-/

set_option autoImplicit false

namespace DocDrift.LineKind

open Text

/-! ### The patterns -/

/-- A keyword, in any case. -/
def keyword (word : String) : Pattern :=
  .inTurn (word.toList.map fun letter => .one fun c => foldedChar c == letter)

def keywords (list : List String) : Pattern :=
  .anyOf (list.map keyword)

def isNameChar (c : Char) : Bool :=
  isWordChar c || c == '\\'

def isTypeChar (c : Char) : Bool :=
  isWordChar c || c == '?' || c == '\\' || c == '|' || c == '&'

/-- Opens a comment, which an attribute does not: `^\s*(?://|#(?:$|[^\[])|/\*|\*)` -/
def commentOpening : Pattern :=
  .inTurn [.start, .blanks, .anyOf [
    .inTurn [.sign '/', .sign '/'],
    .inTurn [.sign '#', .either .stop (.one (· != '['))],
    .inTurn [.sign '/', .sign '*'],
    .sign '*']]

/-- Opens a type: `^\s*(?:(?:abstract|final|readonly)\s+)*(?:class|interface|trait|enum)\s+\w` -/
def typeOpening : Pattern :=
  .inTurn [.start, .blanks,
    .many (.inTurn [keywords ["abstract", "final", "readonly"], .gap]),
    keywords ["class", "interface", "trait", "enum"], .gap, .one isWordChar]

/-- Declares a function: `\bfunction\s+&?\w+\s*\(` -/
def functionOpening : Pattern :=
  .inTurn [.edge, keywords ["function"], .gap, .optional (.sign '&'),
    .atLeastOne (.one isWordChar), .blanks, .sign '(']

/-- Declares a property:
`^\s*(?:(?:public|protected|private|static|var|readonly)\s+)+(?:[?\w\\|&]+\s+)?\$\w` -/
def propertyOpening : Pattern :=
  .inTurn [.start, .blanks,
    .atLeastOne (.inTurn [
      keywords ["public", "protected", "private", "static", "var", "readonly"], .gap]),
    .optional (.inTurn [.atLeastOne (.one isTypeChar), .gap]), .sign '$', .one isWordChar]

/-- Opens a namespace or imports a name: `^\s*(?:namespace|use)\s+[\w\\]` -/
def spaceOpening : Pattern :=
  .inTurn [.start, .blanks, keywords ["namespace", "use"], .gap, .one isNameChar]

/-- States a hierarchy: `\b(?:extends|implements)\s+[\w\\]` -/
def hierarchyClause : Pattern :=
  .inTurn [.edge, keywords ["extends", "implements"], .gap, .one isNameChar]

def declarationPatterns : List Pattern :=
  [typeOpening, functionOpening, propertyOpening, spaceOpening, hierarchyClause]

/-! ### Characters -/

def blankPoints : List Nat :=
  [0x09, 0x0A, 0x0B, 0x0C, 0x0D, 0x20, 0x85, 0xA0, 0x1680, 0x2000, 0x2001, 0x2002, 0x2003, 0x2004,
    0x2005, 0x2006, 0x2007, 0x2008, 0x2009, 0x200A, 0x2028, 0x2029, 0x202F, 0x205F, 0x3000]

theorem mem_blankPoints {c : Char} (blank : isBlank c = true) : c.toNat ∈ blankPoints := by
  simp only [isBlank, Bool.or_eq_true, Bool.and_eq_true, decide_eq_true_eq, beq_iff_eq] at blank
  simp only [blankPoints, List.mem_cons, List.not_mem_nil, or_false]
  omega

theorem solid_of_isWordChar {c : Char} (wordChar : isWordChar c = true) : isBlank c = false := by
  have none : ∀ point ∈ blankPoints, isWordChar (Char.ofNat point) = false := by decide +kernel
  cases blank : isBlank c with
  | false => rfl
  | true =>
      have plain := none c.toNat (mem_blankPoints blank)
      rw [Char.ofNat_toNat, wordChar] at plain
      cases plain

theorem solid_of_isTypeChar {c : Char} (typeChar : isTypeChar c = true) : isBlank c = false := by
  simp only [isTypeChar, Bool.or_eq_true, beq_iff_eq] at typeChar
  rcases typeChar with (((wordChar | rfl) | rfl) | rfl) | rfl
  · exact solid_of_isWordChar wordChar
  all_goals decide

theorem solid_of_isNameChar {c : Char} (nameChar : isNameChar c = true) : isBlank c = false := by
  simp only [isNameChar, Bool.or_eq_true, beq_iff_eq] at nameChar
  rcases nameChar with wordChar | rfl
  · exact solid_of_isWordChar wordChar
  · decide

theorem isWordChar_of_letter {c : Char} (letter : c.isAlpha = true) : isWordChar c = true := by
  have small : c.toNat < 0x80 := by
    simp only [Char.isAlpha, Char.isUpper, Char.isLower, Bool.or_eq_true, Bool.and_eq_true,
      decide_eq_true_eq, ge_iff_le, UInt32.le_iff_toNat_le] at letter
    rcases letter with ⟨_least, most⟩ | ⟨_least, most⟩
    · exact Nat.lt_of_le_of_lt most (by decide)
    · exact Nat.lt_of_le_of_lt most (by decide)
  rw [isWordChar, if_pos small, Char.isAlphanum, letter, Bool.true_or, Bool.true_or]

theorem isWordChar_of_folded {c : Char} (letter : (foldedChar c).isLower = true) :
    isWordChar c = true := by
  unfold foldedChar at letter
  split at letter
  case isTrue long =>
    rw [← Char.ofNat_toNat c, beq_iff_eq.mp long]
    decide +kernel
  case isFalse =>
    split at letter
    case isTrue kelvin =>
      rw [← Char.ofNat_toNat c, beq_iff_eq.mp kelvin]
      decide +kernel
    case isFalse =>
      rw [Char.isLower_toLower_eq_isAlpha] at letter
      exact isWordChar_of_letter letter

/-! ### Keywords -/

def Lettered (list : List String) : Prop :=
  ∀ word ∈ list, word.toList ≠ [] ∧ word.toList.all Char.isLower = true

instance (list : List String) : Decidable (Lettered list) :=
  inferInstanceAs (Decidable (∀ word ∈ list,
    word.toList ≠ [] ∧ word.toList.all Char.isLower = true))

section Keywords

variable {holds : Spot → Prop} {here : Spot} {list : List String}

theorem meets_keyword {word : String} : (keyword word).Meets holds here ↔
    ∃ run rest, here.after = run ++ rest ∧ run.map foldedChar = word.toList ∧
      holds (here.past run rest) := by
  rw [keyword]
  generalize word.toList = letters
  induction letters generalizing here with
  | nil =>
      rw [List.map_nil, Pattern.meets_inTurn_nil]
      constructor
      · intro held
        exact ⟨[], here.after, rfl, rfl, held⟩
      · rintro ⟨run, rest, read, same, held⟩
        obtain rfl := List.map_eq_nil_iff.mp same
        obtain ⟨before, after⟩ := here
        cases read
        exact held
  | cons letter letters ih =>
      rw [List.map_cons, Pattern.meets_inTurn_cons, Pattern.meets_one]
      constructor
      · rintro ⟨c, rest, read, folded, meets⟩
        obtain ⟨run, more, behind, same, held⟩ := ih.mp meets
        refine ⟨c :: run, more, ?_, ?_, ?_⟩
        · rw [read, List.cons_append, ← behind]
          rfl
        · rw [List.map_cons, beq_iff_eq.mp folded, same]
        · simpa [Spot.past] using held
      · rintro ⟨run, rest, read, same, held⟩
        obtain ⟨c, run, rfl, folded, same⟩ := List.map_eq_cons_iff.mp same
        refine ⟨c, run ++ rest, read, beq_iff_eq.mpr folded, ih.mpr ⟨run, rest, rfl, same, ?_⟩⟩
        simpa [Spot.past] using held

theorem meets_keywords : (keywords list).Meets holds here ↔
    ∃ run rest, here.after = run ++ rest ∧ isOneOf list run = true ∧
      holds (here.past run rest) := by
  rw [keywords, Pattern.meets_anyOf]
  simp only [List.mem_map, exists_exists_and_eq_and, meets_keyword, isOneOf, List.any_eq_true,
    beq_iff_eq]
  constructor
  · rintro ⟨word, mem, run, rest, read, same, held⟩
    exact ⟨run, rest, read, ⟨word, mem, same.symm⟩, held⟩
  · rintro ⟨run, rest, read, ⟨word, mem, same⟩, held⟩
    exact ⟨word, mem, run, rest, read, same.symm, held⟩

theorem Lettered.isWordChar (lettered : Lettered list) {run : List Char}
    (keyword : isOneOf list run = true) : run ≠ [] ∧ ∀ c ∈ run, Text.isWordChar c = true := by
  obtain ⟨word, mem, same⟩ := List.any_eq_true.mp keyword
  rw [beq_iff_eq] at same
  obtain ⟨some, letters⟩ := lettered word mem
  rw [same] at some letters
  refine ⟨fun none => some (by rw [none, List.map_nil]), ?_⟩
  intro c inside
  exact isWordChar_of_folded (List.all_eq_true.mp letters _ (List.mem_map_of_mem inside))

theorem Lettered.solid (lettered : Lettered list) {run : List Char}
    (keyword : isOneOf list run = true) : run ≠ [] ∧ Solid run := by
  obtain ⟨some, wordChars⟩ := lettered.isWordChar keyword
  exact ⟨some, fun c mem => solid_of_isWordChar (wordChars c mem)⟩

end Keywords

/-! ### Patterns behind keywords -/

open Pattern

section Judges

variable {patterns : List Pattern} {test : List (List Char) → Bool} {list : List String}

theorem meets_keywordGap {holds : Spot → Prop} {here : Spot} :
    (inTurn (keywords list :: gap :: patterns)).Meets holds here ↔
      ∃ run between rest, here.after = run ++ (between ++ rest) ∧ isOneOf list run = true ∧
        Gap between ∧
        (inTurn patterns).Meets holds ((here.past run (between ++ rest)).past between rest) := by
  rw [meets_inTurn_cons, meets_keywords]
  constructor
  · rintro ⟨run, behind, read, keyword, meets⟩
    obtain ⟨between, rest, parted, isGap, meets⟩ := meets_gap.mp (meets_inTurn_cons.mp meets)
    obtain rfl : behind = between ++ rest := parted
    exact ⟨run, between, rest, read, keyword, isGap, meets⟩
  · rintro ⟨run, between, rest, read, keyword, isGap, meets⟩
    exact ⟨run, _, read, keyword, meets_inTurn_cons.mpr (meets_gap.mpr ⟨between, rest, rfl, isGap,
      meets⟩)⟩

def behindKeyword (list : List String) (test : List (List Char) → Bool) : List (List Char) → Bool
  | [] => false
  | word :: rest => isOneOf list word && test rest

theorem judges_behindKeyword (lettered : Lettered list) (judges : (inTurn patterns).Judges test)
    (needs : test [] = false) :
    (inTurn (keywords list :: gap :: patterns)).Judges (behindKeyword list test) where
  sound here meets := by
    obtain ⟨run, between, rest, read, keyword, isGap, meets⟩ := meets_keywordGap.mp meets
    obtain ⟨some, solid⟩ := lettered.solid keyword
    rw [read, words_gap some solid isGap, behindKeyword, keyword, Bool.true_and]
    exact judges.sound _ meets
  complete here fresh holds := by
    cases read : words here.after with
    | nil => rw [read] at holds; cases holds
    | cons word late =>
        rw [read, behindKeyword, Bool.and_eq_true] at holds
        obtain ⟨keyword, holds⟩ := holds
        cases late with
        | nil => rw [needs] at holds; cases holds
        | cons next more =>
            obtain ⟨between, rest, split, isGap, freshRest, behind⟩ := fresh.words_eq_cons_cons read
            refine meets_keywordGap.mpr ⟨word, between, rest, split, keyword, isGap, ?_⟩
            exact judges.complete _ freshRest (by rw [Spot.past, behind, holds])

/-- Modifiers before what is judged: each of them is a word. -/
theorem judges_modifiers (test : List (List Char) → Bool) {last : List (List Char) → Bool}
    (lettered : Lettered list) (judges : (inTurn patterns).Judges last) (needs : test [] = false)
    (lastNeeds : last [] = false)
    (round : ∀ word rest, test (word :: rest) =
      (last (word :: rest) || (isOneOf list word && test rest))) :
    (inTurn (.many (inTurn [keywords list, gap]) :: patterns)).Judges test where
  sound here meets := by
    rw [meets_inTurn_cons] at meets
    apply meets_many_carried (fun spot => test (words spot.after) = true) _ _ meets
    · intro spot meets
      have holds := judges.sound spot meets
      cases read : words spot.after with
      | nil => rw [read, lastNeeds] at holds; cases holds
      | cons word rest => rw [round, ← read, holds, Bool.true_or]
    · intro spot meets
      obtain ⟨run, between, rest, read, keyword, isGap, meets⟩ := meets_keywordGap.mp meets
      have holds : test (words rest) = true := meets_inTurn_nil.mp meets
      obtain ⟨some, solid⟩ := lettered.solid keyword
      rw [read, words_gap some solid isGap, round, keyword, holds, Bool.and_true, Bool.or_true]
  complete here fresh holds := by
    rw [meets_inTurn_cons]
    generalize read : words here.after = all at holds
    induction all generalizing here with
    | nil => rw [needs] at holds; cases holds
    | cons word late ih =>
        rw [round, Bool.or_eq_true, Bool.and_eq_true] at holds
        rw [meets_many]
        rcases holds with lastHolds | ⟨keyword, holds⟩
        · exact .inl (judges.complete here fresh (by rw [read, lastHolds]))
        · cases late with
          | nil => rw [needs] at holds; cases holds
          | cons next more =>
              obtain ⟨between, rest, split, isGap, freshRest, behind⟩ :=
                fresh.words_eq_cons_cons read
              right
              refine meets_keywordGap.mpr ⟨word, between, rest, split, keyword, isGap, ?_⟩
              exact meets_inTurn_nil.mpr (ih _ freshRest behind holds)

end Judges

/-! ### First words -/

/-- A test of the first word, if there is one. -/
def onFirst (test : List Char → Bool) (list : List (List Char)) : Bool :=
  (list.head?.map test).getD false

theorem onFirst_words (start : List Char) {rest : List Char} {test : List Char → Bool}
    (some : start ≠ []) (solid : Solid start) (holds : ∀ more, test (start ++ more) = true) :
    onFirst test (words (start ++ rest)) = true := by
  obtain ⟨more, tail, rfl, _solid, _parted, read⟩ := words_solid_append some solid rest
  rw [read, onFirst, List.head?_cons, Option.map_some, Option.getD_some]
  exact holds more

theorem first_of_fresh {text : List Char} {test : List Char → Bool} (fresh : Fresh text)
    (holds : onFirst test (words text) = true) :
    ∃ word tail, text = word ++ tail ∧ test word = true ∧ Solid word ∧ Parted tail := by
  cases read : words text with
  | nil => rw [read] at holds; cases holds
  | cons word rest =>
      rw [read] at holds
      obtain ⟨tail, split, _some, solid, parted, _found⟩ := fresh.words_eq_cons read
      exact ⟨word, tail, split, holds, solid, parted⟩

/-- A character that is no blank begins the first word. -/
theorem judges_one {accepts : Char → Bool} (solid : ∀ c, accepts c = true → isBlank c = false) :
    (inTurn [.one accepts]).Judges (onFirst fun word => (word.head?.map accepts).getD false) where
  sound here meets := by
    obtain ⟨c, rest, read, accepted, _trivial⟩ := meets_one.mp (meets_inTurn_cons.mp meets)
    rw [read]
    apply onFirst_words [c] (List.cons_ne_nil c [])
    · exact fun d mem => List.mem_singleton.mp mem ▸ solid c accepted
    · exact fun more => accepted
  complete here fresh holds := by
    obtain ⟨word, tail, split, holds, _solid, _parted⟩ := first_of_fresh fresh holds
    cases word with
    | nil => cases holds
    | cons c letters =>
        exact meets_inTurn_cons.mpr (meets_one.mpr ⟨c, letters ++ tail, split, holds,
          meets_inTurn_nil.mpr trivial⟩)

end DocDrift.LineKind
