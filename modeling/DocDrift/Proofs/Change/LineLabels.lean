import DocDrift.Proofs.Change.LinePatterns

/-!
The labels of changed lines. What each pattern finds in a line is told by the words of the line
alone, so the judgement of a line by its words is the search for the patterns; and neither depends
on how the line is laid out.
-/

set_option autoImplicit false

namespace DocDrift.LineKind

open Text Pattern

/-! ### What each pattern finds -/

theorem judges_comment :
    (inTurn [.anyOf [
      .inTurn [.sign '/', .sign '/'],
      .inTurn [.sign '#', .either .stop (.one (· != '['))],
      .inTurn [.sign '/', .sign '*'],
      .sign '*']]).Judges (onFirst beginsComment) where
  sound here meets := by
    obtain ⟨pattern, mem, meets⟩ := meets_anyOf.mp (meets_inTurn_cons.mp meets)
    simp only [List.mem_cons, List.not_mem_nil, or_false] at mem
    rcases mem with rfl | rfl | rfl | rfl
    · obtain ⟨rest, read, meets⟩ := meets_sign.mp (meets_inTurn_cons.mp meets)
      obtain ⟨more, behind, _trivial⟩ := meets_sign.mp (meets_inTurn_cons.mp meets)
      obtain rfl : rest = '/' :: more := behind
      rw [read]
      exact onFirst_words ['/', '/'] nofun (by decide) fun _ => rfl
    · obtain ⟨rest, read, meets⟩ := meets_sign.mp (meets_inTurn_cons.mp meets)
      rw [meets_inTurn_cons, meets_either, meets_stop, meets_one] at meets
      rcases meets with ⟨ended, _trivial⟩ | ⟨c, more, behind, other, _trivial⟩
      · obtain rfl : rest = [] := ended
        rw [read]
        rfl
      · obtain rfl : rest = c :: more := behind
        rw [read]
        -- The character behind `#` ends the word, or belongs to it and is not `[`.
        cases blank : isBlank c with
        | true =>
            rw [words_before_blank (by decide) blank]
            rfl
        | false =>
            apply onFirst_words ['#', c] (List.cons_ne_nil _ _)
            · exact List.forall_mem_cons.mpr ⟨by decide, List.forall_mem_singleton.mpr blank⟩
            · exact fun _ => other
    · obtain ⟨rest, read, meets⟩ := meets_sign.mp (meets_inTurn_cons.mp meets)
      obtain ⟨more, behind, _trivial⟩ := meets_sign.mp (meets_inTurn_cons.mp meets)
      obtain rfl : rest = '*' :: more := behind
      rw [read]
      exact onFirst_words ['/', '*'] nofun (by decide) fun _ => rfl
    · obtain ⟨rest, read, _trivial⟩ := meets_sign.mp meets
      rw [read]
      exact onFirst_words ['*'] nofun (by decide) fun _ => rfl
  complete here fresh holds := by
    obtain ⟨word, tail, split, holds, _solid, parted⟩ := first_of_fresh fresh holds
    rw [meets_inTurn_cons, meets_anyOf]
    simp only [List.mem_cons, List.not_mem_nil, or_false, exists_eq_or_imp, exists_eq_left,
      meets_inTurn_cons, meets_inTurn_nil, meets_either, meets_stop, meets_sign, meets_one]
    unfold beginsComment at holds
    split at holds
    case h_1 rest => exact .inl ⟨_, split, _, rfl, trivial⟩
    case h_2 rest => exact .inr (.inr (.inl ⟨_, split, _, rfl, trivial⟩))
    case h_3 rest => exact .inr (.inr (.inr ⟨_, split, trivial⟩))
    case h_4 =>
      refine .inr (.inl ⟨tail, split, ?_⟩)
      cases tail with
      | nil => exact .inl ⟨rfl, trivial⟩
      | cons c tail =>
          have blank : isBlank c = true := parted c rfl
          refine .inr ⟨c, tail, rfl, ?_, trivial⟩
          rw [bne_iff_ne]
          rintro rfl
          cases blank
    case h_5 c rest => exact .inr (.inl ⟨_, split, .inr ⟨c, _, rfl, holds, trivial⟩⟩)
    case h_6 => cases holds

theorem commentOpening_foundIn (line : List Char) :
    commentOpening.FoundIn line ↔ isComment line = true :=
  judges_comment.foundIn line

theorem typeOpening_foundIn (line : List Char) :
    typeOpening.FoundIn line ↔ opensType (words line) = true := by
  have kinds : Lettered ["class", "interface", "trait", "enum"] := by decide
  have kind := judges_behindKeyword kinds (judges_one (fun _ => solid_of_isWordChar)) rfl
  refine Judges.foundIn (judges_modifiers _ (by decide) kind rfl rfl ?_) line
  intro word rest
  cases rest with
  | nil => simp [opensType, behindKeyword, onFirst]
  | cons next rest => rfl

theorem spaceOpening_foundIn (line : List Char) :
    spaceOpening.FoundIn line ↔ opensSpace (words line) = true := by
  have keywords : Lettered ["namespace", "use"] := by decide
  have opening := judges_behindKeyword keywords (judges_one (fun _ => solid_of_isNameChar)) rfl
  refine Judges.foundIn (opening.congr ?_) line
  rintro (_ | ⟨word, _ | ⟨next, rest⟩⟩)
  · rfl
  · simp [opensSpace, behindKeyword, onFirst]
  · rfl

/-! ### Properties -/

theorem judges_variable :
    (inTurn [.sign '$', .one isWordChar]).Judges (onFirst beginsVariable) where
  sound here meets := by
    obtain ⟨rest, read, meets⟩ := meets_sign.mp (meets_inTurn_cons.mp meets)
    obtain ⟨c, more, behind, wordChar, _trivial⟩ := meets_one.mp (meets_inTurn_cons.mp meets)
    obtain rfl : rest = c :: more := behind
    rw [read]
    apply onFirst_words ['$', c] (List.cons_ne_nil _ _)
    · exact List.forall_mem_cons.mpr
        ⟨by decide, List.forall_mem_singleton.mpr (solid_of_isWordChar wordChar)⟩
    · exact fun _ => wordChar
  complete here fresh holds := by
    obtain ⟨word, tail, split, holds, _solid, _parted⟩ := first_of_fresh fresh holds
    unfold beginsVariable at holds
    split at holds
    case h_1 c rest =>
      rw [meets_inTurn_cons, meets_sign]
      refine ⟨_, split, meets_inTurn_cons.mpr (meets_one.mpr ⟨c, rest ++ tail, rfl, holds, ?_⟩)⟩
      exact meets_inTurn_nil.mpr trivial
    case h_2 => cases holds

def typedVariable : List (List Char) → Bool
  | [] => false
  | word :: rest => beginsVariable word || (isType word && onFirst beginsVariable rest)

theorem judges_typedVariable :
    (inTurn [.optional (.inTurn [.atLeastOne (.one isTypeChar), gap]), .sign '$',
      .one isWordChar]).Judges typedVariable where
  sound here meets := by
    rw [meets_inTurn_cons, meets_optional] at meets
    rcases meets with typed | untyped
    · obtain ⟨run, behind, read, some, typeChars, meets⟩ :=
        meets_run.mp (meets_inTurn_cons.mp typed)
      obtain ⟨between, rest, parted, isGap, meets⟩ := meets_gap.mp (meets_inTurn_cons.mp meets)
      obtain rfl : behind = between ++ rest := parted
      have solid : Solid run := fun c mem => solid_of_isTypeChar (typeChars c mem)
      have isTyped : isType run = true := List.all_eq_true.mpr typeChars
      rw [read, words_gap some solid isGap, typedVariable, isTyped, Bool.true_and, Bool.or_eq_true]
      exact .inr (judges_variable.sound _ (meets_inTurn_nil.mp meets))
    · have holds := judges_variable.sound here untyped
      cases read : words here.after with
      | nil => rw [read] at holds; cases holds
      | cons word rest =>
          rw [read] at holds
          rw [typedVariable, Bool.or_eq_true]
          exact .inl holds
  complete here fresh holds := by
    rw [meets_inTurn_cons, meets_optional]
    cases read : words here.after with
    | nil => rw [read] at holds; cases holds
    | cons word late =>
        rw [read, typedVariable, Bool.or_eq_true, Bool.and_eq_true] at holds
        rcases holds with begins | ⟨isTyped, holds⟩
        · exact .inr (judges_variable.complete here fresh (by rw [read]; exact begins))
        · obtain ⟨_tail, _split, some, _solid, _parted, _found⟩ := fresh.words_eq_cons read
          cases late with
          | nil => cases holds
          | cons next more =>
              obtain ⟨between, rest, split, isGap, freshRest, behind⟩ :=
                fresh.words_eq_cons_cons read
              left
              refine meets_inTurn_cons.mpr (meets_run.mpr ⟨word, _, split, some,
                List.all_eq_true.mp isTyped, ?_⟩)
              refine meets_inTurn_cons.mpr (meets_gap.mpr ⟨between, rest, rfl, isGap, ?_⟩)
              exact meets_inTurn_nil.mpr
                (judges_variable.complete _ freshRest (by rw [Spot.past, behind, holds]))

theorem propertyOpening_foundIn (line : List Char) :
    propertyOpening.FoundIn line ↔ opensProperty (words line) = true := by
  have modifiers : Lettered ["public", "protected", "private", "static", "var", "readonly"] := by
    decide
  have continued := judges_modifiers continuesProperty modifiers judges_typedVariable rfl rfl
    (fun _ _ => rfl)
  have opening := judges_behindKeyword modifiers continued rfl
  exact Judges.foundIn (opening.of_meets fun _ => meets_rounds) line

/-! ### Functions -/

/-- The words behind a function's keyword: what is left of the first of them begins with a name, and
a parenthesis follows the name there or opens the next word. -/
def opensParameters (bare : List Char) (rest : List (List Char)) : Bool :=
  !(bare.takeWhile isWordChar).isEmpty &&
    match bare.dropWhile isWordChar with
    | c :: _ => c == '('
    | [] => (rest.head?.map (fun next => next.head? == some '(')).getD false

theorem namesFunction_reference (bare : List Char) (rest : List (List Char)) :
    namesFunction (('&' :: bare) :: rest) = opensParameters bare rest :=
  rfl

theorem namesFunction_plain {word : List Char} (plain : ∀ more, word = '&' :: more → False)
    (rest : List (List Char)) : namesFunction (word :: rest) = opensParameters word rest :=
  namesFunction.eq_3 word rest plain

theorem opensParameters_iff {bare : List Char} {rest : List (List Char)} :
    opensParameters bare rest = true ↔
      ∃ name after, bare = name ++ after ∧ name ≠ [] ∧ (∀ c ∈ name, isWordChar c = true) ∧
        ((∃ more, after = '(' :: more) ∨
          after = [] ∧ ∃ more late, rest = ('(' :: more) :: late) := by
  constructor
  · intro opens
    rw [opensParameters, Bool.and_eq_true, Bool.not_eq_true', List.isEmpty_eq_false_iff] at opens
    refine ⟨bare.takeWhile isWordChar, bare.dropWhile isWordChar,
      List.takeWhile_append_dropWhile.symm, opens.1, fun c mem => List.mem_takeWhile_imp mem, ?_⟩
    cases after : bare.dropWhile isWordChar with
    | cons c more =>
        rw [after] at opens
        exact .inl ⟨more, by rw [beq_iff_eq.mp opens.2]⟩
    | nil =>
        rw [after] at opens
        refine .inr ⟨rfl, ?_⟩
        rcases rest with _ | ⟨_ | ⟨c, letters⟩, late⟩
        · cases opens.2
        · cases opens.2
        · have same : c = '(' := by simpa using opens.2
          exact ⟨letters, late, by rw [same]⟩
  · rintro ⟨name, after, rfl, some, wordChars, opens⟩
    rw [opensParameters, List.takeWhile_append_of_pos wordChars,
      List.dropWhile_append_of_pos wordChars]
    have named : (name ++ after.takeWhile isWordChar).isEmpty = false :=
      List.isEmpty_eq_false_iff.mpr (List.append_ne_nil_of_left_ne_nil some _)
    rw [named, Bool.not_false, Bool.true_and]
    have sign : isWordChar '(' = false := by decide
    rcases opens with ⟨more, rfl⟩ | ⟨rfl, more, late, rfl⟩
    · rw [List.dropWhile_cons_of_neg (by simp [sign])]
      rfl
    · rfl

/-- A name and its parenthesis at the beginning of a text, whatever blanks stand between them. -/
theorem meets_parameters {here : Spot} :
    (inTurn [.atLeastOne (.one isWordChar), blanks, .sign '(']).Meets (fun _ => True) here ↔
      ∃ name lead more, here.after = name ++ (lead ++ '(' :: more) ∧ name ≠ [] ∧
        (∀ c ∈ name, isWordChar c = true) ∧ Blanks lead := by
  simp only [meets_inTurn_cons, meets_run, meets_blanks, meets_sign, meets_inTurn_nil]
  constructor
  · rintro ⟨name, behind, read, some, wordChars, lead, rest, parted, blank, more, opens, _trivial⟩
    obtain rfl : behind = lead ++ rest := parted
    obtain rfl : rest = '(' :: more := opens
    exact ⟨name, lead, more, read, some, wordChars, blank⟩
  · rintro ⟨name, lead, more, read, some, wordChars, blank⟩
    exact ⟨name, _, read, some, wordChars, lead, _, rfl, blank, more, rfl, trivial⟩

/-- The words of a name and its parenthesis, perhaps behind the sign of a reference. -/
theorem words_parameters (reference : List Char) {name lead : List Char}
    (solid : Solid reference) (some : name ≠ []) (wordChars : ∀ c ∈ name, isWordChar c = true)
    (blank : Blanks lead) (more : List Char) : ∃ bare rest,
      words (reference ++ (name ++ (lead ++ '(' :: more))) = (reference ++ bare) :: rest ∧
        opensParameters bare rest = true ∧ ∃ letters, bare = name ++ letters := by
  have nameSolid : Solid (reference ++ name) :=
    List.forall_mem_append.mpr ⟨solid, fun c mem => solid_of_isWordChar (wordChars c mem)⟩
  have named : reference ++ name ≠ [] := List.append_ne_nil_of_right_ne_nil _ some
  have opening : Solid ['('] := by decide
  cases lead with
  | nil =>
      have opened : Solid (reference ++ name ++ ['(']) :=
        List.forall_mem_append.mpr ⟨nameSolid, opening⟩
      obtain ⟨letters, tail, rfl, _solid, _parted, read⟩ :=
        words_solid_append (List.append_ne_nil_of_left_ne_nil named _) opened more
      refine ⟨name ++ '(' :: letters, words tail, ?_, ?_, _, rfl⟩
      · simpa using read
      · exact opensParameters_iff.mpr ⟨name, _, rfl, some, wordChars, .inl ⟨letters, rfl⟩⟩
  | cons c lead =>
      obtain ⟨letters, tail, rfl, _solid, _parted, read⟩ :=
        words_solid_append (List.cons_ne_nil _ _) opening more
      refine ⟨name, words ('(' :: (letters ++ tail)), ?_, ?_, [], (List.append_nil _).symm⟩
      · rw [← List.append_assoc]
        exact words_gap named nameSolid ⟨List.cons_ne_nil c lead, blank⟩ _
      · refine opensParameters_iff.mpr ⟨name, [], (List.append_nil _).symm, some, wordChars,
          .inr ⟨rfl, letters, words tail, read⟩⟩

theorem judges_named :
    (inTurn [.optional (.sign '&'), .atLeastOne (.one isWordChar), blanks, .sign '(']).Judges
      namesFunction where
  sound here meets := by
    rw [meets_inTurn_cons, meets_optional, meets_sign] at meets
    rcases meets with ⟨rest, read, meets⟩ | meets
    · obtain ⟨name, lead, more, behind, some, wordChars, blank⟩ := meets_parameters.mp meets
      obtain ⟨bare, late, found, opens, _name⟩ :=
        words_parameters ['&'] (by decide) some wordChars blank more
      obtain rfl : rest = name ++ (lead ++ '(' :: more) := behind
      rw [List.singleton_append] at found
      rw [read, found]
      exact (namesFunction_reference bare late).trans opens
    · obtain ⟨name, lead, more, read, some, wordChars, blank⟩ := meets_parameters.mp meets
      obtain ⟨bare, late, found, opens, letters, rfl⟩ :=
        words_parameters [] (by decide) some wordChars blank more
      -- no name begins with the sign of a reference
      have plain : ∀ more, name ++ letters = '&' :: more → False := by
        intro more same
        obtain ⟨c, others, rfl⟩ := List.exists_cons_of_ne_nil some
        cases same
        have wordChar := wordChars '&' List.mem_cons_self
        revert wordChar
        decide
      rw [List.nil_append] at found
      rw [read, found, List.nil_append, namesFunction_plain plain]
      exact opens
  complete here fresh holds := by
    rw [meets_inTurn_cons, meets_optional, meets_sign]
    cases read : words here.after with
    | nil => rw [read] at holds; cases holds
    | cons word late =>
        rw [read] at holds
        obtain ⟨tail, split, _some, _solid, parted, found⟩ := fresh.words_eq_cons read
        have named : ∀ bare, opensParameters bare late = true → ∀ spot : Spot,
            spot.after = bare ++ tail →
            (inTurn [.atLeastOne (.one isWordChar), blanks, .sign '(']).Meets
              (fun _ => True) spot := by
          intro bare opens spot behind
          obtain ⟨name, after, rfl, some, wordChars, opens⟩ := opensParameters_iff.mp opens
          rw [meets_parameters, behind]
          rcases opens with ⟨more, rfl⟩ | ⟨rfl, letters, others, rfl⟩
          · refine ⟨name, [], more ++ tail, ?_, some, wordChars, List.forall_mem_nil _⟩
            rw [List.append_assoc, List.cons_append, List.nil_append]
          · obtain ⟨between, rest, rfl, isGap, freshRest, behind⟩ := parted.gap found
            obtain ⟨final, rfl, _opened⟩ := freshRest.words_eq_cons behind
            refine ⟨name, between, letters ++ final, ?_, some, wordChars, isGap.blanks⟩
            rw [List.append_nil, List.cons_append]
        by_cases reference : ∃ more, word = '&' :: more
        · obtain ⟨more, rfl⟩ := reference
          rw [namesFunction_reference] at holds
          exact .inl ⟨more ++ tail, split, named more holds _ rfl⟩
        · rw [namesFunction_plain fun more same => reference ⟨more, same⟩] at holds
          exact .inr (named word holds here split)

/-! ### Searching a line -/

theorem endsWith_iff {word : String} {letters : List Char} : endsWith word letters = true ↔
    ∃ start run, letters = start ++ run ∧ isOneOf [word] run = true ∧
      ∀ c ∈ start.getLast?, isWordChar c = false := by
  have alone : ∀ start : List Char, (start.getLast?.map (fun c => !isWordChar c)).getD true = true ↔
      ∀ c ∈ start.getLast?, isWordChar c = false := by
    intro start
    cases start.getLast? with
    | none => simp
    | some c => simp
  unfold endsWith
  dsimp only
  rw [Bool.and_eq_true, alone]
  constructor
  · rintro ⟨keyword, apart⟩
    exact ⟨_, _, (List.take_append_drop _ letters).symm, keyword, apart⟩
  · rintro ⟨start, run, rfl, keyword, apart⟩
    have same : word.length = run.length := by
      have folded : word.toList = run.map foldedChar := by simpa [isOneOf] using keyword
      rw [← String.length_toList, folded, List.length_map]
    have split : (start ++ run).length - word.length = start.length := by
      rw [same, List.length_append, Nat.add_sub_cancel]
    rw [split, List.drop_left, List.take_left]
    exact ⟨keyword, apart⟩

theorem endsWith_any {list : List String} {letters : List Char} :
    (∃ word ∈ list, endsWith word letters = true) ↔
      ∃ start run, letters = start ++ run ∧ isOneOf list run = true ∧
        ∀ c ∈ start.getLast?, isWordChar c = false := by
  simp only [endsWith_iff, isOneOf, List.any_cons, List.any_nil, Bool.or_false, List.any_eq_true]
  constructor
  · rintro ⟨word, mem, start, run, split, keyword, apart⟩
    exact ⟨start, run, split, ⟨word, mem, keyword⟩, apart⟩
  · rintro ⟨start, run, split, ⟨word, mem, keyword⟩, apart⟩
    exact ⟨word, mem, start, run, split, keyword, apart⟩

/-- A search that looks at one word after another. -/
theorem searched (search : List (List Char) → Bool)
    {test : List Char → List (List Char) → Bool} (none : search [] = false)
    (next : ∀ word late, search (word :: late) = (test word late || search late))
    {list : List (List Char)} : search list = true ↔
      ∃ early word late, list = early ++ word :: late ∧ test word late = true := by
  induction list with
  | nil => simp [none]
  | cons first rest ih =>
      rw [next, Bool.or_eq_true, ih]
      constructor
      · rintro (here | ⟨early, word, late, rfl, found⟩)
        · exact ⟨[], first, rest, rfl, here⟩
        · exact ⟨first :: early, word, late, rfl, found⟩
      · rintro ⟨early, word, late, split, found⟩
        cases early with
        | nil => cases split; exact .inl found
        | cons other early => cases split; exact .inr ⟨early, word, late, rfl, found⟩

section Search

variable {patterns : List Pattern} {test : List (List Char) → Bool} {list : List String}

theorem isEdge_iff {here : Spot} {c : Char} {rest : List Char} (read : here.after = c :: rest)
    (wordChar : isWordChar c = true) :
    here.IsEdge ↔ ∀ d ∈ here.before.head?, isWordChar d = false := by
  rw [Spot.IsEdge, read, List.head?_cons, Option.any_some, wordChar]
  cases here.before.head? with
  | none => simp
  | some d => simp

/-- A keyword that begins at the edge of a word, with what comes behind it, is found if the words
have one that ends with the keyword and what comes behind it. -/
theorem foundIn_edge (lettered : Lettered list) (judges : (inTurn patterns).Judges test)
    (needs : test [] = false) (line : List Char) :
    (inTurn (.edge :: keywords list :: gap :: patterns)).FoundIn line ↔
      ∃ early word late, words line = early ++ word :: late ∧
        (∃ keyword ∈ list, endsWith keyword word = true) ∧ test late = true := by
  simp only [endsWith_any]
  constructor
  · rintro ⟨here, there, rfl, led⟩
    have meets :
        (inTurn (.edge :: keywords list :: gap :: patterns)).Meets (fun _ => True) here :=
      ⟨there, led, trivial⟩
    rw [meets_inTurn_cons, meets_edge] at meets
    obtain ⟨isEdge, meets⟩ := meets
    obtain ⟨run, between, rest, read, keyword, isGap, meets⟩ := meets_keywordGap.mp meets
    obtain ⟨some, wordChars⟩ := lettered.isWordChar keyword
    obtain ⟨c, letters, rfl⟩ := List.exists_cons_of_ne_nil some
    have apart := (isEdge_iff read (wordChars c List.mem_cons_self)).mp isEdge
    obtain ⟨early, start, last, ends⟩ :=
      words_append_solid some (lettered.solid keyword).2 here.before.reverse
    refine ⟨early, start ++ c :: letters, words rest, ?_, ⟨start, _, rfl, keyword, ?_⟩,
      judges.sound _ meets⟩
    · rw [read, ← List.append_assoc, words_append_gap isGap, last, List.append_assoc,
        List.singleton_append]
    · intro d atEnd
      have before := ends d atEnd
      rw [List.getLast?_reverse] at before
      exact apart d before
  · rintro ⟨early, word, late, read, ⟨start, run, rfl, keyword, apart⟩, holds⟩
    obtain ⟨left, tail, rfl, ended, _some, _solid, parted, found⟩ := words_eq_append_cons read
    cases late with
    | nil => rw [needs] at holds; cases holds
    | cons next more =>
        obtain ⟨between, rest, rfl, isGap, fresh, behind⟩ := parted.gap found
        obtain ⟨some, wordChars⟩ := lettered.isWordChar keyword
        have meets : (inTurn (.edge :: keywords list :: gap :: patterns)).Meets (fun _ => True)
            ⟨(left ++ start).reverse, run ++ (between ++ rest)⟩ := by
          rw [meets_inTurn_cons, meets_edge]
          refine ⟨?_, meets_keywordGap.mpr ⟨run, between, rest, rfl, keyword, isGap, ?_⟩⟩
          · -- The keyword may begin within a word, if not behind a word character.
            obtain ⟨c, letters, rfl⟩ := List.exists_cons_of_ne_nil some
            rw [isEdge_iff rfl (wordChars c List.mem_cons_self), List.head?_reverse]
            intro d atEnd
            cases start with
            | nil =>
                rw [List.append_nil] at atEnd
                have blank := ended d atEnd
                cases wordChar : isWordChar d with
                | false => rfl
                | true =>
                    rw [solid_of_isWordChar wordChar] at blank
                    cases blank
            | cons first start =>
                rw [List.getLast?_append_of_ne_nil _ (List.cons_ne_nil _ _)] at atEnd
                exact apart d atEnd
          · exact judges.complete _ fresh (by rw [Spot.past, behind, holds])
        obtain ⟨there, led, _trivial⟩ := meets
        refine ⟨_, there, ?_, led⟩
        rw [List.reverse_reverse, List.append_assoc, List.append_assoc]

end Search

theorem hierarchyClause_foundIn (line : List Char) :
    hierarchyClause.FoundIn line ↔ statesHierarchy (words line) = true := by
  have name := judges_one (fun _ => solid_of_isNameChar)
  have keywords : Lettered ["extends", "implements"] := by decide
  rw [searched statesHierarchy rfl (fun _ _ => rfl)]
  simp only [hierarchyClause, foundIn_edge keywords name rfl,
    List.mem_cons, List.not_mem_nil, or_false, exists_eq_or_imp, exists_eq_left, Bool.and_eq_true,
    Bool.or_eq_true]
  rfl

theorem functionOpening_foundIn (line : List Char) :
    functionOpening.FoundIn line ↔ opensFunction (words line) = true := by
  have keyword : Lettered ["function"] := by decide
  rw [searched opensFunction rfl (fun _ _ => rfl)]
  simp only [functionOpening, foundIn_edge keyword judges_named rfl,
    List.mem_cons, List.not_mem_nil, or_false, exists_eq_left, Bool.and_eq_true]

/-! ### Labels -/

theorem isDeclaration_foundIn (line : List Char) :
    isDeclaration line = true ↔ ∃ pattern ∈ declarationPatterns, pattern.FoundIn line := by
  simp only [declarationPatterns, List.mem_cons, List.not_mem_nil, or_false, exists_eq_or_imp,
    exists_eq_left, typeOpening_foundIn, functionOpening_foundIn, propertyOpening_foundIn,
    spaceOpening_foundIn, hierarchyClause_foundIn, isDeclaration, declares, Bool.or_eq_true,
    or_assoc]

/-- Lines of the same words have the same labels, and the same patterns are found in them. -/
structure Alike (line other : List Char) : Prop where
  comment : isComment other = isComment line
  declaration : isDeclaration other = isDeclaration line
  patterns : ∀ pattern ∈ commentOpening :: declarationPatterns,
    pattern.FoundIn other ↔ pattern.FoundIn line

theorem alike_of_words {line other : List Char} (same : words other = words line) :
    Alike line other where
  comment := by rw [isComment, isComment, same]
  declaration := by rw [isDeclaration, isDeclaration, same]
  patterns := by
    simp only [declarationPatterns, List.forall_mem_cons, List.not_mem_nil, false_implies,
      implies_true, and_true, commentOpening_foundIn, typeOpening_foundIn, functionOpening_foundIn,
      propertyOpening_foundIn, spaceOpening_foundIn, hierarchyClause_foundIn, isComment, same]

/-- The labels of a line say which patterns are found in it. They are those of the line without its
layout, and stay when the line is indented or blanks come behind it; so does what each pattern
finds. -/
theorem labels_ignore_layout (line : List Char) :
    (isComment line = true ↔ commentOpening.FoundIn line) ∧
    (isDeclaration line = true ↔ ∃ pattern ∈ declarationPatterns, pattern.FoundIn line) ∧
    Alike line (collapse line) ∧
    ∀ lead tail : List Char, Blanks lead → Blanks tail → Alike line (lead ++ (line ++ tail)) := by
  refine ⟨(commentOpening_foundIn line).symm, isDeclaration_foundIn line,
    alike_of_words (words_collapse line), ?_⟩
  intro lead tail blank blank'
  apply alike_of_words
  rw [words_blanks_append blank, words_append_blanks blank']

/-- A property whose declaration is indented with a tab and ends with its line. -/
theorem labels_ignore_layout_of_indented :
    Blanks "\t".toList ∧ Blanks " \r\n".toList ∧
      isDeclaration "private ?Cart  $cart;".toList = true ∧
      isDeclaration ("\t".toList ++ ("private ?Cart  $cart;".toList ++ " \r\n".toList)) = true ∧
      (propertyOpening ∈ commentOpening :: declarationPatterns ∧
        propertyOpening.FoundIn (collapse "private ?Cart  $cart;".toList)) := by
  have lead : Blanks "\t".toList := by decide +kernel
  have tail : Blanks " \r\n".toList := by decide +kernel
  have declared : isDeclaration "private ?Cart  $cart;".toList = true := by decide +kernel
  have mem : propertyOpening ∈ commentOpening :: declarationPatterns :=
    .tail _ (.tail _ (.tail _ (.head _)))
  obtain ⟨_comment, _declaration, collapsed, around⟩ :=
    labels_ignore_layout "private ?Cart  $cart;".toList
  refine ⟨lead, tail, declared, (around _ _ lead tail).declaration.trans declared, mem, ?_⟩
  exact (collapsed.patterns propertyOpening mem).mpr
    ((propertyOpening_foundIn _).mpr (by decide +kernel))

end DocDrift.LineKind
