import DocDrift.Proofs.Text.Words
import Mathlib.Data.List.Induction
import Mathlib.Data.List.TakeWhile

/-!
Where words stand in a text. A text of blanks has no words; any other begins with blanks, a word and
what does not go on with that word, and the words behind the first are those of that rest.
-/

set_option autoImplicit false

namespace DocDrift.Text

def Blanks (text : List Char) : Prop :=
  ∀ c ∈ text, isBlank c = true

instance (text : List Char) : Decidable (Blanks text) :=
  List.decidableBAll (fun c => isBlank c = true) text

/-- No blank at all. -/
def Solid (text : List Char) : Prop :=
  ∀ c ∈ text, isBlank c = false

instance (text : List Char) : Decidable (Solid text) :=
  List.decidableBAll (fun c => isBlank c = false) text

/-- A word that ends here does not go on: the text is over or a blank follows. -/
def Parted (text : List Char) : Prop :=
  ∀ c ∈ text.head?, isBlank c = true

theorem blanks_cons {c : Char} {rest : List Char} :
    Blanks (c :: rest) ↔ isBlank c = true ∧ Blanks rest :=
  List.forall_mem_cons

theorem words_blanks_append {lead : List Char} (blanks : Blanks lead) (text : List Char) :
    words (lead ++ text) = words text := by
  induction lead with
  | nil => rfl
  | cons c rest ih =>
      obtain ⟨blank, blanks⟩ := blanks_cons.mp blanks
      rw [List.cons_append, words_blank blank, ih blanks]

theorem words_append_blanks {tail : List Char} (blanks : Blanks tail) (text : List Char) :
    words (text ++ tail) = words text := by
  cases tail with
  | nil => rw [List.append_nil]
  | cons c rest =>
      obtain ⟨blank, blanks⟩ := blanks_cons.mp blanks
      have none := words_blanks_append blanks []
      rw [List.append_nil] at none
      rw [words_append_blank blank, none, words_nil, List.append_nil]

/-- A word comes before the words of what does not go on with it. -/
theorem words_append_parted {word tail : List Char} (some : word ≠ []) (solid : Solid word)
    (parted : Parted tail) : words (word ++ tail) = word :: words tail := by
  cases tail with
  | nil => rw [List.append_nil, words_of_solid some solid, words_nil]
  | cons c rest =>
      have blank : isBlank c = true := parted c rfl
      rw [words_append_blank blank, words_of_solid some solid, words_blank blank,
        List.singleton_append]

/-- A text that begins without blanks goes on with that word until it is over. -/
theorem words_solid_append {start : List Char} (some : start ≠ []) (solid : Solid start)
    (rest : List Char) :
    ∃ more tail, rest = more ++ tail ∧ Solid (start ++ more) ∧ Parted tail ∧
      words (start ++ rest) = (start ++ more) :: words tail := by
  have split : rest =
      rest.takeWhile (fun c => !isBlank c) ++ rest.dropWhile (fun c => !isBlank c) :=
    List.takeWhile_append_dropWhile.symm
  have whole : Solid (start ++ rest.takeWhile (fun c => !isBlank c)) := by
    intro c mem
    rcases List.mem_append.mp mem with early | late
    · exact solid c early
    · simpa using List.mem_takeWhile_imp late
  have parted : Parted (rest.dropWhile (fun c => !isBlank c)) := by
    intro c first
    have stopped := List.head?_dropWhile_not (fun c => !isBlank c) rest
    rw [Option.mem_def.mp first] at stopped
    simpa using stopped
  refine ⟨_, _, split, whole, parted, ?_⟩
  rw [← words_append_parted (List.append_ne_nil_of_left_ne_nil some _) whole parted,
    List.append_assoc, ← split]

theorem words_eq_nil {text : List Char} : words text = [] ↔ Blanks text := by
  constructor
  · intro none
    induction text with
    | nil => exact List.forall_mem_nil _
    | cons c rest ih =>
        cases first : isBlank c with
        | true =>
            rw [words_blank first] at none
            exact blanks_cons.mpr ⟨first, ih none⟩
        | false => exact absurd none (words_ne_nil first rest)
  · intro blanks
    have none := words_blanks_append blanks []
    rwa [List.append_nil] at none

theorem collapse_eq_nil {text : List Char} : collapse text = [] ↔ words text = [] := by
  constructor
  · intro none
    rw [← words_collapse, none, words_nil]
  · intro none
    rw [collapse, none]
    rfl

theorem trim_eq_nil {text : List Char} : trim text = [] ↔ words text = [] := by
  rw [trim, trimEnd, List.reverse_eq_nil_iff, List.dropWhile_eq_nil_iff, words_eq_nil]
  simp only [List.mem_reverse]
  constructor
  · intro blank
    have none : trimStart text = [] := by
      cases start : trimStart text with
      | nil => rfl
      | cons c rest =>
          have solid := List.head?_dropWhile_not isBlank text
          rw [← trimStart, start] at solid
          have first := blank c (start ▸ List.mem_cons_self)
          simp [first] at solid
    exact List.dropWhile_eq_nil_iff.mp none
  · intro blanks c mem
    exact blanks c (List.dropWhile_suffix _ |>.subset mem)

/-- The first word of a text with its place: blanks come before it, and it does not go on. -/
theorem words_eq_cons {text word : List Char} {rest : List (List Char)} :
    words text = word :: rest ↔
      ∃ lead tail, text = lead ++ (word ++ tail) ∧ Blanks lead ∧ word ≠ [] ∧ Solid word ∧
        Parted tail ∧ words tail = rest := by
  constructor
  · intro read
    induction text with
    | nil => cases read
    | cons c text ih =>
        cases first : isBlank c with
        | true =>
            rw [words_blank first] at read
            obtain ⟨lead, tail, rfl, blanks, found⟩ := ih read
            exact ⟨c :: lead, tail, rfl, blanks_cons.mpr ⟨first, blanks⟩, found⟩
        | false =>
            have alone : Solid [c] := fun d mem => List.mem_singleton.mp mem ▸ first
            obtain ⟨more, tail, rfl, solid, parted, found⟩ :=
              words_solid_append (List.cons_ne_nil c []) alone text
            rw [List.singleton_append] at found
            rw [found] at read
            cases read
            exact ⟨[], tail, rfl, List.forall_mem_nil _, List.cons_ne_nil _ _, solid, parted,
              rfl⟩
  · rintro ⟨lead, tail, rfl, blanks, some, solid, parted, rfl⟩
    rw [words_blanks_append blanks, words_append_parted some solid parted]

/-! ### Gaps -/

/-- Blanks between two words. -/
structure Gap (text : List Char) : Prop where
  some : text ≠ []
  blanks : Blanks text

/-- A text that does not begin with a blank. -/
def Fresh (text : List Char) : Prop :=
  ∀ c ∈ text.head?, isBlank c = false

theorem words_append_gap {gap : List Char} (isGap : Gap gap) (text more : List Char) :
    words (text ++ (gap ++ more)) = words text ++ words more := by
  obtain ⟨some, blanks⟩ := isGap
  cases gap with
  | nil => exact absurd rfl some
  | cons c rest =>
      obtain ⟨blank, blanks⟩ := blanks_cons.mp blanks
      rw [List.cons_append, words_append_blank blank, words_blanks_append blanks]

theorem words_gap {word gap : List Char} (some : word ≠ []) (solid : Solid word) (isGap : Gap gap)
    (more : List Char) : words (word ++ (gap ++ more)) = word :: words more := by
  rw [words_append_gap isGap, words_of_solid some solid, List.singleton_append]

/-- A text is its leading blanks and what comes behind them. -/
theorem blanks_fresh (text : List Char) :
    ∃ lead rest, text = lead ++ rest ∧ Blanks lead ∧ Fresh rest := by
  refine ⟨text.takeWhile isBlank, text.dropWhile isBlank,
    List.takeWhile_append_dropWhile.symm, fun c mem => List.mem_takeWhile_imp mem, ?_⟩
  intro c first
  have stopped := List.head?_dropWhile_not isBlank text
  rw [Option.mem_def.mp first] at stopped
  simpa using stopped

theorem Fresh.words_eq_cons {text word : List Char} {rest : List (List Char)} (fresh : Fresh text)
    (read : words text = word :: rest) :
    ∃ tail, text = word ++ tail ∧ word ≠ [] ∧ Solid word ∧ Parted tail ∧ words tail = rest := by
  obtain ⟨lead, tail, rfl, blanks, found⟩ := Text.words_eq_cons.mp read
  cases lead with
  | nil => exact ⟨tail, rfl, found⟩
  | cons c lead =>
      have solid : isBlank c = false := fresh c rfl
      rw [(blanks_cons.mp blanks).1] at solid
      cases solid

/-- What comes behind a word, if there are words: a gap, and a text that begins with them. -/
theorem Parted.gap {tail next : List Char} {more : List (List Char)} (parted : Parted tail)
    (read : words tail = next :: more) :
    ∃ gap rest, tail = gap ++ rest ∧ Gap gap ∧ Fresh rest ∧ words rest = next :: more := by
  obtain ⟨lead, rest, rfl, blanks, fresh⟩ := blanks_fresh tail
  rw [words_blanks_append blanks] at read
  refine ⟨lead, rest, rfl, ⟨?_, blanks⟩, fresh, read⟩
  rintro rfl
  obtain ⟨tail, rfl, some, solid, _parted, _read⟩ := fresh.words_eq_cons read
  obtain ⟨c, word, rfl⟩ := List.exists_cons_of_ne_nil some
  have blank : isBlank c = true := parted c rfl
  rw [solid c List.mem_cons_self] at blank
  cases blank

/-- A text that begins with a word and has another one behind it. -/
theorem Fresh.words_eq_cons_cons {text word next : List Char} {more : List (List Char)}
    (fresh : Fresh text) (read : words text = word :: next :: more) :
    ∃ gap rest, text = word ++ (gap ++ rest) ∧ Gap gap ∧ Fresh rest ∧
      words rest = next :: more := by
  obtain ⟨tail, split, _some, _solid, parted, found⟩ := fresh.words_eq_cons read
  obtain ⟨gap, rest, rfl, isGap, freshRest, behind⟩ := parted.gap found
  exact ⟨gap, rest, split, isGap, freshRest, behind⟩

/-! ### Words among others -/

/-- The last word of a text that ends without blanks: what stands in front of the end may belong to
it. -/
theorem words_append_solid {last : List Char} (some : last ≠ []) (solid : Solid last)
    (text : List Char) :
    ∃ early start, words (text ++ last) = early ++ [start ++ last] ∧
      ∀ c ∈ start.getLast?, c ∈ text.getLast? := by
  induction text using List.reverseRecOn generalizing last with
  | nil => exact ⟨[], [], words_of_solid some solid, fun _ mem => nomatch mem⟩
  | append_singleton rest c ih =>
      rw [List.append_assoc, List.singleton_append, List.getLast?_concat]
      cases first : isBlank c with
      | true =>
          refine ⟨words rest, [], ?_, fun _ mem => nomatch mem⟩
          rw [words_append_blank first, words_of_solid some solid, List.nil_append]
      | false =>
          have longer : Solid (c :: last) := List.forall_mem_cons.mpr ⟨first, solid⟩
          obtain ⟨early, start, read, _ends⟩ := ih (List.cons_ne_nil c last) longer
          refine ⟨early, start ++ [c], ?_, ?_⟩
          · rw [read, List.append_assoc, List.singleton_append]
          · rw [List.getLast?_concat]
            exact fun _ mem => mem

/-- A word among the words of a text, with its place: what comes before it is over. -/
theorem words_eq_append_cons {text word : List Char} {early late : List (List Char)}
    (read : words text = early ++ word :: late) :
    ∃ left tail, text = left ++ (word ++ tail) ∧ (∀ c ∈ left.getLast?, isBlank c = true) ∧
      word ≠ [] ∧ Solid word ∧ Parted tail ∧ words tail = late := by
  induction early generalizing text with
  | nil =>
      obtain ⟨lead, tail, rfl, blanks, found⟩ := words_eq_cons.mp read
      exact ⟨lead, tail, rfl, fun c last => blanks c (List.mem_of_getLast? last), found⟩
  | cons first early ih =>
      obtain ⟨lead, rest, rfl, _blanks, _some, _solid, parted, behind⟩ := words_eq_cons.mp read
      obtain ⟨left, tail, rfl, ended, some, solid, found⟩ := ih behind
      -- the first word does not go on, so something stands between it and the other one
      have between : left ≠ [] := by
        rintro rfl
        obtain ⟨c, letters, rfl⟩ := List.exists_cons_of_ne_nil some
        have blank : isBlank c = true := parted c rfl
        rw [solid c List.mem_cons_self] at blank
        cases blank
      refine ⟨lead ++ (first ++ left), tail, ?_, ?_, some, solid, found⟩
      · rw [List.append_assoc, List.append_assoc]
      · rw [List.getLast?_append_of_ne_nil _ (List.append_ne_nil_of_right_ne_nil first between),
          List.getLast?_append_of_ne_nil _ between]
        exact ended

end DocDrift.Text
