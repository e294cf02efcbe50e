import DocDrift.Proofs.Text.Splits
import DocDrift.Text.WordChar
import Mathlib.Logic.Relation

/-!
Patterns that texts are searched for: single characters, sequences, alternatives and repetitions,
the two ends of a text and the edges of its words. A pattern leads from one spot of a text to
others; it is found in a text if it leads anywhere from some spot.
-/

set_option autoImplicit false

namespace DocDrift.Text

/-- A spot in a text: what comes before it, the nearest first, and what comes behind it. -/
structure Spot where
  before : List Char
  after : List Char

namespace Spot

/-- The spot behind the next part of the text, with what is left. -/
def past (spot : Spot) (part rest : List Char) : Spot :=
  ⟨part.reverse ++ spot.before, rest⟩

/-- Whether exactly one of the characters around the spot is one of words. -/
def IsEdge (spot : Spot) : Prop :=
  spot.before.head?.any isWordChar ≠ spot.after.head?.any isWordChar

end Spot

inductive Pattern
  /-- Nothing at all. -/
  | nothing
  /-- The start of the text. -/
  | start
  /-- The end of the text. -/
  | stop
  /-- The edge of a word. -/
  | edge
  /-- One character out of a class. -/
  | one (accepts : Char → Bool)
  | both (first second : Pattern)
  | either (left right : Pattern)
  /-- Any number of times, also none. -/
  | many (pattern : Pattern)

namespace Pattern

/-! ### What patterns lead to -/

/-- The spots to which a pattern leads from a spot. -/
def Leads : Pattern → Spot → Spot → Prop
  | .nothing => fun here there => there = here
  | .start => fun here there => there = here ∧ here.before = []
  | .stop => fun here there => there = here ∧ here.after = []
  | .edge => fun here there => there = here ∧ here.IsEdge
  | .one accepts => fun here there =>
      ∃ c rest, here.after = c :: rest ∧ accepts c = true ∧ there = here.past [c] rest
  | .both first second => fun here there => ∃ spot, first.Leads here spot ∧ second.Leads spot there
  | .either left right => fun here there => left.Leads here there ∨ right.Leads here there
  | .many pattern => Relation.ReflTransGen pattern.Leads

/-- A pattern is found in a text: it leads somewhere from some spot. -/
def FoundIn (pattern : Pattern) (text : List Char) : Prop :=
  ∃ here there : Spot, here.before.reverse ++ here.after = text ∧ pattern.Leads here there

/-- A pattern leads from a spot to one where something holds. -/
def Meets (pattern : Pattern) (holds : Spot → Prop) (here : Spot) : Prop :=
  ∃ there, pattern.Leads here there ∧ holds there

section Meets

variable {holds : Spot → Prop} {here : Spot} {accepts : Char → Bool} {first second : Pattern}

theorem meets_congr {pattern : Pattern} {held : Spot → Prop}
    (same : ∀ spot, holds spot ↔ held spot) : pattern.Meets holds here ↔ pattern.Meets held here :=
  exists_congr fun spot => and_congr_right fun _ => same spot

@[simp]
theorem meets_nothing : nothing.Meets holds here ↔ holds here := by
  simp [Meets, Leads]

@[simp]
theorem meets_start : start.Meets holds here ↔ here.before = [] ∧ holds here := by
  simp [Meets, Leads]

@[simp]
theorem meets_stop : stop.Meets holds here ↔ here.after = [] ∧ holds here := by
  simp [Meets, Leads]

@[simp]
theorem meets_edge : edge.Meets holds here ↔ here.IsEdge ∧ holds here := by
  simp [Meets, Leads]

theorem meets_one : (one accepts).Meets holds here ↔
    ∃ c rest, here.after = c :: rest ∧ accepts c = true ∧ holds (here.past [c] rest) := by
  constructor
  · rintro ⟨_there, ⟨c, rest, read, accepted, rfl⟩, held⟩
    exact ⟨c, rest, read, accepted, held⟩
  · rintro ⟨c, rest, read, accepted, held⟩
    exact ⟨_, ⟨c, rest, read, accepted, rfl⟩, held⟩

@[simp]
theorem meets_both : (both first second).Meets holds here ↔
    first.Meets (second.Meets holds) here := by
  constructor
  · rintro ⟨there, ⟨spot, left, right⟩, held⟩
    exact ⟨spot, left, there, right, held⟩
  · rintro ⟨spot, left, there, right, held⟩
    exact ⟨there, ⟨spot, left, right⟩, held⟩

@[simp]
theorem meets_either : (either first second).Meets holds here ↔
    first.Meets holds here ∨ second.Meets holds here := by
  simp only [Meets, Leads, or_and_right, exists_or]

theorem meets_many {pattern : Pattern} : (many pattern).Meets holds here ↔
    holds here ∨ pattern.Meets ((many pattern).Meets holds) here := by
  constructor
  · rintro ⟨there, led, held⟩
    rcases Relation.ReflTransGen.cases_head led with rfl | ⟨spot, step, rest⟩
    · exact .inl held
    · exact .inr ⟨spot, step, there, rest, held⟩
  · rintro (held | ⟨spot, step, there, rest, held⟩)
    · exact ⟨here, .refl, held⟩
    · exact ⟨there, .head step rest, held⟩

/-- What holds at the end of a repetition and is carried back over each round holds at its start. -/
theorem meets_many_carried {pattern : Pattern} (carried : Spot → Prop)
    (last : ∀ spot, holds spot → carried spot)
    (round : ∀ spot, pattern.Meets carried spot → carried spot)
    (meets : (many pattern).Meets holds here) : carried here := by
  obtain ⟨there, led, held⟩ := meets
  induction led using Relation.ReflTransGen.head_induction_on with
  | refl => exact last there held
  | head step _rest ih => exact round _ ⟨_, step, ih⟩

/-- A repetition of one character leads past a run of such characters. -/
theorem meets_many_one : (many (one accepts)).Meets holds here ↔
    ∃ run rest, here.after = run ++ rest ∧ (∀ c ∈ run, accepts c = true) ∧
      holds (here.past run rest) := by
  constructor
  · apply meets_many_carried fun spot => ∃ run rest, spot.after = run ++ rest ∧
      (∀ c ∈ run, accepts c = true) ∧ holds (spot.past run rest)
    · intro spot held
      exact ⟨[], spot.after, rfl, List.forall_mem_nil _, held⟩
    · intro spot meets
      obtain ⟨c, rest, read, accepted, run, more, behind, all, held⟩ := meets_one.mp meets
      refine ⟨c :: run, more, ?_, List.forall_mem_cons.mpr ⟨accepted, all⟩, ?_⟩
      · rw [read, List.cons_append, ← behind]
        rfl
      · simpa [Spot.past] using held
  · rintro ⟨run, rest, read, all, held⟩
    induction run generalizing here with
    | nil =>
        obtain ⟨before, after⟩ := here
        cases read
        exact meets_many.mpr (.inl held)
    | cons c run ih =>
        obtain ⟨accepted, all⟩ := List.forall_mem_cons.mp all
        refine meets_many.mpr (.inr (meets_one.mpr ⟨c, run ++ rest, read, accepted, ?_⟩))
        apply ih rfl all
        simpa [Spot.past] using held

end Meets

/-! ### Patterns made of patterns -/

def inTurn (patterns : List Pattern) : Pattern :=
  patterns.foldr both nothing

def anyOf (patterns : List Pattern) : Pattern :=
  patterns.foldr either (one fun _ => false)

def optional (pattern : Pattern) : Pattern :=
  either pattern nothing

def atLeastOne (pattern : Pattern) : Pattern :=
  both pattern (many pattern)

def sign (c : Char) : Pattern :=
  one (· == c)

def blanks : Pattern :=
  many (one isBlank)

/-- At least one blank. -/
def gap : Pattern :=
  atLeastOne (one isBlank)

section Made

variable {holds : Spot → Prop} {here : Spot} {pattern : Pattern} {patterns : List Pattern}

@[simp]
theorem meets_inTurn_nil : (inTurn []).Meets holds here ↔ holds here :=
  meets_nothing

@[simp]
theorem meets_inTurn_cons : (inTurn (pattern :: patterns)).Meets holds here ↔
    pattern.Meets ((inTurn patterns).Meets holds) here :=
  meets_both

theorem meets_inTurn_append {more : List Pattern} :
    (inTurn (patterns ++ more)).Meets holds here ↔
      (inTurn patterns).Meets ((inTurn more).Meets holds) here := by
  induction patterns generalizing here with
  | nil => rw [List.nil_append, meets_inTurn_nil]
  | cons pattern rest ih =>
      rw [List.cons_append, meets_inTurn_cons, meets_inTurn_cons]
      exact meets_congr fun _ => ih

/-- At least one round is a round and any number of them. -/
theorem meets_rounds {more : List Pattern} :
    (inTurn (atLeastOne (inTurn patterns) :: more)).Meets holds here ↔
      (inTurn (patterns ++ many (inTurn patterns) :: more)).Meets holds here := by
  rw [meets_inTurn_append, meets_inTurn_cons, atLeastOne, meets_both]
  exact meets_congr fun _ => meets_inTurn_cons.symm

theorem meets_anyOf : (anyOf patterns).Meets holds here ↔
    ∃ pattern ∈ patterns, pattern.Meets holds here := by
  induction patterns with
  | nil => simp [anyOf, meets_one]
  | cons pattern rest ih =>
      rw [anyOf, List.foldr_cons, meets_either, List.exists_mem_cons_iff, ← ih]
      rfl

@[simp]
theorem meets_optional : (optional pattern).Meets holds here ↔
    pattern.Meets holds here ∨ holds here := by
  rw [optional, meets_either, meets_nothing]

theorem meets_sign {c : Char} : (sign c).Meets holds here ↔
    ∃ rest, here.after = c :: rest ∧ holds (here.past [c] rest) := by
  simp [sign, meets_one]

theorem meets_run {accepts : Char → Bool} : (atLeastOne (one accepts)).Meets holds here ↔
    ∃ run rest, here.after = run ++ rest ∧ run ≠ [] ∧ (∀ c ∈ run, accepts c = true) ∧
      holds (here.past run rest) := by
  rw [atLeastOne, meets_both, meets_one]
  constructor
  · rintro ⟨c, rest, read, accepted, meets⟩
    obtain ⟨run, more, behind, all, held⟩ := meets_many_one.mp meets
    refine ⟨c :: run, more, ?_, List.cons_ne_nil c run,
      List.forall_mem_cons.mpr ⟨accepted, all⟩, ?_⟩
    · rw [read, List.cons_append, ← behind]
      rfl
    · simpa [Spot.past] using held
  · rintro ⟨run, rest, read, some, all, held⟩
    obtain ⟨c, run, rfl⟩ := List.exists_cons_of_ne_nil some
    obtain ⟨accepted, all⟩ := List.forall_mem_cons.mp all
    refine ⟨c, run ++ rest, read, accepted, meets_many_one.mpr ⟨run, rest, rfl, all, ?_⟩⟩
    simpa [Spot.past] using held

theorem meets_blanks : blanks.Meets holds here ↔
    ∃ lead rest, here.after = lead ++ rest ∧ Blanks lead ∧ holds (here.past lead rest) :=
  meets_many_one

theorem meets_gap : gap.Meets holds here ↔
    ∃ between rest, here.after = between ++ rest ∧ Gap between ∧
      holds (here.past between rest) := by
  rw [gap, meets_run]
  constructor
  · rintro ⟨between, rest, read, some, blanks, held⟩
    exact ⟨between, rest, read, ⟨some, blanks⟩, held⟩
  · rintro ⟨between, rest, read, ⟨some, blanks⟩, held⟩
    exact ⟨between, rest, read, some, blanks, held⟩

end Made

/-! ### Patterns and words -/

/-- What a pattern finds at the beginning of a text is told by the words of the text. -/
structure Judges (pattern : Pattern) (test : List (List Char) → Bool) : Prop where
  sound : ∀ here : Spot, pattern.Meets (fun _ => True) here → test (words here.after) = true
  complete : ∀ here : Spot, Fresh here.after → test (words here.after) = true →
    pattern.Meets (fun _ => True) here

namespace Judges

variable {pattern : Pattern} {test : List (List Char) → Bool}

theorem congr {test' : List (List Char) → Bool} (judges : pattern.Judges test)
    (same : ∀ list, test' list = test list) : pattern.Judges test' := by
  rwa [funext same]

theorem of_meets {other : Pattern} (judges : pattern.Judges test)
    (same : ∀ here, other.Meets (fun _ => True) here ↔ pattern.Meets (fun _ => True) here) :
    other.Judges test where
  sound here meets := judges.sound here ((same here).mp meets)
  complete here fresh holds := (same here).mpr (judges.complete here fresh holds)

/-- What a pattern finds behind the blanks that a text begins with is told by the words. -/
theorem foundIn {patterns : List Pattern}
    (judges : (inTurn patterns).Judges test) (text : List Char) :
    (inTurn (.start :: blanks :: patterns)).FoundIn text ↔ test (words text) = true := by
  have found : (inTurn (.start :: blanks :: patterns)).FoundIn text ↔
      ∃ lead rest, text = lead ++ rest ∧ Blanks lead ∧
        (inTurn patterns).Meets (fun _ => True) ⟨lead.reverse, rest⟩ := by
    constructor
    · rintro ⟨here, there, rfl, led⟩
      have meets : (inTurn (.start :: blanks :: patterns)).Meets (fun _ => True) here :=
        ⟨there, led, trivial⟩
      rw [meets_inTurn_cons, meets_start, meets_inTurn_cons, meets_blanks] at meets
      obtain ⟨first, lead, rest, read, blank, meets⟩ := meets
      refine ⟨lead, rest, ?_, blank, ?_⟩
      · rw [first, read]
        rfl
      · rwa [Spot.past, first, List.append_nil] at meets
    · rintro ⟨lead, rest, rfl, blank, meets⟩
      have all : (inTurn (.start :: blanks :: patterns)).Meets (fun _ => True)
          ⟨[], lead ++ rest⟩ := by
        rw [meets_inTurn_cons, meets_start, meets_inTurn_cons, meets_blanks]
        refine ⟨rfl, lead, rest, rfl, blank, ?_⟩
        rwa [Spot.past, List.append_nil]
      obtain ⟨there, led, _trivial⟩ := all
      exact ⟨_, there, rfl, led⟩
  rw [found]
  constructor
  · rintro ⟨lead, rest, rfl, blank, meets⟩
    rw [words_blanks_append blank]
    exact judges.sound _ meets
  · intro holds
    obtain ⟨lead, rest, rfl, blank, fresh⟩ := blanks_fresh text
    rw [words_blanks_append blank] at holds
    exact ⟨lead, rest, rfl, blank, judges.complete ⟨_, rest⟩ fresh holds⟩

end Judges

end Pattern

end DocDrift.Text
