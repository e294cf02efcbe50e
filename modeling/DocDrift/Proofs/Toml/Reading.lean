import DocDrift.Toml.Reader

/-!
What a reader of TOML text takes off the front of a text. A reader takes a value from some
characters and leaves what stands behind them, or it fails. Readers that take one after another take
together, and of two readers the second takes where the first one fails.
-/

set_option autoImplicit false

namespace DocDrift.Toml.Read

variable {α β : Type}

/-! ### Running readers -/

theorem run_bind (reader : Read α) (next : α → Read β) (text : List Char) :
    (reader >>= next) text = (reader text).bind fun found => next found.1 found.2 := rfl

/-- A reader takes a value from some characters and leaves what stands behind them. -/
def Takes (reader : Read α) (text : List Char) (value : α) (rest : List Char) : Prop :=
  reader (text ++ rest) = some (value, rest)

/-- A reader does not accept what a text begins with. -/
def Fails (reader : Read α) (text : List Char) : Prop :=
  reader text = none

/-- A text does not go on with a character that satisfies a condition. -/
def Stops (accepts : Char → Bool) (text : List Char) : Prop :=
  ∀ c, text.head? = some c → accepts c = false

theorem stops_nil (accepts : Char → Bool) : Stops accepts [] := by
  intro c first
  cases first

theorem stops_cons {accepts : Char → Bool} {c : Char} (other : accepts c = false)
    (rest : List Char) : Stops accepts (c :: rest) := by
  intro d first
  cases first
  exact other

theorem ne_of_accepts {accepts : Char → Bool} {c mark : Char} (accepted : accepts c = true)
    (refused : accepts mark = false) : c ≠ mark := by
  rintro rfl
  rw [accepted] at refused
  cases refused

theorem Stops.imp {accepts fewer : Char → Bool} {text : List Char} (stops : Stops accepts text)
    (only : ∀ c, accepts c = false → fewer c = false) : Stops fewer text :=
  fun c first => only c (stops c first)

/-- A text is cut where it stops to go on with characters that satisfy a condition. -/
theorem exists_span (accepts : Char → Bool) (text : List Char) :
    ∃ front back, text = front ++ back ∧ (∀ c ∈ front, accepts c = true) ∧ Stops accepts back := by
  induction text with
  | nil => exact ⟨[], [], rfl, List.forall_mem_nil _, stops_nil accepts⟩
  | cons c more ih =>
      cases accepted : accepts c with
      | false => exact ⟨[], c :: more, rfl, List.forall_mem_nil _, stops_cons accepted more⟩
      | true =>
          obtain ⟨front, back, rfl, inside, stops⟩ := ih
          exact ⟨c :: front, back, rfl, List.forall_mem_cons.mpr ⟨accepted, inside⟩, stops⟩

/-! ### One reader after another -/

theorem takes_pure (value : α) (rest : List Char) : Takes (pure value) [] value rest := rfl

theorem takes_bind {reader : Read α} {next : α → Read β} (text more : List Char) {value : α}
    {result : β} {rest : List Char} (first : Takes reader text value (more ++ rest))
    (second : Takes (next value) more result rest) :
    Takes (reader >>= next) (text ++ more) result rest := by
  unfold Takes at first second ⊢
  rw [List.append_assoc, run_bind, first]
  exact second

/-- A reader behind which nothing more is taken. -/
theorem takes_last {reader : Read α} {next : α → Read β} {text rest : List Char} {value : α}
    {result : β} (first : Takes reader text value rest)
    (second : Takes (next value) [] result rest) : Takes (reader >>= next) text result rest := by
  have both := takes_bind text [] first second
  rwa [List.append_nil] at both

theorem takes_map {reader : Read α} {text rest : List Char} {value : α} (change : α → β)
    (first : Takes reader text value rest) :
    Takes (do return change (← reader)) text (change value) rest :=
  takes_last first (takes_pure _ rest)

theorem fails_bind {reader : Read α} {text : List Char} (next : α → Read β)
    (fails : Fails reader text) : Fails (reader >>= next) text := by
  unfold Fails at fails ⊢
  rw [run_bind, fails]
  rfl

theorem fails_behind {reader : Read α} {next : α → Read β} (text : List Char) {rest : List Char}
    {value : α} (first : Takes reader text value rest) (fails : Fails (next value) rest) :
    Fails (reader >>= next) (text ++ rest) := by
  unfold Takes at first
  unfold Fails at fails ⊢
  rw [run_bind, first]
  exact fails

theorem takes_ensure {condition : Bool} (holds : condition = true) (rest : List Char) :
    Takes (ensure condition) [] () rest := by
  subst holds
  rfl

theorem fails_ensure {condition : Bool} (fails : condition = false) (text : List Char) :
    Fails (ensure condition) text := by
  subst fails
  rfl

/-! ### One reader or another -/

theorem takes_first {first : Read α} {text rest : List Char} {value : α} (second : Read α)
    (takes : Takes first text value rest) : Takes (either first second) text value rest := by
  unfold Takes at takes ⊢
  rw [either, takes]

theorem takes_second {first second : Read α} {text rest : List Char} {value : α}
    (fails : Fails first (text ++ rest)) (takes : Takes second text value rest) :
    Takes (either first second) text value rest := by
  unfold Takes at takes ⊢
  unfold Fails at fails
  rw [either, fails]
  exact takes

theorem fails_either {first second : Read α} {text : List Char} (fails : Fails first text)
    (fails' : Fails second text) : Fails (either first second) text := by
  unfold Fails at fails fails' ⊢
  rw [either, fails]
  exact fails'

theorem takes_maybe {reader : Read α} {text rest : List Char} {value : α}
    (takes : Takes reader text value rest) : Takes (maybe reader) text (some value) rest := by
  unfold Takes at takes ⊢
  rw [maybe, takes]

theorem takes_nothing {reader : Read α} {rest : List Char} (fails : Fails reader rest) :
    Takes (maybe reader) [] none rest := by
  unfold Fails at fails
  unfold Takes
  rw [List.nil_append, maybe, fails]

/-! ### Characters -/

theorem takes_one {accepts : Char → Bool} {c : Char} (accepted : accepts c = true)
    (rest : List Char) : Takes (one accepts) [c] c rest := by
  simp [Takes, one, accepted]

theorem fails_one {accepts : Char → Bool} {text : List Char} (stops : Stops accepts text) :
    Fails (one accepts) text := by
  cases text with
  | nil => rfl
  | cons c rest => simp [Fails, one, stops c rfl]

theorem takes_literal (text rest : List Char) : Takes (literal text) text () rest := by
  have opens : text.isPrefixOf (text ++ rest) = true :=
    List.isPrefixOf_iff_prefix.mpr (List.prefix_append text rest)
  simp [Takes, literal, opens]

theorem takes_char (c : Char) (rest : List Char) : Takes (char c) [c] () rest :=
  takes_literal [c] rest

theorem fails_literal {c : Char} {text : List Char} (more : List Char)
    (other : text.head? ≠ some c) : Fails (literal (c :: more)) text := by
  cases text with
  | nil => rfl
  | cons d rest =>
      have different : ¬ c = d := fun same => other (congrArg some same.symm)
      simp [Fails, literal, List.isPrefixOf, different]

theorem fails_char {c : Char} {text : List Char} (other : text.head? ≠ some c) :
    Fails (char c) text :=
  fails_literal [] other

theorem takes_span {accepts : Char → Bool} {text rest : List Char}
    (accepted : ∀ c ∈ text, accepts c = true) (stops : Stops accepts rest) :
    Takes (spanOf accepts) text text rest := by
  have behind : rest.takeWhile accepts = [] ∧ rest.dropWhile accepts = rest := by
    cases rest with
    | nil => exact ⟨rfl, rfl⟩
    | cons c more => simp [stops c rfl]
  unfold Takes spanOf
  rw [List.takeWhile_append_of_pos accepted, List.dropWhile_append_of_pos accepted, behind.1,
    behind.2, List.append_nil]

theorem takes_some {accepts : Char → Bool} {text rest : List Char} (nonempty : text ≠ [])
    (accepted : ∀ c ∈ text, accepts c = true) (stops : Stops accepts rest) :
    Takes (someOf accepts) text text rest := by
  cases text with
  | nil => contradiction
  | cons c more =>
      unfold someOf
      apply takes_bind [c] more (takes_one (accepted c List.mem_cons_self) _)
      apply takes_last (takes_span _ stops)
      · exact takes_pure _ rest
      · intro d mem
        exact accepted d (List.mem_cons_of_mem c mem)

theorem fails_some {accepts : Char → Bool} {text : List Char} (stops : Stops accepts text) :
    Fails (someOf accepts) text :=
  fails_bind _ (fails_one stops)

theorem takes_exactly {accepts : Char → Bool} {text : List Char}
    (accepted : ∀ c ∈ text, accepts c = true) (rest : List Char) :
    Takes (exactly accepts text.length) text text rest := by
  induction text with
  | nil => exact takes_pure _ rest
  | cons c more ih =>
      rw [List.length_cons, exactly]
      apply takes_bind [c] more (takes_one (accepted c List.mem_cons_self) _)
      apply takes_last (ih _)
      · exact takes_pure _ rest
      · intro d mem
        exact accepted d (List.mem_cons_of_mem c mem)

/-! ### Repeated readers -/

/-- A reader takes values one after another, from at least one character each, until it fails. -/
inductive Repeats (reader : Read α) : List Char → List α → List Char → Prop
  | done {rest : List Char} (fails : Fails reader rest) : Repeats reader [] [] rest
  | more {text others rest : List Char} {value : α} {values : List α} (nonempty : text ≠ [])
      (first : Takes reader text value (others ++ rest))
      (behind : Repeats reader others values rest) :
      Repeats reader (text ++ others) (value :: values) rest

theorem Repeats.length_le {reader : Read α} {text rest : List Char} {values : List α}
    (repeats : Repeats reader text values rest) : values.length ≤ text.length := by
  induction repeats with
  | done fails => exact Nat.le_refl 0
  | more nonempty first behind ih =>
      have pos := List.length_pos_iff.mpr nonempty
      simp only [List.length_cons, List.length_append]
      omega

theorem Repeats.manyUpTo {reader : Read α} {text rest : List Char} {values : List α}
    (repeats : Repeats reader text values rest) {count : Nat} (enough : values.length ≤ count) :
    Takes (manyUpTo reader count) text values rest := by
  induction repeats generalizing count with
  | @done rest fails =>
      cases count with
      | zero => exact takes_pure _ rest
      | succ count =>
          rw [Read.manyUpTo]
          exact takes_last (takes_nothing fails) (takes_pure _ rest)
  | @more text others rest value values nonempty first behind ih =>
      cases count with
      | zero => simp at enough
      | succ count =>
          rw [Read.manyUpTo]
          apply takes_bind text others (takes_maybe first)
          apply takes_last (ih (Nat.le_of_succ_le_succ enough))
          exact takes_pure _ rest

theorem takes_many {reader : Read α} {text rest : List Char} {values : List α}
    (repeats : Repeats reader text values rest) : Takes (many reader) text values rest := by
  have fewer := repeats.length_le
  apply repeats.manyUpTo
  simp only [List.length_append]
  omega

theorem takes_separated {separator : Read Unit} {item : Read α} {text others rest : List Char}
    {value : α} {values : List α} (first : Takes item text value (others ++ rest))
    (behind : Repeats (do separator; item) others values rest) :
    Takes (separated separator item) (text ++ others) (value :: values) rest := by
  unfold separated
  apply takes_bind text others first
  exact takes_last (takes_many behind) (takes_pure _ rest)

end DocDrift.Toml.Read
