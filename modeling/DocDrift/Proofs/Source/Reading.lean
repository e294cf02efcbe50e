import DocDrift.Source.Cursor

/-!
What readers do to a cursor. A reader that starts with the end of a text's tokens before it stops
with an end of them before it, unless it fails. What it yields there may be asked to have a property;
of most readers nothing is asked, and those are put together by instance resolution.
-/

set_option autoImplicit false
set_option synthInstance.maxSize 20000

namespace DocDrift.Source

open Parse

/-- What remains to be read is the end of some tokens. -/
structure Inside (tokens : List Token) (cursor : Cursor) : Prop where
  rest : cursor.rest <:+ tokens
  finish : cursor.finish.kind = .finish

section Readers

variable {tokens : List Token} {α β : Type} {holds : α → Prop}

theorem Inside.keeping {cursor : Cursor} (inside : Inside tokens cursor) (leaves : List String)
    (line : Nat) : Inside tokens { cursor with leaves := leaves, line := line } :=
  ⟨inside.rest, inside.finish⟩

/-- Inside of some tokens a reader stays there, and what it yields has a property. -/
def Yields (tokens : List Token) (reader : Parse α) (holds : α → Prop) : Prop :=
  ∀ cursor found after, Inside tokens cursor → reader.run cursor = .ok (found, after) →
    Inside tokens after ∧ holds found

/-- Inside of some tokens a reader stays there. -/
class Keeps (tokens : List Token) (reader : Parse α) : Prop where
  stays : Yields tokens reader fun _ => True

/-! ### Readers in a row -/

theorem ok_of_bind {first : Except SyntaxError α} {next : α → Except SyntaxError β} {result : β}
    (succeeded : first >>= next = .ok result) :
    ∃ found, first = .ok found ∧ next found = .ok result := by
  cases first with
  | error error => cases succeeded
  | ok found => exact ⟨found, rfl, succeeded⟩

theorem run_bind {reader : Parse α} {next : α → Parse β} {cursor : Cursor} {result : β × Cursor}
    (ran : (reader >>= next).run cursor = .ok result) :
    ∃ first between, reader.run cursor = .ok (first, between) ∧
      (next first).run between = .ok result := by
  rw [StateT.run_bind] at ran
  obtain ⟨⟨first, between⟩, ran, later⟩ := ok_of_bind ran
  exact ⟨first, between, ran, later⟩

namespace Yields

theorem pure {found : α} (has : holds found) : Yields tokens (pure found) holds := by
  intro cursor value after inside ran
  cases ran
  exact ⟨inside, has⟩

theorem bind {mid : α → Prop} {holds : β → Prop} {reader : Parse α} {next : α → Parse β}
    (first : Yields tokens reader mid)
    (then_ : ∀ found, mid found → Yields tokens (next found) holds) :
    Yields tokens (reader >>= next) holds := by
  intro cursor found after inside ran
  obtain ⟨value, between, ran, later⟩ := run_bind ran
  obtain ⟨inside', has⟩ := first cursor value between inside ran
  exact then_ value has between found after inside' later

/-- Nothing is asked of what is yielded first. -/
theorem after {holds : β → Prop} {reader : Parse α} {next : α → Parse β} [Keeps tokens reader]
    (then_ : ∀ found, Yields tokens (next found) holds) : Yields tokens (reader >>= next) holds :=
  Keeps.stays.bind fun found _ => then_ found

theorem ite {condition : Prop} [Decidable condition] {reader other : Parse α}
    (yes : Yields tokens reader holds) (no : Yields tokens other holds) :
    Yields tokens (if condition then reader else other) holds := by
  split
  · exact yes
  · exact no

theorem map {holds : β → Prop} {reader : Parse α} {function : α → β}
    (yields : Yields tokens reader fun found => holds (function found)) :
    Yields tokens (function <$> reader) holds := by
  rw [map_eq_pure_bind]
  exact yields.bind fun _ has => .pure has

theorem keeps {reader : Parse α} (yields : Yields tokens reader holds) : Keeps tokens reader :=
  ⟨fun cursor found after inside ran => ⟨(yields cursor found after inside ran).1, trivial⟩⟩

theorem some {reader : Parse α} (yields : Yields tokens reader holds) :
    Yields tokens (reader >>= fun found => Pure.pure (Option.some found)) fun option =>
      ∀ found ∈ option, holds found := by
  apply yields.bind
  intro found has
  apply Yields.pure
  intro value same
  exact Option.some.inj same ▸ has

/-- The cursor on which a reader starts is inside, too. -/
theorem state {holds : β → Prop} {next : Cursor → Parse β}
    (then_ : ∀ cursor, Inside tokens cursor → Yields tokens (next cursor) holds) :
    Yields tokens (get >>= next) holds := by
  intro cursor found after inside ran
  exact then_ cursor inside cursor found after inside ran

theorem set {cursor : Cursor} (inside : Inside tokens cursor) :
    Yields tokens (MonadStateOf.set cursor : Parse PUnit) fun _ => True := by
  intro start found after _ ran
  cases ran
  exact ⟨inside, trivial⟩

end Yields

instance (found : α) : Keeps tokens (pure found) := ⟨.pure trivial⟩

instance (reader : Parse α) (next : α → Parse β) [Keeps tokens reader]
    [rest : ∀ found, Keeps tokens (next found)] : Keeps tokens (reader >>= next) :=
  ⟨.after fun found => (rest found).stays⟩

instance (reader : Parse α) (function : α → β) [Keeps tokens reader] :
    Keeps tokens (function <$> reader) :=
  ⟨.map Keeps.stays⟩

instance (condition : Prop) [Decidable condition] (reader other : Parse α) [Keeps tokens reader]
    [Keeps tokens other] : Keeps tokens (if condition then reader else other) :=
  ⟨.ite Keeps.stays Keeps.stays⟩

instance : Keeps tokens (get : Parse Cursor) := by
  constructor
  intro cursor found after inside ran
  cases ran
  exact ⟨inside, trivial⟩

/-! ### Single tokens -/

instance : Keeps tokens advance := by
  constructor
  intro cursor found after inside ran
  obtain ⟨start, between, got, ran⟩ := run_bind ran
  cases got
  cases rest : cursor.rest with
  | nil =>
      simp only [rest] at ran
      cases ran
      exact ⟨inside, trivial⟩
  | cons token more =>
      simp only [rest] at ran
      cases ran
      have further : more <:+ cursor.rest := by
        rw [rest]
        exact List.suffix_cons _ _
      exact ⟨⟨further.trans inside.rest, inside.finish⟩, trivial⟩

instance (leaves : Cursor → List String) (line : Cursor → Nat) :
    Keeps tokens (modify fun cursor =>
      { cursor with leaves := leaves cursor, line := line cursor }) := by
  constructor
  intro cursor found after inside ran
  cases ran
  exact ⟨inside.keeping _ _, trivial⟩

instance (count : Nat) : Keeps tokens (ahead count) := by
  unfold ahead
  infer_instance

instance : Keeps tokens peek := by
  unfold peek
  infer_instance

instance : Keeps tokens take := by
  unfold take
  infer_instance

instance (text : String) : Keeps tokens (isMark text) := by
  unfold isMark
  infer_instance

/-! ### Failures -/

/-- A reader that never yields anything. -/
def Fails (reader : Parse α) : Prop :=
  ∀ cursor result, reader.run cursor ≠ .ok result

theorem Fails.yields {reader : Parse α} (fails : Fails reader) : Yields tokens reader holds :=
  fun cursor found after _ ran => absurd ran (fails cursor (found, after))

theorem misplaced_fails : Fails (misplaced : Parse α) := by
  intro cursor result ran
  obtain ⟨token, between, _, failed⟩ := run_bind ran
  cases failed

theorem missing_fails (mark : String) : Fails (missing mark : Parse α) := by
  intro cursor result ran
  obtain ⟨token, between, _, failed⟩ := run_bind ran
  cases failed

theorem unclosed_fails (mark : String) : Fails (unclosed mark : Parse α) := by
  intro cursor result ran
  obtain ⟨token, between, _, ran⟩ := run_bind ran
  obtain ⟨next, between, _, ran⟩ := run_bind ran
  split at ran
  · exact misplaced_fails _ _ ran
  · exact missing_fails mark _ _ ran

instance : Keeps tokens (misplaced : Parse α) := ⟨misplaced_fails.yields⟩

instance (mark : String) : Keeps tokens (unclosed mark : Parse α) :=
  ⟨(unclosed_fails mark).yields⟩

/-! ### Marks and words -/

instance (text : String) : Keeps tokens (isKeyword text) := by
  unfold isKeyword
  infer_instance

instance (text : String) : Keeps tokens (mark? text) := by
  unfold mark?
  infer_instance

instance (text : String) : Keeps tokens (keyword? text) := by
  unfold keyword?
  infer_instance

instance (text : String) : Keeps tokens (mark text) := by
  unfold mark
  infer_instance

instance (text : String) : Keeps tokens (keyword text) := by
  unfold keyword
  infer_instance

instance : Keeps tokens semicolon := by
  unfold semicolon
  infer_instance

instance : Keeps tokens word := by
  constructor
  apply Yields.after
  intro token
  split
  · exact Keeps.stays
  · exact Keeps.stays

/-! ### Repetition -/

theorem manyUpTo_yields {item : Parse (Option α)}
    (one : Yields tokens item fun found => ∀ value ∈ found, holds value) (count : Nat) :
    Yields tokens (manyUpTo item count) fun list => ∀ value ∈ list, holds value := by
  induction count with
  | zero => exact .pure nofun
  | succ count ih =>
      apply one.bind
      intro found has
      cases found with
      | none => exact .pure nofun
      | some value =>
          apply ih.bind
          intro more later
          exact .pure (List.forall_mem_cons.mpr ⟨has value rfl, later⟩)

theorem many_yields {item : Parse (Option α)}
    (one : Yields tokens item fun found => ∀ value ∈ found, holds value) :
    Yields tokens (many item) fun list => ∀ value ∈ list, holds value := by
  apply Yields.after
  intro cursor
  exact manyUpTo_yields one cursor.bound

theorem commaList_yields {item : Parse α} (one : Yields tokens item holds) :
    Yields tokens (commaList item) fun list => ∀ value ∈ list, holds value := by
  apply one.bind
  intro first has
  have further : Yields tokens (many do
      if ← mark? "," then return some (← item) else return none)
      fun list => ∀ value ∈ list, holds value := by
    apply many_yields
    apply Yields.after
    intro more
    apply Yields.ite
    · exact one.some
    · exact .pure nofun
  apply further.bind
  intro more later
  exact .pure (List.forall_mem_cons.mpr ⟨has, later⟩)

theorem commaListUntil_yields {item : Parse α} (close : String) (one : Yields tokens item holds) :
    Yields tokens (commaListUntil close item) fun list => ∀ value ∈ list, holds value := by
  apply Yields.after
  intro closed
  apply Yields.ite
  · exact .pure nofun
  apply one.bind
  intro first has
  have further : Yields tokens (many do
      if ← mark? "," then
        if ← isMark close then return none else return some (← item)
      else return none) fun list => ∀ value ∈ list, holds value := by
    apply many_yields
    apply Yields.after
    intro more
    apply Yields.ite
    · apply Yields.after
      intro closed
      apply Yields.ite
      · exact .pure nofun
      · exact one.some
    · exact .pure nofun
  apply further.bind
  intro more later
  exact .pure (List.forall_mem_cons.mpr ⟨has, later⟩)

theorem captured_yields (holds : α → Prop) {reader : Parse α}
    (yields : Yields tokens reader holds) :
    Yields tokens (captured reader) fun found => holds found.1 := by
  apply Yields.after
  intro before
  apply Yields.after
  intro _
  apply yields.bind
  intro found has
  apply Yields.after
  intro own
  apply Yields.after
  intro _
  exact .pure has

instance (item : Parse (Option α)) [Keeps tokens item] : Keeps tokens (many item) := by
  have one : Yields tokens item fun found => ∀ value ∈ found, True :=
    fun cursor found after inside ran =>
      ⟨(Keeps.stays cursor found after inside ran).1, fun _ _ => trivial⟩
  exact (many_yields one).keeps

instance (item : Parse α) [Keeps tokens item] : Keeps tokens (commaList item) :=
  (commaList_yields Keeps.stays).keeps

instance (close : String) (item : Parse α) [Keeps tokens item] :
    Keeps tokens (commaListUntil close item) :=
  (commaListUntil_yields close Keeps.stays).keeps

instance (reader : Parse α) [Keeps tokens reader] : Keeps tokens (captured reader) :=
  (captured_yields _ Keeps.stays).keeps

instance (reader : Parse α) [Keeps tokens reader] : Keeps tokens (silently reader) := by
  unfold silently
  infer_instance

/-! ### Names and types -/

instance : Keeps tokens qualifiedName := by
  unfold qualifiedName

  infer_instance

instance : Keeps tokens nameList := by
  unfold nameList
  infer_instance

instance : Keeps tokens typePart := by
  unfold typePart
  infer_instance

instance : Keeps tokens typeReference := by
  unfold typeReference
  infer_instance

end Readers
end DocDrift.Source
