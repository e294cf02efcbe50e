import DocDrift.Proofs.Source.Reading
import DocDrift.Source.Members

/-!
Where the names of properties come from. The name of a property is the word behind a mark that is a
token of the source text, with the gap before the word, and so are the names of the properties that a
method declares in its parameters.
-/

set_option autoImplicit false
set_option synthInstance.maxSize 20000

namespace DocDrift.Source

open Parse

/-- A name as it stands in tokens: behind the mark of a variable, a word with the gap before it. -/
def PropertyName.WrittenIn (name : PropertyName) (tokens : List Token) : Prop :=
  ∃ before dollar token after, tokens = before ++ dollar :: token :: after ∧
    dollar.isMark "$" = true ∧ token.gap = name.gap ∧ token.kind = .word name.word

/-- The properties in a list have the names that they have in tokens. -/
def Written (tokens : List Token) (properties : List Property) : Prop :=
  ∀ property ∈ properties, property.name.WrittenIn tokens

section Readers

variable {tokens : List Token}

/-! ### Names of variables -/

theorem take_run {cursor : Cursor} {token : Token} {more : List Token}
    (rest : cursor.rest = token :: more) :
    take.run cursor = .ok (token, { cursor with
      rest := more
      line := token.lastLine
      leaves := token.text :: cursor.leaves }) := by
  obtain ⟨_, finish, bound, line, leaves⟩ := cursor
  cases rest
  rfl

theorem mark?_run {text : String} {cursor after : Cursor} (inside : Inside tokens cursor)
    (ran : (mark? text).run cursor = .ok (true, after)) :
    ∃ token, token.isMark text = true ∧ cursor.rest = token :: after.rest := by
  obtain ⟨there, _, peeked, ran⟩ := run_bind ran
  cases peeked
  split at ran
  case isTrue marked =>
    cases rest : cursor.rest with
    | nil =>
        simp [rest, Token.isMark, inside.finish] at marked
    | cons token more =>
        obtain ⟨_, _, took, ran⟩ := run_bind ran
        rw [take_run rest] at took
        cases took
        cases ran
        simp only [rest, List.getElem?_cons_zero, Option.getD_some] at marked
        exact ⟨token, marked, rfl⟩
  case isFalse => cases ran

theorem mark_run {text : String} {cursor after : Cursor} {found : Unit}
    (inside : Inside tokens cursor) (ran : (mark text).run cursor = .ok (found, after)) :
    ∃ token, token.isMark text = true ∧ cursor.rest = token :: after.rest := by
  obtain ⟨there, between, first, ran⟩ := run_bind ran
  cases there with
  | true =>
      cases ran
      exact mark?_run inside first
  | false =>
      split at ran
      · cases ‹false = true›
      split at ran
      · exact (unclosed_fails text _ _ ran).elim
      · exact (misplaced_fails _ _ ran).elim

theorem word_run {cursor after : Cursor} {found : Word} (inside : Inside tokens cursor)
    (ran : word.run cursor = .ok (found, after)) :
    ∃ token, token.kind = .word found ∧ cursor.rest = token :: after.rest := by
  obtain ⟨_, _, peeked, ran⟩ := run_bind ran
  cases peeked
  cases rest : cursor.rest with
  | nil =>
      simp only [rest, inside.finish, List.getElem?_nil, Option.getD_none] at ran
      exact (misplaced_fails _ _ ran).elim
  | cons token more =>
      simp only [rest, List.getElem?_cons_zero, Option.getD_some] at ran
      split at ran
      case h_1 spelled =>
        obtain ⟨_, _, took, ran⟩ := run_bind ran
        rw [take_run rest] at took
        cases took
        cases ran
        exact ⟨token, spelled, rfl⟩
      case h_2 => exact (misplaced_fails _ _ ran).elim

/-- The word stands directly behind the mark, so its gap is the one that is peeked at. -/
theorem variableName_yields : Yields tokens variableName fun name => name.WrittenIn tokens := by
  intro cursor found after inside ran
  have stays : Keeps tokens variableName := by
    unfold variableName
    infer_instance
  refine ⟨(stays.stays cursor found after inside ran).1, ?_⟩
  obtain ⟨_, between, marked, ran⟩ := run_bind ran
  have inside' := (Keeps.stays cursor _ between inside marked).1
  obtain ⟨dollar, isDollar, rest⟩ := mark_run inside marked
  obtain ⟨_, _, peeked, ran⟩ := run_bind ran
  cases peeked
  obtain ⟨_, _, worded, ran⟩ := run_bind ran
  obtain ⟨token, spelled, rest'⟩ := word_run inside' worded
  cases ran
  obtain ⟨before, whole⟩ := inside.rest
  refine ⟨before, dollar, token, after.rest, ?_, isDollar, ?_, spelled⟩
  · rw [← whole, rest, rest']
  · simp only [rest', List.getElem?_cons_zero, Option.getD_some]

instance : Keeps tokens variableName := variableName_yields.keeps

end Readers

/-! ### What is nested -/

def ClassMember.declared (member : ClassMember) : List Property :=
  member.ownProperties ++ member.methods.flatMap Callable.promoted

theorem ClassMember.declared_method (callable : Callable) :
    (ClassMember.method callable).declared = callable.promoted := by
  simp [ClassMember.declared, ClassMember.ownProperties, ClassMember.methods]

theorem ClassMember.declared_properties (list : List Property) :
    (ClassMember.properties list).declared = list := by
  simp [ClassMember.declared, ClassMember.ownProperties, ClassMember.methods]

theorem DeclaredType.mem_properties {declared : DeclaredType} {property : Property} :
    property ∈ declared.properties ↔ ∃ member ∈ declared.members, property ∈ member.declared := by
  simp only [DeclaredType.properties, DeclaredType.methods, ClassMember.declared, List.mem_append,
    List.mem_flatMap]
  constructor
  · rintro (⟨member, mem, own⟩ | ⟨callable, ⟨member, mem, method⟩, promoted⟩)
    · exact ⟨member, mem, .inl own⟩
    · exact ⟨member, mem, .inr ⟨callable, method, promoted⟩⟩
  · rintro ⟨member, mem, own | ⟨callable, method, promoted⟩⟩
    · exact .inl ⟨member, mem, own⟩
    · exact .inr ⟨callable, ⟨member, mem, method⟩, promoted⟩

def Item.properties (item : Item) : List Property :=
  item.types.flatMap DeclaredType.properties

theorem Item.properties_type (declared : DeclaredType) :
    (Item.type declared).properties = declared.properties :=
  List.flatMap_singleton ..

/-- The properties that items declare have the names that they have in tokens. -/
def Grounded (tokens : List Token) (items : List Item) : Prop :=
  ∀ item ∈ items, Written tokens item.properties

theorem grounded_nil {tokens : List Token} : Grounded tokens [] := nofun

/-- An item that declares no properties. -/
theorem grounded_cons {tokens : List Token} {item : Item} {items : List Item}
    (none : item.properties = []) (grounded : Grounded tokens items) :
    Grounded tokens (item :: items) := by
  intro other mem
  rcases List.mem_cons.mp mem with rfl | later
  · rw [none]
    exact nofun
  · exact grounded other later

theorem grounded_append {tokens : List Token} {items more : List Item} :
    Grounded tokens (items ++ more) ↔ Grounded tokens items ∧ Grounded tokens more :=
  List.forall_mem_append

theorem grounded_flatten {tokens : List Token} {groups : List (List Item)}
    (every : ∀ items ∈ groups, Grounded tokens items) : Grounded tokens groups.flatten := by
  intro item mem
  obtain ⟨items, mem', there⟩ := List.mem_flatten.mp mem
  exact every items mem' item there

/-- Readers of what is nested that stay inside of some tokens and yield names written there. -/
class Nesting.Sound (tokens : List Token) (nested : Nesting) : Prop where
  expression : Keeps tokens nested.expression
  statement : Yields tokens nested.statement (Grounded tokens)

section Nested

variable {tokens : List Token} (nested : Nesting) [nested.Sound tokens]

instance : Keeps tokens nested.expression := Nesting.Sound.expression

instance : Keeps tokens nested.value := by
  unfold Nesting.value
  infer_instance

theorem statementsUntil_yields (stop : Token → Bool) :
    Yields tokens (nested.statementsUntil stop) (Grounded tokens) := by
  have groups : Yields tokens (many do
      let token ← peek
      if token.kind = .finish || stop token then return none
      else return some (← nested.statement)) fun groups =>
        ∀ items ∈ groups, Grounded tokens items := by
    apply many_yields
    apply Yields.after
    intro token
    apply Yields.ite
    · exact .pure nofun
    · exact Nesting.Sound.statement.some
  apply groups.bind
  intro groups every
  exact .pure (grounded_flatten every)

theorem block_yields : Yields tokens nested.block (Grounded tokens) := by
  apply Yields.after
  intro _
  apply (statementsUntil_yields nested _).bind
  intro items grounded
  apply Yields.after
  intro _
  exact .pure grounded

instance : Keeps tokens nested.block := (block_yields nested).keeps

/-! ### Attributes, modifiers and values -/

instance : Keeps tokens (arguments nested) := by
  unfold arguments
  infer_instance

instance : Keeps tokens (attributes nested) := by
  unfold attributes
  infer_instance

instance : Keeps tokens visibility? := by
  constructor
  apply Yields.after
  intro token
  split
  · exact Keeps.stays
  · exact Keeps.stays

instance (sofar : Modifiers) : Keeps tokens (modifier? sofar) := by
  constructor
  apply Yields.after
  intro visibility
  split
  · exact Keeps.stays
  · apply Yields.after
    intro token
    split
    all_goals exact Keeps.stays

instance (count : Nat) (sofar : Modifiers) : Keeps tokens (modifiersUpTo count sofar) := by
  constructor
  induction count generalizing sofar with
  | zero => exact .pure trivial
  | succ count ih =>
      apply Yields.after
      intro more
      split
      · exact .pure trivial
      · exact ih _

instance : Keeps tokens modifiers := by
  unfold modifiers
  infer_instance

instance : Keeps tokens (initialValue? nested) := by
  unfold initialValue?
  infer_instance

instance : Keeps tokens startsType := by
  unfold startsType
  infer_instance

instance : Keeps tokens (accessorBody nested) := by
  unfold accessorBody
  infer_instance

/-! ### Parameters -/

/-- The name is read after the modifiers and the type, whether they are there or not. -/
theorem parameterAt_yields (depth : Nat) [Keeps tokens (accessorsAt nested depth)] :
    Yields tokens (parameterAt nested (depth + 1)) fun parameter =>
      Written tokens parameter.promoted.toList := by
  rw [parameterAt]
  refine (captured_yields (fun promoted => Written tokens promoted.toList) ?_).bind ?_
  · apply Yields.after
    intro _
    apply Yields.after
    intro visibility
    apply Yields.after
    intro _
    extract_lets typed visible
    have typed_yields : ∀ type, Yields tokens (typed type) fun promoted =>
        Written tokens promoted.toList := by
      intro type
      apply Yields.after
      intro byReference
      extract_lets named
      have named_yields : Yields tokens (named ()) fun promoted =>
          Written tokens promoted.toList := by
        apply variableName_yields.bind
        intro name written
        apply Yields.after
        intro _
        split
        · exact .pure nofun
        · apply Yields.after
          intro braced
          extract_lets last
          have last_yields : Yields tokens (last ()) fun promoted =>
              Written tokens promoted.toList := by
            apply Yields.ite
            · exact .pure nofun
            · exact .pure (List.forall_mem_singleton.mpr written)
          exact .ite (.after fun _ => last_yields) last_yields
      exact .ite (.after fun _ => named_yields) named_yields
    have visible_yields : Yields tokens (visible ()) fun promoted =>
        Written tokens promoted.toList := by
      apply Yields.after
      intro _
      exact .ite (.after typed_yields) (.after typed_yields)
    exact .ite (.after fun _ => visible_yields) visible_yields
  · rintro ⟨promoted, leaves⟩ written
    exact .pure written

/-- A parameter may have accessors, and an accessor parameters, one level deeper each time. -/
theorem parametersAt_sound (depth : Nat) :
    (Yields tokens (parameterAt nested depth) fun parameter =>
      Written tokens parameter.promoted.toList) ∧ Keeps tokens (accessorsAt nested depth) := by
  induction depth with
  | zero => exact ⟨misplaced_fails.yields, ⟨misplaced_fails.yields⟩⟩
  | succ depth ih =>
      obtain ⟨parameter, accessors⟩ := ih
      have : Keeps tokens (parameterAt nested depth) := parameter.keeps
      refine ⟨parameterAt_yields nested depth, ?_⟩
      rw [accessorsAt]
      infer_instance

instance : Keeps tokens (accessors nested) := by
  have (depth : Nat) : Keeps tokens (accessorsAt nested depth) :=
    (parametersAt_sound nested depth).2
  unfold accessors
  infer_instance

theorem parameters_yields :
    Yields tokens (parameters nested) fun list =>
      ∀ parameter ∈ list, Written tokens parameter.promoted.toList := by
  apply Yields.after
  intro cursor
  apply Yields.after
  intro _
  apply (commaListUntil_yields ")" (parametersAt_sound nested cursor.bound).1).bind
  intro list written
  apply Yields.after
  intro _
  exact .pure written

instance : Keeps tokens (parameters nested) := (parameters_yields nested).keeps

instance : Keeps tokens resultType? := by
  unfold resultType?
  infer_instance

theorem callableHeader_yields (visibility : Visibility) (isStatic : Bool)
    (docblock : Option String) :
    Yields tokens (callableHeader nested visibility isStatic docblock) fun callable =>
      Written tokens callable.promoted := by
  apply Yields.after
  intro _
  apply Yields.after
  intro _
  apply Yields.after
  intro name
  apply (parameters_yields nested).bind
  intro list written
  apply Yields.after
  intro result
  apply Yields.pure
  intro property mem
  obtain ⟨parameter, there, promoted⟩ := List.mem_filterMap.mp mem
  exact written parameter there property (Option.mem_toList.mpr promoted)

instance (visibility : Visibility) (isStatic : Bool) (docblock : Option String) :
    Keeps tokens (callableHeader nested visibility isStatic docblock) :=
  (callableHeader_yields nested visibility isStatic docblock).keeps

/-! ### Members -/

instance : Keeps tokens (constant nested) := by
  unfold constant
  infer_instance

instance : Keeps tokens (constants nested) := by
  unfold constants
  infer_instance

instance : Keeps tokens traitMethod := by
  unfold traitMethod
  infer_instance

instance : Keeps tokens traitRule := by
  unfold traitRule
  infer_instance

instance : Keeps tokens traitUse := by
  unfold traitUse
  infer_instance

instance : Keeps tokens (methodBody nested) := by
  unfold methodBody
  infer_instance

theorem method_yields (modifiers : Modifiers) (docblock : Option String) :
    Yields tokens (method nested modifiers docblock) fun member =>
      Written tokens member.declared := by
  apply (callableHeader_yields nested _ _ docblock).bind
  intro callable written
  apply Yields.after
  intro _
  apply Yields.pure
  rw [ClassMember.declared_method]
  exact written

instance (modifiers : Modifiers) (docblock : Option String) :
    Keeps tokens (method nested modifiers docblock) :=
  (method_yields nested modifiers docblock).keeps

theorem properties_yields (modifiers : Modifiers) (docblock : Option String) :
    Yields tokens (properties nested modifiers docblock) fun member =>
      Written tokens member.declared := by
  unfold properties
  extract_lets typed modified
  have typed_yields : ∀ type, Yields tokens (typed type) fun member =>
      Written tokens member.declared := by
    intro type
    refine Yields.bind (commaList_yields (?_ : Yields tokens _ fun property : Property =>
      property.name.WrittenIn tokens)) ?_
    · apply variableName_yields.bind
      intro name written
      apply Yields.after
      intro _
      exact .pure written
    intro list written
    apply Yields.after
    intro _
    extract_lets last
    have last_yields : Yields tokens (last ()) fun member => Written tokens member.declared := by
      apply Yields.pure
      rw [ClassMember.declared_properties]
      exact written
    exact .ite (.after fun _ => last_yields) (.after fun _ => last_yields)
  have modified_yields : Yields tokens (modified ()) fun member =>
      Written tokens member.declared := by
    apply Yields.after
    intro _
    exact .ite (.after typed_yields) (.after typed_yields)
  exact .ite (.after fun _ => modified_yields) modified_yields

theorem classMember_yields :
    Yields tokens (classMember nested) fun member => Written tokens member.declared := by
  apply Yields.after
  intro next
  apply Yields.after
  intro _
  apply Yields.after
  intro used
  apply Yields.ite
  · apply Yields.after
    intro _
    exact .pure nofun
  apply Yields.after
  intro modifiers
  apply Yields.after
  intro constant
  apply Yields.ite
  · apply Yields.after
    intro _
    exact .pure nofun
  apply Yields.after
  intro callable
  exact .ite (method_yields nested modifiers _) (properties_yields nested modifiers _)

instance : Keeps tokens (enumMember nested) := by
  unfold enumMember
  infer_instance

theorem body_yields {α : Type} {member : Parse α} {holds : α → Prop}
    (one : Yields tokens member holds) :
    Yields tokens (body member) fun members => ∀ member ∈ members, holds member := by
  apply Yields.after
  intro _
  have members : Yields tokens (many do
      if ← isMark closeBrace then return none else return some (← member))
      fun members => ∀ member ∈ members, holds member := by
    apply many_yields
    apply Yields.after
    intro closed
    apply Yields.ite
    · exact .pure nofun
    · exact one.some
  apply members.bind
  intro members every
  apply Yields.after
  intro _
  exact .pure every

instance {α : Type} (member : Parse α) [Keeps tokens member] : Keeps tokens (body member) :=
  (body_yields Keeps.stays).keeps

instance (text : String) : Keeps tokens (namesAfter text) := by
  unfold namesAfter
  infer_instance

theorem typeBody_yields (kind : TypeKind) :
    Yields tokens (typeBody nested kind) fun found =>
      ∀ member ∈ found.2.2, Written tokens member.declared := by
  unfold typeBody
  extract_lets parented
  have parented_yields : ∀ parents, Yields tokens (parented parents) fun found =>
      ∀ member ∈ found.2.2, Written tokens member.declared := by
    intro parents
    unfold parented
    extract_lets listed
    have listed_yields : ∀ interfaces, Yields tokens (listed interfaces) fun found =>
        ∀ member ∈ found.2.2, Written tokens member.declared := by
      intro interfaces
      apply (body_yields (classMember_yields nested)).bind
      intro members written
      exact .pure written
    exact .ite (.after listed_yields) (.after listed_yields)
  exact .ite (.after parented_yields) (.after parented_yields)

instance (kind : TypeKind) : Keeps tokens (typeBody nested kind) :=
  (typeBody_yields nested kind).keeps

end Nested
end DocDrift.Source
