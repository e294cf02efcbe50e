import DocDrift.Proofs.Source.Members
import DocDrift.Source.Program

/-!
Whole texts. What the statements of a text declare has the names that stand in its tokens, to any
depth of nesting.
-/

set_option autoImplicit false
set_option synthInstance.maxSize 200000

namespace DocDrift.Source

open Parse

section Nested

variable {tokens : List Token} (nested : Nesting) [nested.Sound tokens]

/-! ### Expressions -/

instance : Keeps tokens endsOperand := by
  unfold endsOperand
  infer_instance

instance : Keeps tokens unary? := by
  unfold unary?
  infer_instance

instance : Keeps tokens (variablePart nested) := by
  unfold variablePart
  infer_instance

instance : Keeps tokens (memberPart nested) := by
  unfold memberPart
  infer_instance

instance : Keeps tokens (element nested) := by
  unfold element
  infer_instance

instance (close : String) : Keeps tokens (elementsUntil nested close) := by
  unfold elementsUntil
  infer_instance

instance : Keeps tokens (newObject nested) := by
  unfold newObject
  infer_instance

instance : Keeps tokens (closure nested) := by
  unfold closure
  infer_instance

instance : Keeps tokens (selection nested) := by
  unfold selection
  infer_instance

instance : Keeps tokens (quotation nested) := by
  unfold quotation
  infer_instance

instance : Keeps tokens (handout nested) := by
  unfold handout
  infer_instance

instance : Keeps tokens (wordOperand nested) := by
  constructor
  apply Yields.after
  intro next
  apply Yields.after
  intro token
  split
  all_goals exact Keeps.stays

instance : Keeps tokens (primary nested) := by
  constructor
  apply Yields.after
  intro token
  split
  case h_4 =>
    split
    all_goals exact Keeps.stays
  all_goals exact Keeps.stays

instance (shape : Shape) : Keeps tokens (further? nested shape) := by
  constructor
  apply Yields.ite
  · exact .pure trivial
  apply Yields.after
  intro token
  apply Yields.after
  intro kind
  split
  all_goals exact Keeps.stays

instance (count : Nat) (shape : Shape) : Keeps tokens (furtherUpTo nested count shape) := by
  constructor
  induction count generalizing shape with
  | zero => exact .pure trivial
  | succ count ih =>
      apply Yields.after
      intro next
      split
      · exact .pure trivial
      · exact ih _

instance : Keeps tokens (operand nested) := by
  unfold operand
  infer_instance

instance : Keeps tokens isBinary := by
  unfold isBinary
  infer_instance

instance (count : Nat) (shape : Shape) : Keeps tokens (operatorsUpTo nested count shape) := by
  induction count generalizing shape with
  | zero => exact ⟨.pure trivial⟩
  | succ count ih =>
      unfold operatorsUpTo
      infer_instance

instance : Keeps tokens (expression nested) := by
  unfold expression
  infer_instance

/-! ### Branches and loops -/

instance : Keeps tokens (condition nested) := by
  unfold condition
  infer_instance

instance (close : String) : Keeps tokens (valuesUntil nested close) := by
  unfold valuesUntil
  infer_instance

theorem loopBody_yields (close : String) :
    Yields tokens (loopBody nested close) (Grounded tokens) := by
  apply Yields.after
  intro listed
  apply Yields.ite
  · apply (statementsUntil_yields nested _).bind
    intro items grounded
    exact .after fun _ => .after fun _ => .pure grounded
  · exact Nesting.Sound.statement

theorem colonBranches_yields : Yields tokens (colonBranches nested) (Grounded tokens) := by
  have statements : Yields tokens (nested.statementsUntil (stopsAt ["elseif", "else", "endif"]))
      (Grounded tokens) := statementsUntil_yields nested _
  apply statements.bind
  intro first groundedFirst
  have branches : Yields tokens (many do
      if ← keyword? "elseif" then
        condition nested
        mark ":"
        return some (← nested.statementsUntil (stopsAt ["elseif", "else", "endif"]))
      else return none) fun groups => ∀ items ∈ groups, Grounded tokens items := by
    apply many_yields
    apply Yields.after
    intro further
    apply Yields.ite
    · exact .after fun _ => .after fun _ => statements.some
    · exact .pure nofun
  apply branches.bind
  intro more groundedMore
  apply Yields.after
  intro otherwise
  extract_lets close
  have close_yields : ∀ last, Grounded tokens last →
      Yields tokens (close last) (Grounded tokens) := by
    intro last groundedLast
    exact .after fun _ => .after fun _ => .pure (grounded_append.mpr
      ⟨grounded_append.mpr ⟨groundedFirst, grounded_flatten groundedMore⟩, groundedLast⟩)
  apply Yields.ite
  · exact .after fun _ => statements.bind close_yields
  · exact (Yields.pure grounded_nil).bind close_yields

theorem conditional_yields : Yields tokens (conditional nested) (Grounded tokens) := by
  have statement : Yields tokens nested.statement (Grounded tokens) := Nesting.Sound.statement
  apply Yields.after
  intro _
  apply Yields.after
  intro listed
  apply Yields.ite
  · exact colonBranches_yields nested
  apply statement.bind
  intro first groundedFirst
  have branches : Yields tokens (many do
      if ← keyword? "elseif" then
        condition nested
        return some (← nested.statement)
      else return none) fun groups => ∀ items ∈ groups, Grounded tokens items := by
    apply many_yields
    apply Yields.after
    intro further
    apply Yields.ite
    · exact .after fun _ => statement.some
    · exact .pure nofun
  apply branches.bind
  intro more groundedMore
  apply Yields.after
  intro otherwise
  extract_lets close
  have close_yields : ∀ last, Grounded tokens last →
      Yields tokens (close last) (Grounded tokens) := by
    intro last groundedLast
    exact .pure (grounded_append.mpr
      ⟨grounded_append.mpr ⟨groundedFirst, grounded_flatten groundedMore⟩, groundedLast⟩)
  apply Yields.ite
  · exact statement.bind close_yields
  · exact (Yields.pure grounded_nil).bind close_yields

theorem cases_yields (close : Token → Bool) :
    Yields tokens (cases nested close) (Grounded tokens) := by
  unfold cases
  have groups : Yields tokens (many do
      let token ← peek
      if close token then return none
      else
        if ← keyword? "case" then nested.value else keyword "default"
        unless ← mark? ":" do semicolon
        return some (← nested.statementsUntil
          (fun token => close token || stopsAt ["case", "default"] token))) fun groups =>
        ∀ items ∈ groups, Grounded tokens items := by
    have statements : Yields tokens (nested.statementsUntil
        (fun token => close token || stopsAt ["case", "default"] token)) (Grounded tokens) :=
      statementsUntil_yields nested _
    apply many_yields
    apply Yields.after
    intro token
    apply Yields.ite
    · exact .pure nofun
    apply Yields.after
    intro valued
    extract_lets grouped marked
    have marked_yields : Yields tokens (marked ()) fun found =>
        ∀ items ∈ found, Grounded tokens items :=
      .after fun _ => .ite statements.some (.after fun _ => statements.some)
    exact .ite (.after fun _ => marked_yields) (.after fun _ => marked_yields)
  apply groups.bind
  intro groups every
  exact .pure (grounded_flatten every)

theorem switch_yields : Yields tokens (switch nested) (Grounded tokens) := by
  apply Yields.after
  intro _
  apply Yields.after
  intro listed
  apply Yields.ite
  · apply (cases_yields nested _).bind
    intro items grounded
    exact .after fun _ => .after fun _ => .pure grounded
  · apply Yields.after
    intro _
    apply (cases_yields nested _).bind
    intro items grounded
    exact .after fun _ => .pure grounded

theorem guarded_yields : Yields tokens (guarded nested) (Grounded tokens) := by
  have block : Yields tokens nested.block (Grounded tokens) := block_yields nested
  apply block.bind
  intro first groundedFirst
  have handlers : Yields tokens (many do
      if ← keyword? "catch" then
        mark "("
        typeReference
        if ← isMark "$" then
          let _ ← variableName
        mark ")"
        return some (← nested.block)
      else if ← keyword? "finally" then return some (← nested.block)
      else return none) fun groups => ∀ items ∈ groups, Grounded tokens items := by
    apply many_yields
    apply Yields.after
    intro caught
    apply Yields.ite
    · apply Yields.after
      intro _
      apply Yields.after
      intro _
      apply Yields.after
      intro named
      exact .ite (.after fun _ => .after fun _ => block.some) (.after fun _ => block.some)
    · exact .after fun _ => .ite block.some (.pure nofun)
  apply handlers.bind
  intro more groundedMore
  have grounded := grounded_append.mpr ⟨groundedFirst, grounded_flatten groundedMore⟩
  exact .ite (.after fun _ => .pure grounded) (.pure grounded)

theorem whileLoop_yields : Yields tokens (whileLoop nested) (Grounded tokens) :=
  .after fun _ => loopBody_yields nested "endwhile"

theorem doLoop_yields : Yields tokens (doLoop nested) (Grounded tokens) := by
  apply Nesting.Sound.statement.bind
  intro items grounded
  exact .after fun _ => .after fun _ => .after fun _ => .pure grounded

theorem forLoop_yields : Yields tokens (forLoop nested) (Grounded tokens) :=
  .after fun _ => .after fun _ => .after fun _ => .after fun _ => loopBody_yields nested "endfor"

instance : Keeps tokens (loopTarget nested) := by
  unfold loopTarget
  infer_instance

theorem foreachLoop_yields : Yields tokens (foreachLoop nested) (Grounded tokens) := by
  have body : Yields tokens (mark ")" >>= fun _ => loopBody nested "endforeach")
      (Grounded tokens) := .after fun _ => loopBody_yields nested "endforeach"
  apply Yields.after
  intro _
  apply Yields.after
  intro _
  apply Yields.after
  intro _
  apply Yields.after
  intro _
  exact .after fun _ => .ite (.after fun _ => body) body

/-! ### Imports and namespaces -/

instance : Keeps tokens renaming? := by
  unfold renaming?
  infer_instance

instance : Keeps tokens importKind := by
  unfold importKind
  infer_instance

instance (space : String) : Keeps tokens (groupedImport space) := by
  unfold groupedImport
  infer_instance

instance (name : String) : Keeps tokens (plainImport name) := by
  unfold plainImport
  infer_instance

instance : Keeps tokens imports := by
  unfold imports
  infer_instance

theorem spaceDeclaration_yields : Yields tokens (spaceDeclaration nested) (Grounded tokens) := by
  apply Yields.after
  intro unnamed
  apply Yields.ite
  · apply (block_yields nested).bind
    intro items grounded
    exact .pure (grounded_cons rfl grounded)
  apply Yields.after
  intro name
  apply Yields.after
  intro braced
  apply Yields.ite
  · apply (block_yields nested).bind
    intro items grounded
    exact .pure (grounded_cons rfl grounded)
  · exact .after fun _ => .pure (grounded_cons rfl grounded_nil)

/-! ### Declarations -/

theorem typeDeclaration_yields (kind : TypeKind) (modifiers : Modifiers)
    (docblock : Option String) :
    Yields tokens (typeDeclaration nested kind modifiers docblock) (Grounded tokens) := by
  apply Yields.after
  intro _
  apply Yields.after
  intro name
  apply (typeBody_yields nested kind).bind
  rintro ⟨parents, interfaces, members⟩ written
  apply Yields.pure
  intro item mem property there
  cases List.mem_singleton.mp mem
  rw [Item.properties_type] at there
  obtain ⟨member, mem, there⟩ := DeclaredType.mem_properties.mp there
  exact written member mem property there

theorem enumeration_yields : Yields tokens (enumeration nested) (Grounded tokens) := by
  apply Yields.after
  intro _
  exact .after fun _ => .after fun _ => .after fun _ => .after fun _ => .pure grounded_nil

theorem functionDeclaration_yields (docblock : Option String) :
    Yields tokens (functionDeclaration nested docblock) (Grounded tokens) :=
  .after fun _ => .after fun _ => .pure (grounded_cons rfl grounded_nil)

theorem modifiedClass_yields (docblock : Option String) :
    Yields tokens (modifiedClass nested docblock) (Grounded tokens) :=
  .after fun _ => .after fun _ => .ite (typeDeclaration_yields nested _ _ _) misplaced_fails.yields

/-! ### Other statements -/

theorem expressionStatement_yields :
    Yields tokens (expressionStatement nested) (Grounded tokens) :=
  .after fun _ => .after fun _ => .pure grounded_nil

theorem directive_yields : Yields tokens (directive nested) (Grounded tokens) := by
  apply Yields.after
  intro _
  apply Yields.after
  intro _
  apply Yields.after
  intro _
  apply Yields.after
  intro _
  apply Yields.after
  intro _
  apply Yields.after
  intro _
  apply Yields.ite
  · exact .pure grounded_nil
  · exact .after fun _ => .ite (.pure grounded_nil) (loopBody_yields nested "enddeclare")

theorem staticVariables_yields : Yields tokens (staticVariables nested) (Grounded tokens) :=
  .after fun _ => .after fun _ => .pure grounded_nil

theorem jump_yields : Yields tokens (jump nested) (Grounded tokens) := by
  apply Yields.after
  intro _
  exact .ite (.after fun _ => .pure grounded_nil)
    (.after fun _ => .after fun _ => .pure grounded_nil)

theorem exitStatement_yields : Yields tokens (exitStatement nested) (Grounded tokens) := by
  apply Yields.after
  intro bracketed
  extract_lets last closed
  have last_yields : Yields tokens (last ()) (Grounded tokens) :=
    .after fun _ => .pure grounded_nil
  have closed_yields : Yields tokens (closed ()) (Grounded tokens) := .after fun _ => last_yields
  apply Yields.ite
  · exact .after fun _ => .ite closed_yields (.after fun _ => closed_yields)
  · exact last_yields

theorem valuesStatement_yields : Yields tokens (valuesStatement nested) (Grounded tokens) :=
  .after fun _ => .after fun _ => .pure grounded_nil

/-- Attributes that belong to no declaration are read once more, as part of an expression. -/
theorem declaration_yields : Yields tokens (declaration nested) (Grounded tokens) := by
  apply Yields.after
  intro next
  apply Yields.after
  intro attributed
  apply Yields.ite
  · apply Yields.state
    intro plain inside
    have again : Yields tokens (do set plain; expressionStatement nested) (Grounded tokens) :=
      (Yields.set inside).bind fun _ _ => expressionStatement_yields nested
    apply Yields.after
    intro _
    apply Yields.after
    intro next
    apply Yields.after
    intro token
    split
    · exact modifiedClass_yields nested _
    · exact modifiedClass_yields nested _
    · exact modifiedClass_yields nested _
    · exact typeDeclaration_yields nested _ _ _
    · exact typeDeclaration_yields nested _ _ _
    · exact typeDeclaration_yields nested _ _ _
    · exact enumeration_yields nested
    · exact .after fun _ => .ite (functionDeclaration_yields nested _) again
    · exact again
  · exact expressionStatement_yields nested

theorem statement_yields : Yields tokens (statement nested) (Grounded tokens) := by
  have nothing : Yields tokens (pure []) (Grounded tokens) := .pure grounded_nil
  have expression : Yields tokens (expressionStatement nested) (Grounded tokens) :=
    expressionStatement_yields nested
  apply Yields.after
  intro token
  apply Yields.after
  intro next
  extract_lets docblock listed
  have listed_yields : Yields tokens (listed ()) (Grounded tokens) :=
    .after fun _ => .after fun _ => .after fun _ => nothing
  -- one case for each keyword, in the order of the definition
  split
  · exact .ite (block_yields nested) (.after fun _ => .ite nothing (declaration_yields nested))
  · exact .after fun _ => conditional_yields nested
  · exact .after fun _ => switch_yields nested
  · exact .after fun _ => whileLoop_yields nested
  · exact .after fun _ => doLoop_yields nested
  · exact .after fun _ => forLoop_yields nested
  · exact .after fun _ => foreachLoop_yields nested
  · exact .after fun _ => guarded_yields nested
  · exact .after fun _ => jump_yields nested
  · exact .after fun _ => jump_yields nested
  · exact .after fun _ => jump_yields nested
  · exact .after fun _ => valuesStatement_yields nested
  · exact .after fun _ => exitStatement_yields nested
  · exact .after fun _ => .after fun _ => .after fun _ => nothing
  · exact .after fun _ => .after fun _ => .after fun _ => nothing
  · apply Yields.after
    intro _
    exact .after fun _ => .after fun _ => .ite (.after fun _ => listed_yields) listed_yields
  · exact .after fun _ => directive_yields nested
  · exact .after fun _ => .after fun _ => nothing
  · exact .after fun _ => .after fun _ => .pure (grounded_cons rfl grounded_nil)
  · exact .ite expression (.after fun _ => spaceDeclaration_yields nested)
  · exact .ite (.after fun _ => staticVariables_yields nested) expression
  · exact modifiedClass_yields nested docblock
  · exact modifiedClass_yields nested docblock
  · exact modifiedClass_yields nested docblock
  · exact typeDeclaration_yields nested .ofClass Modifiers.none docblock
  · exact typeDeclaration_yields nested .ofInterface Modifiers.none docblock
  · exact typeDeclaration_yields nested .ofTrait Modifiers.none docblock
  · exact enumeration_yields nested
  · exact .after fun _ => .ite (functionDeclaration_yields nested docblock) expression
  · exact .ite (.after fun _ => .after fun _ => nothing) expression

end Nested

/-! ### Whole texts -/

variable {tokens : List Token}

instance (depth : Nat) : (nesting depth).Sound tokens := by
  induction depth with
  | zero => exact ⟨⟨misplaced_fails.yields⟩, misplaced_fails.yields⟩
  | succ depth ih =>
      have expression : Keeps tokens (expression (nesting depth)) := inferInstance
      exact ⟨⟨expression.stays⟩, statement_yields (nesting depth)⟩

theorem program_yields (depth : Nat) : Yields tokens (program depth) (Grounded tokens) := by
  apply (statementsUntil_yields (nesting depth) _).bind
  intro items grounded
  apply Yields.after
  intro next
  exact .ite (.pure grounded) misplaced_fails.yields

/-- The token behind all others stands for the end of the text. -/
theorem tokensOf_finish {text : String} {finish : Token}
    (scanned : tokensOf text = .ok (tokens, finish)) : finish.kind = .finish := by
  unfold tokensOf at scanned
  extract_lets chars start leading at scanned
  split at scanned
  · cases scanned
  · cases scanned
    rfl

/-- What a text declares has the names that stand in its tokens. -/
theorem declarations_grounded {text : String} {items : List Item}
    (accepted : declarations text = .ok items) :
    ∃ tokens finish, tokensOf text = .ok (tokens, finish) ∧ Grounded tokens items := by
  obtain ⟨⟨tokens, finish⟩, scanned, read⟩ := ok_of_bind accepted
  obtain ⟨⟨found, after⟩, ran, same⟩ := ok_of_bind read
  cases same
  have inside : Inside tokens
      { rest := tokens, finish := finish, bound := tokens.length + 1, line := 1, leaves := [] } :=
    ⟨List.suffix_rfl, tokensOf_finish scanned⟩
  exact ⟨tokens, finish, scanned, (program_yields _ _ items after inside ran).2⟩

end DocDrift.Source
