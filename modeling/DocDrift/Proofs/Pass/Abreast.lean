import DocDrift.Proofs.Pass.Effects

/-!
Two passes in step. They have come to the same files by the same changes, and their stores may hold
anything. A change that keeps no verdict takes place in both or in neither, as long as no table is
missing that the other has; so steps that ask the same and change the same stay in step.
-/

set_option autoImplicit false

namespace DocDrift

/-! ### Tables that are there -/

namespace Store

/-- Two stores that hold the same of the tables that documenting a file needs. -/
structure SameTables (left right : Store) : Prop where
  ledger : left.ledger.isSome = right.ledger.isSome
  markers : left.markers.isSome = right.markers.isSome
  symbols : left.symbols.isSome = right.symbols.isSome
  usage : left.usage.isSome = right.usage.isSome

/-- A write that keeps a verdict. -/
def Write.IsScored : Write → Prop
  | .scored _ _ => True
  | _ => False

/-- Whether a store has the table that a write needs, and the write has a number to put there. -/
def accepts (store : Store) : Write → Bool
  | .documented _ _ _ => store.ledger.isSome
  | .processed _ _ => store.markers.isSome
  | .listed _ _ _ => store.symbols.isSome
  | .spent usage => store.usage.isSome && !usage.cost.isNaN
  | .scored _ _ => store.analyses.isSome

section Writing

variable {now : String} {store next left right : Store} {write : Write}

theorem accepts_iff : store.accepts write = true ↔ ∃ next, store.write now write = .ok next := by
  cases write <;>
    simp only [accepts, write_documented, write_processed, write_listed, write_spent, write_scored,
      Bool.and_eq_true, Bool.not_eq_true', Option.isSome_iff_exists, exists_comm (α := Store),
      exists_and_left, exists_and_right, exists_eq', and_true]

/-- A store holds the same tables after a write. -/
theorem sameTables_write (done : store.write now write = .ok next) : store.SameTables next := by
  obtain ⟨ledger, markers, symbols, _analyses⟩ := write_tables done
  have usage : store.usage.isSome = next.usage.isSome := by
    cases write with
    | spent usage =>
        obtain ⟨rows, held, _number, rfl⟩ := write_spent.mp done
        rw [held]
        rfl
    | documented path digest document =>
        obtain ⟨rows, _held, rfl⟩ := write_documented.mp done
        rfl
    | processed repository commit =>
        obtain ⟨rows, _held, rfl⟩ := write_processed.mp done
        rfl
    | listed path names digest =>
        obtain ⟨rows, _held, rfl⟩ := write_listed.mp done
        rfl
    | scored pair verdict =>
        obtain ⟨rows, _held, rfl⟩ := write_scored.mp done
        rfl
  refine ⟨?_, ?_, ?_, usage⟩
  · rw [ledger, Option.isSome_map]
  · rw [markers, Option.isSome_map]
  · rw [symbols, Option.isSome_map]

theorem SameTables.symm (same : left.SameTables right) : right.SameTables left :=
  ⟨same.ledger.symm, same.markers.symm, same.symbols.symm, same.usage.symm⟩

theorem SameTables.trans {between : Store} (first : left.SameTables between)
    (second : between.SameTables right) : left.SameTables right :=
  ⟨first.ledger.trans second.ledger, first.markers.trans second.markers,
    first.symbols.trans second.symbols, first.usage.trans second.usage⟩

theorem SameTables.accepts (same : left.SameTables right) (unscored : ¬write.IsScored) :
    left.accepts write = right.accepts write := by
  cases write with
  | documented path digest document => exact same.ledger
  | processed repository commit => exact same.markers
  | listed path names digest => exact same.symbols
  | spent usage => rw [Store.accepts, Store.accepts, same.usage]
  | scored pair verdict => exact absurd trivial unscored

end Writing

end Store

namespace Pass

/-- A change that keeps a verdict. -/
def Effect.IsScored : Effect → Prop
  | .wroteStore write => write.IsScored
  | _ => False

/-! ### Side by side -/

/-- Two passes that have come to the same files by the same changes and questions; `sameTables` says
whether their stores are known to hold the same tables. -/
structure Abreast (sameTables : Prop) (left right : World) : Prop where
  files : left.files = right.files
  effects : left.effects = right.effects
  asked : left.asked = right.asked
  tables : sameTables → left.store.SameTables right.store

/-- What two passes come to that go on side by side: results that belong together, or the same
failure, unless a table is missing to one of them only, and that one fails. -/
inductive InStep (sameTables : Prop) {α : Type} (related : α → α → Prop) :
    Except Failure α × World → Except Failure α × World → Prop
  | ended {value value' : α} {left right : World} (results : related value value')
      (abreast : Abreast sameTables left right) :
      InStep sameTables related (.ok value, left) (.ok value', right)
  | failed (failure : Failure) {left right : World} (abreast : Abreast sameTables left right) :
      InStep sameTables related (.error failure, left) (.error failure, right)
  | uneven {one other : Except Failure α × World} (uneven : ¬sameTables)
      (failed : one.1 = .error .store ∨ other.1 = .error .store) :
      InStep sameTables related one other

section SideBySide

variable {sameTables : Prop} {now : String} {left right : World}

theorem follow_accepted {world : World} {write : Store.Write}
    (accepted : world.store.accepts write = true) (now : String) :
    ∃ store, world.store.SameTables store ∧ world.follow now (.wroteStore write) =
      .ok { world with store, effects := world.effects ++ [.wroteStore write] } := by
  obtain ⟨store, wrote⟩ := Store.accepts_iff.mp accepted
  exact ⟨store, Store.sameTables_write wrote, follow_wroteStore.mpr ⟨store, wrote, rfl⟩⟩

theorem follow_refused {world : World} {write : Store.Write}
    (refused : world.store.accepts write = false) :
    world.follow now (.wroteStore write) = .error .store := by
  cases followed : world.follow now (.wroteStore write) with
  | ok next =>
      obtain ⟨store, wrote, _next⟩ := follow_wroteStore.mp followed
      rw [Store.accepts_iff.mpr ⟨store, wrote⟩] at refused
      cases refused
  | error failure => rw [follow_wroteStore_error followed]

/-- A change takes place in both worlds or in neither. -/
theorem Abreast.follow (abreast : Abreast sameTables left right) {effect : Effect}
    (unscored : ¬effect.IsScored) (now : String) :
    (∃ next next', left.follow now effect = .ok next ∧ right.follow now effect = .ok next' ∧
        Abreast sameTables next next') ∨
      (∃ failure, left.follow now effect = .error failure ∧
        right.follow now effect = .error failure) ∨
      ¬sameTables ∧ (left.follow now effect = .error .store ∨
        right.follow now effect = .error .store) := by
  cases effect with
  | madeParent path =>
      rw [World.follow, World.follow, abreast.files, abreast.effects]
      cases right.files.makeParent path with
      | error fault => exact .inr (.inl ⟨_, rfl, rfl⟩)
      | ok files => exact .inl ⟨_, _, rfl, rfl, rfl, rfl, abreast.asked, abreast.tables⟩
  | wroteFile path text =>
      rw [World.follow, World.follow, abreast.files, abreast.effects]
      cases right.files.write path text.toUTF8 with
      | error fault => exact .inr (.inl ⟨_, rfl, rfl⟩)
      | ok files => exact .inl ⟨_, _, rfl, rfl, rfl, rfl, abreast.asked, abreast.tables⟩
  | wroteStore write =>
      cases accepted : left.store.accepts write with
      | true =>
          cases accepted' : right.store.accepts write with
          | true =>
              obtain ⟨store, kept, followed⟩ := follow_accepted accepted now
              obtain ⟨store', kept', followed'⟩ := follow_accepted accepted' now
              refine .inl ⟨_, _, followed, followed', abreast.files, ?_, abreast.asked, ?_⟩
              · rw [abreast.effects]
              · exact fun even => (kept.symm.trans (abreast.tables even)).trans kept'
          | false =>
              refine .inr (.inr ⟨fun even => ?_, .inr (follow_refused accepted')⟩)
              rw [(abreast.tables even).accepts unscored, accepted'] at accepted
              cases accepted
      | false =>
          cases accepted' : right.store.accepts write with
          | true =>
              refine .inr (.inr ⟨fun even => ?_, .inl (follow_refused accepted)⟩)
              rw [(abreast.tables even).accepts unscored, accepted'] at accepted
              cases accepted
          | false => exact .inr (.inl ⟨_, follow_refused accepted, follow_refused accepted'⟩)

/-- Changes are carried out in both worlds up to the same one. -/
theorem Abreast.carry {α : Type} (abreast : Abreast sameTables left right) {effects : List Effect}
    (unscored : ∀ effect ∈ effects, ¬effect.IsScored) (result : Except Failure α) :
    InStep sameTables Eq (carry now result effects left) (carry now result effects right) := by
  induction effects generalizing left right with
  | nil =>
      cases result with
      | ok value => exact .ended rfl abreast
      | error failure => exact .failed failure abreast
  | cons effect rest ih =>
      have others : ∀ other ∈ rest, ¬other.IsScored :=
        fun other mem => unscored other (List.mem_cons_of_mem _ mem)
      have broken : ∀ {world : World}, world.follow now effect = .error .store →
          (carry now result (effect :: rest) world).1 = .error .store :=
        fun failed => congrArg Prod.fst (carry_of_error failed result rest)
      rcases abreast.follow (unscored effect List.mem_cons_self) now with
        ⟨next, next', followed, followed', onward⟩ | ⟨failure, failed, failed'⟩ | ⟨uneven, failed⟩
      · rw [carry_follow followed, carry_follow followed']
        exact ih onward others
      · rw [carry_of_error failed, carry_of_error failed']
        exact .failed failure abreast
      · exact .uneven uneven (failed.imp broken broken)

section Steps

variable {α β : Type} {related : α → α → Prop} {related' : β → β → Prop} {step step' : Step α}

theorem run_bind_of_error {step : Step α} {next : α → Step β} {world : World} {failure : Failure}
    (failed : (step.run world).1 = .error failure) :
    ((step >>= next).run world).1 = .error failure := by
  rw [run_bind]
  rcases ran : step.run world with ⟨result, after⟩
  rw [ran] at failed
  cases failed
  rfl

/-- Steps one after another go side by side if each of them does. -/
theorem InStep.bind {next next' : α → Step β}
    (first : InStep sameTables related (step.run left) (step'.run right))
    (second : ∀ value value' left right, related value value' → Abreast sameTables left right →
      InStep sameTables related' ((next value).run left) ((next' value').run right)) :
    InStep sameTables related' ((step >>= next).run left) ((step' >>= next').run right) := by
  have broken : (step.run left).1 = .error .store → ((step >>= next).run left).1 = .error .store :=
    run_bind_of_error
  have broken' : (step'.run right).1 = .error .store →
      ((step' >>= next').run right).1 = .error .store :=
    run_bind_of_error
  rw [run_bind, run_bind] at *
  generalize step.run left = one at first broken ⊢
  generalize step'.run right = other at first broken' ⊢
  cases first with
  | ended results abreast => exact second _ _ _ _ results abreast
  | failed failure abreast => exact .failed failure abreast
  | uneven uneven failed => exact .uneven uneven (failed.imp broken broken')

theorem Abreast.ask (abreast : Abreast sameTables left right) (question : Question)
    (answer : Except Failure α) :
    InStep sameTables Eq ((Pass.ask question answer).run left)
      ((Pass.ask question answer).run right) := by
  rw [run_ask, run_ask]
  have next : Abreast sameTables { left with asked := left.asked ++ [question] }
      { right with asked := right.asked ++ [question] } :=
    ⟨abreast.files, abreast.effects, congrArg (· ++ [question]) abreast.asked, abreast.tables⟩
  cases answer with
  | ok value => exact .ended rfl next
  | error failure => exact .failed failure next

/-- A single change is carried out like changes are. -/
theorem run_perform_eq (pass : Pass) (effect : Effect) (world : World) :
    (pass.perform effect).run world = carry pass.now (.ok ()) [effect] world := by
  rw [run_perform, carry]
  cases world.follow pass.now effect <;> rfl

theorem Abreast.perform (abreast : Abreast sameTables left right) (pass : Pass) (effect : Effect)
    (unscored : ¬effect.IsScored) :
    InStep sameTables Eq ((pass.perform effect).run left) ((pass.perform effect).run right) := by
  rw [run_perform_eq, run_perform_eq]
  exact abreast.carry (fun other mem => List.mem_singleton.mp mem ▸ unscored) (.ok ())

/-- Two passes find what they find of their markers, or neither can look for it. -/
theorem Abreast.marker (abreast : Abreast sameTables left right) (repository : String) :
    InStep sameTables (fun _ _ => True) ((look (·.marker? repository)).run left)
      ((look (·.marker? repository)).run right) := by
  rw [run_look, run_look, Store.marker?, Store.marker?]
  have even : sameTables → left.store.markers.isSome = right.store.markers.isSome :=
    fun holds => (abreast.tables holds).markers
  cases held : left.store.markers with
  | some rows =>
      cases held' : right.store.markers with
      | some rows' => exact .ended trivial abreast
      | none =>
          refine .uneven (fun holds => ?_) (.inr rfl)
          have same := even holds
          rw [held, held'] at same
          cases same
  | none =>
      cases held' : right.store.markers with
      | some rows' =>
          refine .uneven (fun holds => ?_) (.inl rfl)
          have same := even holds
          rw [held, held'] at same
          cases same
      | none => exact .failed .store abreast

end Steps

end SideBySide

end Pass

end DocDrift
