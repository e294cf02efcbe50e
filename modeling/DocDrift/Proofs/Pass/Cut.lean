import DocDrift.Proofs.Pass.Rest

/-!
Passes that are cut off. A pass lists what it changed, so the state after any part of its changes can
be made again from the state before. What settling files keeps is kept up to wherever a pass is cut
off.
-/

set_option autoImplicit false

namespace DocDrift.Pass

/-! ### Parts of what was changed -/

section Carry

variable {now : String} {world last : World}

theorem follow_effects {effect : Effect} {next : World}
    (followed : world.follow now effect = .ok next) :
    next.effects = world.effects ++ [effect] := by
  cases effect with
  | madeParent path =>
      obtain ⟨files, _made, rfl⟩ := follow_madeParent.mp followed
      rfl
  | wroteFile path text =>
      obtain ⟨files, _wrote, rfl⟩ := follow_wroteFile.mp followed
      rfl
  | wroteStore write =>
      obtain ⟨store, _wrote, rfl⟩ := follow_wroteStore.mp followed
      rfl

/-- If all changes succeed, all of them are listed. -/
theorem carry_effects {α : Type} {result : Except Failure α} {effects : List Effect} {value : α}
    (carried : carry now result effects world = (.ok value, last)) :
    last.effects = world.effects ++ effects := by
  induction effects generalizing world with
  | nil => rw [carry_nil_ok carried, List.append_nil]
  | cons effect rest ih =>
      obtain ⟨next, followed, carriedRest⟩ := carry_cons_ok carried
      rw [ih carriedRest, follow_effects followed, List.append_assoc, List.singleton_append]

/-- What is listed as changed is the part of the changes that succeeded. -/
theorem carry_reached {α : Type} {result ended : Except Failure α} {effects : List Effect}
    (carried : carry now result effects world = (ended, last)) :
    ∃ count, count ≤ effects.length ∧ last.effects = world.effects ++ effects.take count ∧
      carry now (.ok ()) (effects.take count) world = (.ok (), last) := by
  induction effects generalizing world with
  | nil =>
      cases carried
      exact ⟨0, Nat.le_refl 0, (List.append_nil _).symm, rfl⟩
  | cons effect rest ih =>
      rw [carry] at carried
      cases followed : world.follow now effect with
      | error failure =>
          rw [followed] at carried
          cases carried
          exact ⟨0, Nat.zero_le _, (List.append_nil _).symm, rfl⟩
      | ok next =>
          rw [followed] at carried
          obtain ⟨count, within, listed, part⟩ := ih carried
          refine ⟨count + 1, Nat.succ_le_succ within, ?_, ?_⟩
          · rw [listed, follow_effects followed, List.append_assoc]
            rfl
          · rw [List.take_succ_cons, carry, followed]
            exact part

theorem carry_append {α : Type} {before : World} {effects : List Effect} (more : List Effect)
    (result : Except Failure α)
    (carried : carry now (.ok ()) effects before = (.ok (), world)) :
    carry now result (effects ++ more) before = carry now result more world := by
  induction effects generalizing before with
  | nil =>
      cases carried
      rfl
  | cons effect rest ih =>
      obtain ⟨next, followed, carriedRest⟩ := carry_cons_ok carried
      rw [List.cons_append, carry_follow followed, ih carriedRest]

/-- Changes that succeed can be cut off anywhere. -/
theorem carry_take {effects : List Effect}
    (carried : carry now (.ok ()) effects world = (.ok (), last)) (count : Nat) :
    ∃ left, carry now (.ok ()) (effects.take count) world = (.ok (), left) := by
  induction effects generalizing world count with
  | nil => exact ⟨world, by rw [List.take_nil, carry]⟩
  | cons effect rest ih =>
      cases count with
      | zero => exact ⟨world, rfl⟩
      | succ count =>
          obtain ⟨next, followed, carriedRest⟩ := carry_cons_ok carried
          obtain ⟨left, part⟩ := ih carriedRest count
          refine ⟨left, ?_⟩
          rw [List.take_succ_cons, carry_follow followed, part]

end Carry

/-- Two worlds with the same files and the same store. -/
structure Matches (left right : World) : Prop where
  files : left.files = right.files
  store : left.store = right.store

namespace Matches

theorem refl (world : World) : Matches world world :=
  ⟨rfl, rfl⟩

theorem symm {left right : World} (same : Matches left right) : Matches right left :=
  ⟨same.files.symm, same.store.symm⟩

theorem trans {left middle right : World} (first : Matches left middle)
    (second : Matches middle right) : Matches left right :=
  ⟨first.files.trans second.files, first.store.trans second.store⟩

theorem follow {left right next : World} {now : String} {effect : Effect}
    (same : Matches left right) (followed : left.follow now effect = .ok next) :
    ∃ next', right.follow now effect = .ok next' ∧ Matches next next' := by
  cases effect with
  | madeParent path =>
      obtain ⟨files, made, rfl⟩ := follow_madeParent.mp followed
      rw [same.files] at made
      exact ⟨_, follow_madeParent.mpr ⟨files, made, rfl⟩, rfl, same.store⟩
  | wroteFile path text =>
      obtain ⟨files, wrote, rfl⟩ := follow_wroteFile.mp followed
      rw [same.files] at wrote
      exact ⟨_, follow_wroteFile.mpr ⟨files, wrote, rfl⟩, rfl, same.store⟩
  | wroteStore write =>
      obtain ⟨store, wrote, rfl⟩ := follow_wroteStore.mp followed
      rw [same.store] at wrote
      exact ⟨_, follow_wroteStore.mpr ⟨store, wrote, rfl⟩, same.files, rfl⟩

theorem carry {left right last : World} {now : String} {effects : List Effect}
    (same : Matches left right)
    (carried : Pass.carry now (.ok ()) effects left = (.ok (), last)) :
    ∃ last', Pass.carry now (.ok ()) effects right = (.ok (), last') ∧ Matches last last' := by
  induction effects generalizing left right with
  | nil =>
      cases carried
      exact ⟨right, rfl, same⟩
  | cons effect rest ih =>
      rw [Pass.carry] at carried
      cases followed : left.follow now effect with
      | error failure =>
          rw [followed] at carried
          cases carried
      | ok next =>
          rw [followed] at carried
          obtain ⟨next', followed', sameNext⟩ := same.follow followed
          obtain ⟨last', carried', sameLast⟩ := ih sameNext carried
          refine ⟨last', ?_, sameLast⟩
          rw [Pass.carry, followed']
          exact carried'

end Matches

/-! ### Where a pass may be cut off -/

/-- While files are settled from a world, the pass is cut off before a change that would succeed. -/
inductive CutOff (pass : Pass) (base : Option String) (left next : World) (effect : Effect) :
    List String → World → Prop
  | inside (path : String) (rest : List String) (world begun : World) (count : Nat)
      (same : Matches begun world)
      (part : carry pass.now (.ok ())
        ((pass.course path base world.files world.store).effects.take count) begun =
          (.ok (), left))
      (here : (pass.course path base world.files world.store).effects[count]? = some effect)
      (followed : left.follow pass.now effect = .ok next) :
      CutOff pass base left next effect (path :: rest) world
  | beyond (path : String) (rest : List String) (world middle : World) (outcome : Outcome)
      (settled : pass.settled path base world = (.ok outcome, middle))
      (cut : CutOff pass base left next effect rest middle) :
      CutOff pass base left next effect (path :: rest) world

section CutOff

variable {pass : Pass} {path : String} {base : Option String} {paths : List String}
  {world last : World}

/-- What settling a file lists is a part of its course. -/
theorem settled_reached {outcome : Outcome}
    (settled : pass.settled path base world = (.ok outcome, last)) :
    ∃ count last',
      count ≤ (pass.course path base world.files world.store).effects.length ∧
      last.effects = world.effects ++
        (pass.course path base world.files world.store).effects.take count ∧
      carry pass.now (.ok ())
        ((pass.course path base world.files world.store).effects.take count) world =
          (.ok (), last') ∧
      Matches last last' := by
  obtain ⟨begun, ended, files, store, listed, carried, _sound⟩ := settled_carriage settled
  obtain ⟨count, within, reached, part⟩ := carry_reached carried
  have same : Matches begun world := ⟨files, store⟩
  obtain ⟨last', part', sameLast⟩ := same.carry part
  refine ⟨count, last', within, ?_, part', sameLast⟩
  rw [reached, listed]

/-- What settling files lists can be followed again. -/
theorem settledAll_reached {outcomes : List Outcome}
    (settled : pass.settledAll base paths world = (.ok outcomes, last)) :
    ∃ done last', last.effects = world.effects ++ done ∧
      carry pass.now (.ok ()) done world = (.ok (), last') ∧ Matches last last' := by
  induction paths generalizing world outcomes with
  | nil =>
      obtain ⟨_none, rfl⟩ := settledAll_nil settled
      exact ⟨[], _, (List.append_nil _).symm, rfl, .refl _⟩
  | cons path rest ih =>
      obtain ⟨outcome, others, middle, first, rested, rfl⟩ := settledAll_cons settled
      obtain ⟨count, middle', _within, listed, part, sameMiddle⟩ := settled_reached first
      obtain ⟨more, last', listedRest, partRest, sameLast⟩ := ih rested
      obtain ⟨final, partFinal, sameFinal⟩ := sameMiddle.carry partRest
      refine ⟨(pass.course path base world.files world.store).effects.take count ++ more, final,
        ?_, ?_, sameLast.trans sameFinal⟩
      · rw [listedRest, listed, List.append_assoc]
      · rw [carry_append _ _ part, partFinal]

theorem carry_concat {now : String} {effects : List Effect} {effect : Effect} {left next : World}
    (part : carry now (.ok ()) effects world = (.ok (), left))
    (whole : carry now (.ok ()) (effects ++ [effect]) world = (.ok (), next)) :
    left.follow now effect = .ok next := by
  rw [carry_append _ _ part, carry] at whole
  cases followed : left.follow now effect with
  | error failure =>
      rw [followed] at whole
      cases whole
  | ok reached =>
      rw [followed] at whole
      cases whole
      rfl

theorem take_of_inside {effects more : List Effect} {count reach : Nat} (inside : count < reach)
    (within : reach ≤ effects.length) :
    (effects.take reach ++ more).take count = effects.take count := by
  rw [List.take_append_of_le_length, List.take_take, Nat.min_eq_left (Nat.le_of_lt inside)]
  rw [List.length_take]
  omega

/-- A pass that is cut off before all is listed is cut off inside one of the files. -/
theorem cutOff_of_carry {outcomes : List Outcome} {done : List Effect} {begun left : World}
    {count : Nat} (settled : pass.settledAll base paths world = (.ok outcomes, last))
    (listed : last.effects = world.effects ++ done) (within : count < done.length)
    (same : Matches begun world)
    (part : carry pass.now (.ok ()) (done.take count) begun = (.ok (), left)) :
    ∃ effect left' next, done[count]? = some effect ∧
      pass.CutOff base left' next effect paths world ∧ Matches left left' := by
  induction paths generalizing world outcomes done begun count with
  | nil =>
      obtain ⟨_none, rfl⟩ := settledAll_nil settled
      rw [List.self_eq_append_right] at listed
      rw [listed] at within
      cases within
  | cons path rest ih =>
      obtain ⟨outcome, others, middle, first, rested, rfl⟩ := settledAll_cons settled
      obtain ⟨reach, middle', withinReach, listedFirst, partFirst, sameMiddle⟩ :=
        settled_reached first
      obtain ⟨more, _last, listedRest, _partRest, _sameLast⟩ := settledAll_reached rested
      rw [listedRest, listedFirst, List.append_assoc] at listed
      have split := List.append_cancel_left listed
      subst split
      by_cases inside : count < reach
      · have short : count < (pass.course path base world.files world.store).effects.length := by
          omega
        obtain ⟨left', part', sameLeft⟩ := same.carry part
        obtain ⟨next, whole⟩ := carry_take partFirst (count + 1)
        rw [take_of_inside inside withinReach] at part'
        rw [List.take_take, Nat.min_eq_left inside, List.take_succ_eq_append_getElem short] at whole
        refine ⟨_, left', next, ?_, .inside path rest world world count (.refl _) part' ?_
          (carry_concat part' whole), sameLeft⟩
        · rw [List.getElem?_append_left (by rw [List.length_take]; omega),
            List.getElem?_take_of_lt inside]
          exact List.getElem?_eq_getElem short
        · exact List.getElem?_eq_getElem short
      · have start : ((pass.course path base world.files world.store).effects.take reach).length =
            reach := List.length_take_of_le withinReach
        obtain ⟨middle'', partBegun, sameBegun⟩ := same.symm.carry partFirst
        rw [List.take_append, start, List.take_of_length_le (by omega),
          carry_append _ _ partBegun] at part
        have shorter : count - reach < more.length := by
          rw [List.length_append, start] at within
          omega
        have sameHere : Matches middle'' middle := (sameMiddle.trans sameBegun).symm
        obtain ⟨effect, left', next, here, cut, sameLeft⟩ := ih rested listedRest shorter sameHere part
        refine ⟨effect, left', next, ?_, .beyond path rest world middle outcome first cut, sameLeft⟩
        rw [List.getElem?_append_right (by omega), start, here]

theorem cutOff_follow {left next : World} {effect : Effect}
    (cut : pass.CutOff base left next effect paths world) :
    left.follow pass.now effect = .ok next := by
  induction cut with
  | inside path rest world begun count same part here followed => exact followed
  | beyond path rest world middle outcome settled cut ih => exact ih

/-- What documenting and scoring files keep is kept up to where a pass is cut off. -/
theorem cutOff_keeps {kept : World → Prop} {left next : World} {effect : Effect}
    (keeps : ∀ path ∈ paths, pass.Kept path kept)
    (moves : ∀ here there : World, Matches here there → kept here → kept there)
    (cut : pass.CutOff base left next effect paths world) (begins : kept world) : kept left := by
  induction cut with
  | inside path rest world begun count same part here followed =>
      have changes := (course_changes pass path base begun.files begun.store).take count
      rw [same.files, same.store] at changes
      have carried := changes_keep (keeps path List.mem_cons_self)
        (by rw [same.files, same.store]; exact changes) (moves world begun same.symm begins)
        (.ok () : Except Failure Unit)
      rw [part] at carried
      exact carried
  | beyond path rest world middle outcome settled cut ih =>
      refine ih (fun other mem => keeps other (List.mem_cons_of_mem _ mem)) ?_
      have carried := settled_keeps base (keeps path List.mem_cons_self) begins
      rw [settled] at carried
      exact carried

end CutOff

end DocDrift.Pass
