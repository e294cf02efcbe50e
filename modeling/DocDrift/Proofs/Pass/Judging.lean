import DocDrift.Proofs.Pass.Cut
import DocDrift.Proofs.Pass.Forced
import DocDrift.Proofs.Pass.Verdicts
import DocDrift.Proofs.Scoring.Context

/-!
Verdicts and analyses. A change is scored in two places: a pass knows which symbols are documented,
an analysis of two texts does not. Both find the same change, and what a pass keeps as its verdict
differs from the analysis in the term for the symbols only. So it does for every verdict of a pass,
with the symbols that were documented when the pass came to it.
-/

set_option autoImplicit false

namespace DocDrift

/-- The private members on either side of a change, if both sides are accepted. -/
def Analysis.privatesBetween (old new : String) : List String :=
  match Summary.ofSource old, Summary.ofSource new with
  | .ok before, .ok after => before.privateMembers ++ after.privateMembers
  | _, _ => []

namespace Store.Verdict

/-- The outcome of scoring that a verdict keeps. -/
def significance (verdict : Verdict) : Significance :=
  ⟨verdict.score, verdict.classification, verdict.recommendation⟩

/-- A verdict on the change between two texts is what the analysis of the two says, but for what is
known of the symbols: some are documented, and the private ones are those of the texts. -/
def AgreesWith (verdict : Verdict) (policy : Policy) (old new : String)
    (documented : List String) : Prop :=
  Significance.Informed policy (TextChange.between old new) (Analysis.deltaBetween old new)
    ⟨documented, Analysis.privatesBetween old new⟩ verdict.significance
    (Analysis.between policy old new).result

end Store.Verdict

namespace Pass

/-! ### Judging one change -/

/-- The verdict on a change between two texts of which some symbols are documented. -/
def verdictBetween (pass : Pass) (old new : String) (documented : List String) : Store.Verdict :=
  let result := Significance.ofValid pass.config.scoring (TextChange.between old new)
    (Analysis.deltaBetween old new) ⟨documented, Analysis.privatesBetween old new⟩
  ⟨result.score, result.classification, result.recommendation, pass.now⟩

theorem significance_verdictBetween (pass : Pass) (old new : String) (documented : List String) :
    (pass.verdictBetween old new documented).significance =
      Significance.ofValid pass.config.scoring (TextChange.between old new)
        (Analysis.deltaBetween old new) ⟨documented, Analysis.privatesBetween old new⟩ := by
  rw [verdictBetween, Store.Verdict.significance]

theorem verdictBetween_agrees (pass : Pass) (old new : String) (documented : List String) :
    (pass.verdictBetween old new documented).AgreesWith pass.config.scoring old new documented := by
  have scored := Analysis.ofValid_between pass.config.scoring old new
  rw [Store.Verdict.AgreesWith, significance_verdictBetween, Analysis.between, scored, scored]
  dsimp only
  exact Significance.of_informed _ _

theorem freshVerdict_eq (pass : Pass) (old : String) (bytes : ByteArray)
    (documented : List String) :
    pass.freshVerdict old bytes documented =
      pass.verdictBetween old (Text.decodeLossy bytes) documented := by
  unfold freshVerdict verdictBetween structureOf summaryOf Analysis.deltaBetween
    Analysis.privatesBetween
  cases Summary.ofSource old <;> cases Summary.ofSource (Text.decodeLossy bytes) <;> rfl

section Judge

variable {pass : Pass} {target old new digest : String} {world : World}
  {documented : NameMap Store.SymbolRow}

theorem run_judge_fresh
    (unknown : world.store.verdict? ⟨target, Digest.ofBytes old.toUTF8, digest⟩ = .ok none)
    (listed : world.store.symbolsOf target = .ok documented) :
    (pass.judge target old new digest (Summary.ofSource new).toOption).run world =
      match world.follow pass.now
        (.wroteStore (.scored ⟨target, Digest.ofBytes old.toUTF8, digest⟩
          (pass.verdictBetween old new documented.names))) with
      | .ok next => (.ok (pass.verdictBetween old new documented.names), next)
      | .error failure => (.error failure, world) := by
  unfold judge verdictBetween Analysis.deltaBetween Analysis.privatesBetween
  rw [run_bind, run_look, unknown]
  cases Summary.ofSource old <;> cases Summary.ofSource new
  all_goals
    dsimp only [Except.toOption]
    rw [run_bind, run_look, listed]
    exact run_perform_return pass _ _ world

/-- A change without a verdict gets one, and it is kept. -/
theorem judged_of_fresh (pass : Pass) (new : String)
    (unknown : world.store.verdict? ⟨target, Digest.ofBytes old.toUTF8, digest⟩ = .ok none)
    (listed : world.store.symbolsOf target = .ok documented) :
    ∃ next, (pass.judge target old new digest (Summary.ofSource new).toOption).run world =
        (.ok (pass.verdictBetween old new documented.names), next) ∧
      next.store.analysisOf? ⟨target, Digest.ofBytes old.toUTF8, digest⟩ =
        some (pass.verdictBetween old new documented.names).toRow := by
  have accepted : world.store.accepts
      (.scored ⟨target, Digest.ofBytes old.toUTF8, digest⟩
        (pass.verdictBetween old new documented.names)) = true := by
    rw [Store.verdict?_eq] at unknown
    unfold Store.accepts
    cases held : world.store.analyses with
    | none =>
        rw [held] at unknown
        cases unknown
    | some analyses => rfl
  obtain ⟨store, wrote⟩ : ∃ store, world.store.write pass.now _ = .ok store :=
    Store.accepts_iff.mp accepted
  have followed := follow_wroteStore.mpr ⟨store, wrote, rfl⟩
  rw [run_judge_fresh unknown listed, followed]
  refine ⟨_, rfl, ?_⟩
  rw [Store.analysisOf?_write wrote, Store.Write.analysisAfter, if_pos rfl]

end Judge

/-! ### Where verdicts come from -/

/-- A verdict that a pass gives in view of a store: none is kept there for the change, and it agrees
with the analysis of the texts, in what the store has of the symbols. -/
inductive Judged (pass : Pass) (store : Store) : Store.Pair → Store.Verdict → Prop
  | fresh (path commit old : String) (bytes : ByteArray) (documented : NameMap Store.SymbolRow)
      (verdict : Store.Verdict) (present : pass.history.textAt path commit = .ok (some old))
      (unknown : store.verdict? (pass.pairOf path old bytes) = .ok none)
      (listed : store.symbolsOf (pass.target path) = .ok documented)
      (agrees : verdict.AgreesWith pass.config.scoring old (Text.decodeLossy bytes)
        documented.names) :
      Judged pass store (pass.pairOf path old bytes) verdict

/-- The changes of an evaluation that keep verdicts: there is one at most, and it is the first. -/
inductive Verdicts (pass : Pass) (store : Store) : List Effect → Prop
  | none (effects : List Effect) (unscored : ∀ effect ∈ effects, ¬effect.IsScored) :
      Verdicts pass store effects
  | first (pair : Store.Pair) (verdict : Store.Verdict) (rest : List Effect)
      (judged : pass.Judged store pair verdict) (unscored : ∀ effect ∈ rest, ¬effect.IsScored) :
      Verdicts pass store (.wroteStore (.scored pair verdict) :: rest)

section Courses

variable {pass : Pass} {path : String} {base : Option String} {files : FileTree} {store : Store}
  {bytes : ByteArray}

theorem verdicts_still (result : Except Failure Outcome) :
    pass.Verdicts store (Course.still result).effects :=
  .none [] (fun _ mem => nomatch mem)

theorem judgeCourse_verdicts {commit old : String}
    (read : files.read (pass.target path) = .ok bytes)
    (present : pass.history.textAt path commit = .ok (some old)) :
    pass.Verdicts store (pass.judgeCourse path bytes old store).effects := by
  have judged := judgeCourse_judgement pass path bytes old store
  generalize pass.judgeCourse path bytes old store = course at judged ⊢
  cases judged with
  | undecided failure failed => exact verdicts_still _
  | kept verdict known =>
      exact .none _ (fun effect mem => (verdictCourse_documents read verdict effect mem).unscored)
  | fresh documented unknown listed =>
      rw [Course.afterEffect_effects]
      refine .first _ _ _ (.fresh path commit old bytes documented _ present unknown listed ?_)
        (fun effect mem => (verdictCourse_documents read _ effect mem).unscored)
      rw [freshVerdict_eq]
      exact verdictBetween_agrees pass old (Text.decodeLossy bytes) documented.names

theorem course_verdicts (pass : Pass) (path : String) (base : Option String) (files : FileTree)
    (store : Store) : pass.Verdicts store (pass.course path base files store).effects := by
  have evaluated := course_evaluation pass path base files store
  generalize pass.course path base files store = course at evaluated ⊢
  cases evaluated with
  | baseless bytes read due baseless =>
      exact .none _ (fun effect mem => (documentCourse_documents read none effect mem).unscored)
  | added bytes commit read due known told absent =>
      rw [Course.afterQuestion_effects]
      exact .none _ (fun effect mem => (documentCourse_documents read none effect mem).unscored)
  | changed bytes commit old read due known told present =>
      rw [Course.afterQuestion_effects]
      exact judgeCourse_verdicts read present
  | untold commit failure known told failed =>
      rw [Course.afterQuestion_effects]
      exact verdicts_still _
  | _ => exact verdicts_still _

end Courses

/-! ### Whole passes -/

/-- Where a pass is whose changes so far lead there from where it began, each verdict among them
being given in view of the store that the changes before it left. -/
structure Traced (pass : Pass) (start world : World) : Prop where
  reached : ∃ reached, carry pass.now (.ok ()) world.effects start = (.ok (), reached) ∧
    Matches reached world
  judged : ∀ before pair verdict rest,
    world.effects = before ++ .wroteStore (.scored pair verdict) :: rest →
    ∃ reached, carry pass.now (.ok ()) before start = (.ok (), reached) ∧
      pass.Judged reached.store pair verdict

section Traced

variable {pass : Pass} {start world next : World}

/-- One more change, which is a verdict on what the store then holds if it is one at all. -/
theorem Traced.follow {effect : Effect} (traced : pass.Traced start world)
    (followed : world.follow pass.now effect = .ok next)
    (judged : ∀ pair verdict, effect = .wroteStore (.scored pair verdict) →
      pass.Judged world.store pair verdict) : pass.Traced start next := by
  obtain ⟨reached, carried, same⟩ := traced.reached
  obtain ⟨next', followed', sameNext⟩ := same.symm.follow followed
  have listed := follow_effects followed
  refine ⟨⟨next', ?_, sameNext.symm⟩, ?_⟩
  · rw [listed, carry_append _ _ carried, carry_follow followed', carry]
  · intro before pair verdict rest split
    rw [listed] at split
    rcases List.eq_nil_or_concat rest with rfl | ⟨earlier, last, rfl⟩
    · obtain ⟨sameBefore, sameEffect⟩ := List.append_inj' split rfl
      refine ⟨reached, sameBefore ▸ carried, ?_⟩
      rw [same.store]
      exact judged pair verdict (List.singleton_inj.mp sameEffect)
    · rw [List.concat_eq_append, ← List.cons_append, ← List.append_assoc] at split
      exact traced.judged before pair verdict earlier (List.append_inj' split rfl).1

theorem Traced.unscored {effects : List Effect} {result : Except Failure Outcome}
    (traced : pass.Traced start world) (unscored : ∀ effect ∈ effects, ¬effect.IsScored) :
    pass.Traced start (carry pass.now result effects world).2 := by
  refine carry_keeps (pass.Traced start) result ?_ traced
  intro effect mem before after followed traced
  refine traced.follow followed ?_
  rintro pair verdict rfl
  exact absurd trivial (unscored _ mem)

theorem settled_traced {path : String} {base : Option String} (traced : pass.Traced start world) :
    pass.Traced start (pass.settled path base world).2 := by
  rw [settled_world, Course.carriedOut]
  have verdicts := course_verdicts pass path base world.files world.store
  generalize pass.course path base world.files world.store = course at verdicts ⊢
  have asking : pass.Traced start { world with asked := world.asked ++ course.asked } :=
    ⟨traced.reached.imp fun _ held => ⟨held.1, held.2.files, held.2.store⟩, traced.judged⟩
  obtain ⟨asked, effects, result⟩ := course
  cases verdicts with
  | none effects unscored => exact asking.unscored unscored
  | first pair verdict rest judged unscored =>
      rw [carry]
      split
      case h_1 next followed =>
        refine Traced.unscored (asking.follow followed ?_) unscored
        intro other given same
        cases same
        exact judged
      case h_2 failure failed => exact asking

theorem run_traced (pass : Pass) (files : FileTree) (store : Store) :
    pass.Traced (World.start files store) (pass.run files store).2 := by
  refine run_each (pass.Traced (World.start files store)) ?_ ?_ ?_
  · intro asked
    refine ⟨⟨_, rfl, rfl, rfl⟩, ?_⟩
    intro before pair verdict rest split
    exact absurd split.symm (List.append_ne_nil_of_right_ne_nil _ (List.cons_ne_nil _ _))
  · intro path base world traced
    exact settled_traced traced
  · intro head before after followed traced
    refine traced.follow followed ?_
    intro pair verdict same
    cases same

end Traced

/-- The two ways to score a change agree. A change without a verdict is judged whatever the texts
are: the verdict that is kept has the classification of the analysis of the texts, the score and the
recommendation too where the symbols have no say, and otherwise its points differ by the bonus or
the penalty, exactly so where they stay in their range. Every verdict of a pass is such a
judgement, in view of the store that the changes before it left. -/
theorem judged_as_analysed :
    (∀ (pass : Pass) (target old new digest : String) (world : World)
      (documented : NameMap Store.SymbolRow),
      world.store.verdict? ⟨target, Digest.ofBytes old.toUTF8, digest⟩ = .ok none →
      world.store.symbolsOf target = .ok documented →
      ∃ verdict next,
        (pass.judge target old new digest (Summary.ofSource new).toOption).run world =
          (.ok verdict, next) ∧
        next.store.analysisOf? ⟨target, Digest.ofBytes old.toUTF8, digest⟩ =
          some verdict.toRow ∧
        verdict.AgreesWith pass.config.scoring old new documented.names) ∧
    ∀ (pass : Pass) (files : FileTree) (store : Store) (before rest : List Effect)
      (pair : Store.Pair) (verdict : Store.Verdict),
      (pass.run files store).2.effects = before ++ .wroteStore (.scored pair verdict) :: rest →
      ∃ reached, carry pass.now (.ok ()) before (World.start files store) = (.ok (), reached) ∧
        pass.Judged reached.store pair verdict := by
  refine ⟨?_, ?_⟩
  · intro pass target old new digest world documented unknown listed
    obtain ⟨next, judged, kept⟩ := judged_of_fresh pass new unknown listed
    exact ⟨_, next, judged, kept, verdictBetween_agrees pass old new documented.names⟩
  · intro pass files store before rest pair verdict split
    exact (run_traced pass files store).judged before pair verdict rest split

theorem verdict?_of_unknown {store : Store} {pair : Store.Pair}
    (held : store.analyses.isSome = true) (unknown : store.analysisOf? pair = none) :
    store.verdict? pair = .ok none := by
  obtain ⟨analyses, held⟩ := Option.isSome_iff_exists.mp held
  rw [Store.verdict?_eq, held, unknown]

def bareFunction : String :=
  "<?php\nfunction f() \x7b\x7d\n"

def typedFunction : String :=
  "<?php\nfunction f(int $a) \x7b\x7d\n"

/-- What the change is kept under by which a documented function gains a parameter. -/
def signaturePair : Store.Pair :=
  ⟨"/site/a.php", Digest.ofBytes bareFunction.toUTF8, Digest.ofBytes typedFunction.toUTF8⟩

/-- What is known of the symbols when the function is judged. -/
def signatureContext (documented : List String) : SymbolContext :=
  ⟨documented, Analysis.privatesBetween bareFunction typedFunction⟩

/-- A documented function is touched, so the verdict has the bonus on top of the analysis, and the
points of both add up. -/
theorem judged_as_analysed_of_signature :
    ∃ verdict next documented,
      ((layoutPass "second").judge "/site/a.php" bareFunction typedFunction signaturePair.new
          (Summary.ofSource typedFunction).toOption).run
        (.start (layoutFiles typedFunction) layoutStore) = (.ok verdict, next) ∧
      documented = ["f"] ∧
      verdict.AgreesWith .standard bareFunction typedFunction documented ∧
      (TextChange.between bareFunction typedFunction).layoutOnly = false ∧
      (Analysis.deltaBetween bareFunction typedFunction).TouchesDocumented
        (signatureContext documented) ∧
      Significance.AddsUp .standard (TextChange.between bareFunction typedFunction)
        (Analysis.deltaBetween bareFunction typedFunction) (signatureContext documented) ∧
      Significance.AddsUp .standard (TextChange.between bareFunction typedFunction)
        (Analysis.deltaBetween bareFunction typedFunction) .empty := by
  have unknown : layoutStore.verdict? signaturePair = .ok none :=
    verdict?_of_unknown (by decide +kernel) (by decide +kernel)
  have names : (layoutStore.symbolsOf "/site/a.php").toOption.map NameMap.names = some ["f"] := by
    decide +kernel
  obtain ⟨documented, listed, same⟩ := Option.map_eq_some_iff.mp names
  obtain ⟨verdict, next, judged, _kept, agrees⟩ :=
    judged_as_analysed.1 (layoutPass "second") "/site/a.php" bareFunction typedFunction
      signaturePair.new (.start (layoutFiles typedFunction) layoutStore) documented unknown
      (ok_of_toOption listed)
  refine ⟨verdict, next, documented.names, judged, same, agrees, by decide +kernel, ?_, ?_,
    by decide +kernel⟩
  · rw [same]
    decide +kernel
  · rw [same]
    decide +kernel

end Pass

end DocDrift
