import DocDrift.Proofs.Change.Validity
import DocDrift.Proofs.Pass.Runs

/-!
The verdicts that a pass keeps. A pass scores a change only from a text that the history has to
contents that it read, so what it keeps is a score, never a refusal.
-/

set_option autoImplicit false

namespace DocDrift.Pass

/-! ### What is scored -/

/-- A verdict on a change of a file keeps the significance of that change: from the text of the file
at a commit to its contents, in what is known of its symbols. -/
inductive Scores (pass : Pass) : Store.Pair → Store.Verdict → Prop
  | change (path commit old : String) (bytes : ByteArray) (context : SymbolContext)
      (result : Significance) (present : pass.history.textAt path commit = .ok (some old))
      (scored : result = Significance.of pass.config.scoring
        (TextChange.between old (Text.decodeLossy bytes))
        (Analysis.deltaBetween old (Text.decodeLossy bytes)) context)
      (accepted : ∀ fault, result ≠ .unscored fault) :
      Scores pass (pass.pairOf path old bytes)
        ⟨result.score, result.classification, result.recommendation, pass.now⟩

theorem structureOf_delta (old : String) (bytes : ByteArray) :
    (structureOf old bytes).1 = Analysis.deltaBetween old (Text.decodeLossy bytes) := by
  unfold structureOf Analysis.deltaBetween summaryOf
  cases Summary.ofSource old <;> cases Summary.ofSource (Text.decodeLossy bytes) <;> rfl

theorem freshVerdict_scores {pass : Pass} {path commit old : String} (bytes : ByteArray)
    (documented : List String) (present : pass.history.textAt path commit = .ok (some old)) :
    pass.Scores (pass.pairOf path old bytes) (pass.freshVerdict old bytes documented) := by
  unfold freshVerdict
  rw [structureOf_delta, Analysis.ofValid_between]
  exact .change path commit old bytes _ _ present rfl (Significance.of_ne_unscored _ _ _ _)

section Courses

variable {pass : Pass} {path : String} {bytes : ByteArray} {pair : Store.Pair}
  {verdict : Store.Verdict}

theorem documentCourse_unscored (score : Option Nat) :
    .wroteStore (.scored pair verdict) ∉ (pass.documentCourse path bytes score).effects := by
  intro mem
  unfold documentCourse at mem
  cases generates : pass.generator path (Text.decodeLossy bytes) with
  | error failure =>
      rw [generates] at mem
      cases mem
  | ok generated =>
      rw [generates] at mem
      simp only [documenting, List.mem_cons, List.mem_append, reduceCtorEq, Effect.wroteStore.injEq,
        false_or] at mem
      rcases mem with listed | spent
      · obtain ⟨names, same⟩ := listed_of_mem_listing listed
        cases same
      · obtain ⟨usage, same⟩ := spent_of_mem_spending spent
        cases same

theorem verdictCourse_unscored (known : Store.Verdict) :
    .wroteStore (.scored pair verdict) ∉ (pass.verdictCourse path bytes known).effects := by
  unfold verdictCourse
  split
  · exact documentCourse_unscored _
  · exact List.not_mem_nil

theorem judgeCourse_scores {commit old : String} {store : Store}
    (present : pass.history.textAt path commit = .ok (some old))
    (mem : .wroteStore (.scored pair verdict) ∈ (pass.judgeCourse path bytes old store).effects) :
    pass.Scores pair verdict := by
  have judged := judgeCourse_judgement pass path bytes old store
  generalize pass.judgeCourse path bytes old store = course at judged mem
  cases judged with
  | undecided failure failed => cases mem
  | kept verdict known => exact absurd mem (verdictCourse_unscored _)
  | fresh documented unknown listed =>
      rw [Course.afterEffect_effects] at mem
      rcases List.mem_cons.mp mem with same | later
      · cases same
        exact freshVerdict_scores bytes documented.names present
      · exact absurd later (verdictCourse_unscored _)

/-- What an evaluation keeps as a verdict is one on the change that it found. -/
theorem course_scores {base : Option String} {files : FileTree} {store : Store}
    (mem : .wroteStore (.scored pair verdict) ∈ (pass.course path base files store).effects) :
    pass.Scores pair verdict := by
  have evaluated := course_evaluation pass path base files store
  generalize pass.course path base files store = course at evaluated mem
  cases evaluated with
  | baseless bytes read due baseless => exact absurd mem (documentCourse_unscored _)
  | added bytes commit read due known told absent =>
      rw [Course.afterQuestion_effects] at mem
      exact absurd mem (documentCourse_unscored _)
  | changed bytes commit old read due known told present =>
      rw [Course.afterQuestion_effects] at mem
      exact judgeCourse_scores present mem
  | _ => cases mem

end Courses

/-! ### What is kept -/

/-- Every verdict of a store is an earlier one or one that a pass scored. -/
def KeepsScored (pass : Pass) (before after : Store) : Prop :=
  ∀ pair row, after.analysisOf? pair = some row →
    before.analysisOf? pair = some row ∨
      ∃ verdict, row = verdict.toRow ∧ pass.Scores pair verdict

section Keeping

variable {pass : Pass} {store : Store}

theorem keepsScored_write {now : String} {before after : Store} {write : Store.Write}
    (scores : ∀ pair verdict, write = .scored pair verdict → pass.Scores pair verdict)
    (done : before.write now write = .ok after) (keeps : pass.KeepsScored store before) :
    pass.KeepsScored store after := by
  intro pair row present
  rw [Store.analysisOf?_write done] at present
  cases write with
  | scored other verdict =>
      rw [Store.Write.analysisAfter] at present
      split at present
      case isTrue same =>
        cases present
        exact .inr ⟨verdict, rfl, scores pair verdict (by rw [same])⟩
      case isFalse different => exact keeps pair row present
  | _ => exact keeps pair row present

theorem keepsScored_follow {now : String} {before after : World} {effect : Effect}
    (scores : ∀ pair verdict, effect = .wroteStore (.scored pair verdict) →
      pass.Scores pair verdict)
    (followed : before.follow now effect = .ok after)
    (keeps : pass.KeepsScored store before.store) : pass.KeepsScored store after.store := by
  cases effect with
  | madeParent path =>
      obtain ⟨files, _made, rfl⟩ := follow_madeParent.mp followed
      exact keeps
  | wroteFile path text =>
      obtain ⟨files, _wrote, rfl⟩ := follow_wroteFile.mp followed
      exact keeps
  | wroteStore write =>
      obtain ⟨next, wrote, rfl⟩ := follow_wroteStore.mp followed
      refine keepsScored_write ?_ wrote keeps
      rintro pair verdict rfl
      exact scores pair verdict rfl

theorem settled_keepsScored {path : String} {base : Option String} {world : World}
    (keeps : pass.KeepsScored store world.store) :
    pass.KeepsScored store (pass.settled path base world).2.store := by
  rw [settled_world]
  refine carry_keeps (fun world => pass.KeepsScored store world.store) _ ?_ keeps
  intro effect mem before after followed
  refine keepsScored_follow ?_ followed
  rintro pair verdict rfl
  exact course_scores mem

theorem run_keepsScored (pass : Pass) (files : FileTree) (store : Store) :
    pass.KeepsScored store (pass.run files store).2.store := by
  refine run_each (fun world => pass.KeepsScored store world.store) ?_ ?_ ?_
  · intro asked pair row present
    exact .inl present
  · intro path base world keeps
    exact settled_keepsScored keeps
  · intro head before after followed keeps
    refine keepsScored_follow ?_ followed keeps
    intro pair verdict same
    cases same

/-- Nothing that is made of two texts is refused. The change between them does not contradict
itself, nor does what is known of its structure; so the analysis of the two is their significance,
and so is each verdict that a pass keeps on the change of a file. -/
theorem own_changes_scored :
    (∀ old new : String, (TextChange.between old new).validate = .ok () ∧
      (Analysis.deltaBetween old new).validate = .ok ()) ∧
    (∀ (policy : Policy) (old new : String),
      (Analysis.between policy old new).result = Significance.of policy
        (TextChange.between old new) (Analysis.deltaBetween old new) .empty ∧
      ∀ fault, (Analysis.between policy old new).result ≠ .unscored fault) ∧
    ∀ (pass : Pass) (files : FileTree) (store : Store) (pair : Store.Pair)
      (row : Store.AnalysisRow), (pass.run files store).2.store.analysisOf? pair = some row →
      store.analysisOf? pair = some row ∨
        ∃ verdict, row = verdict.toRow ∧ pass.Scores pair verdict := by
  refine ⟨?_, ?_, run_keepsScored⟩
  · intro old new
    exact ⟨TextChange.validate_between old new, Analysis.validate_deltaBetween old new⟩
  · intro policy old new
    have scored : (Analysis.between policy old new).result = Significance.of policy
        (TextChange.between old new) (Analysis.deltaBetween old new) .empty :=
      Analysis.ofValid_between policy old new .empty
    refine ⟨scored, ?_⟩
    rw [scored]
    exact Significance.of_ne_unscored _ _ _ _

end Keeping

/-! ### A change of layout that is scored -/

def layoutPair : Store.Pair :=
  (layoutPass "second").pairOf "a.php" "<?php\nfunction f() {}\n"
    "<?php\nfunction f()  {}\n".toUTF8

def layoutRow : Option Store.AnalysisRow :=
  ((layoutPass "second").run (layoutFiles "<?php\nfunction f()  {}\n")
    layoutStore).2.store.analysisOf? layoutPair

/-- The second of two passes keeps a verdict that the first did not leave, and it is a score. -/
theorem own_changes_scored_of_layout :
    ∃ row verdict, layoutRow = some row ∧ row = verdict.toRow ∧
      (layoutPass "second").Scores layoutPair verdict := by
  have kept : layoutRow.isSome = true := by decide +kernel
  have fresh : layoutStore.analysisOf? layoutPair = none := by decide +kernel
  obtain ⟨row, present⟩ := Option.isSome_iff_exists.mp kept
  rcases own_changes_scored.2.2 (layoutPass "second") _ layoutStore layoutPair row present with
    earlier | ⟨verdict, same, scores⟩
  · rw [fresh] at earlier
    cases earlier
  · exact ⟨row, verdict, present, same, scores⟩

end DocDrift.Pass
