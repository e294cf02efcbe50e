import DocDrift.Proofs.Documents
import DocDrift.Proofs.FileTree.Rewriting
import DocDrift.Proofs.Pass.Outcomes

/-!
What a pass makes of documents. Settling a file writes its document if the file was processed, and
otherwise makes directories at most; so the document of a file stays what it is until a file is
processed that is the same but for its extension.
-/

set_option autoImplicit false

namespace DocDrift.Pass

open DocDrift.Path (Plain Extended SameButExtension)

section Settling

variable {pass : Pass} {path target : String} {base : Option String} {bytes : ByteArray}
  {begun world after : World} {outcome : Outcome} {ended : Except Failure Outcome}

/-! ### What settling a file makes of the files -/

/-- What is left of the files when a file was settled with some outcome. -/
inductive LeavesFiles (pass : Pass) (path : String) (files : FileTree) : Outcome → FileTree → Prop
  | untouched (outcome : Outcome) (idle : outcome.isProcessed = false) :
      LeavesFiles pass path files outcome files
  | parent (outcome : Outcome) (made : FileTree) (idle : outcome.isProcessed = false)
      (done : files.makeParent (pass.documentTarget path) = .ok made) :
      LeavesFiles pass path files outcome made
  | document (score : Option Nat) (source : String) (generated : Document) (made next : FileTree)
      (generates : pass.generator path source = .ok generated)
      (done : files.makeParent (pass.documentTarget path) = .ok made)
      (wrote : made.write (pass.documentTarget path) generated.text.toUTF8 = .ok next) :
      LeavesFiles pass path files (.processed path score (pass.config.documentPath path)) next

theorem leavesFiles_of_failed {failure : Failure} (reported : Reported path ended outcome)
    (carried : carry pass.now (.error failure) [] world = (ended, after)) :
    pass.LeavesFiles path world.files outcome after.files := by
  cases carried
  cases reported
  exact .untouched _ rfl

theorem leavesFiles_of_skipped {name reason : String} (reported : Reported path ended outcome)
    (carried : carry pass.now (.ok (.skipped name reason)) [] world = (ended, after)) :
    pass.LeavesFiles path world.files outcome after.files := by
  cases carried
  cases reported
  exact .untouched _ rfl

theorem documentCourse_leavesFiles {score : Option Nat} (reported : Reported path ended outcome)
    (carried : carry pass.now (pass.documentCourse path bytes score).result
      (pass.documentCourse path bytes score).effects world = (ended, after)) :
    pass.LeavesFiles path world.files outcome after.files := by
  unfold documentCourse at carried
  cases generates : pass.generator path (Text.decodeLossy bytes) with
  | error failure =>
      rw [generates] at carried
      exact leavesFiles_of_failed reported carried
  | ok generated =>
      rw [generates] at carried
      dsimp only at carried
      cases reported with
      | failed failure harmless =>
          obtain ⟨_store, same | made⟩ := documenting_error carried harmless
          · rw [same]
            exact .untouched _ rfl
          · exact .parent _ _ rfl made
      | done =>
          cases carry_ok carried
          obtain ⟨parent, made, carried⟩ := carry_cons_ok carried
          obtain ⟨written, wrote, carried⟩ := carry_cons_ok carried
          obtain ⟨noted, documented, carried⟩ := carry_cons_ok carried
          obtain ⟨files, parentMade, rfl⟩ := follow_madeParent.mp made
          obtain ⟨next, textWritten, rfl⟩ := follow_wroteFile.mp wrote
          obtain ⟨store, _done, rfl⟩ := follow_wroteStore.mp documented
          obtain ⟨same, _others⟩ := carry_noting (fun _ mem => mem) carried
          rw [same]
          exact .document score _ generated files next generates parentMade textWritten

theorem verdictCourse_leavesFiles {verdict : Store.Verdict} (reported : Reported path ended outcome)
    (carried : carry pass.now (pass.verdictCourse path bytes verdict).result
      (pass.verdictCourse path bytes verdict).effects world = (ended, after)) :
    pass.LeavesFiles path world.files outcome after.files := by
  unfold verdictCourse at carried
  split at carried
  · exact documentCourse_leavesFiles reported carried
  · exact leavesFiles_of_skipped reported carried

theorem judgeCourse_leavesFiles {old : String} {store : Store}
    (reported : Reported path ended outcome)
    (carried : carry pass.now (pass.judgeCourse path bytes old store).result
      (pass.judgeCourse path bytes old store).effects world = (ended, after)) :
    pass.LeavesFiles path world.files outcome after.files := by
  have judged := judgeCourse_judgement pass path bytes old store
  generalize pass.judgeCourse path bytes old store = course at judged carried
  cases judged with
  | undecided failure failed => exact leavesFiles_of_failed reported carried
  | kept verdict known => exact verdictCourse_leavesFiles reported carried
  | fresh documented unknown listed =>
      rw [Course.afterEffect_effects, Course.afterEffect_result, carry] at carried
      split at carried
      case h_1 next followed =>
        obtain ⟨written, _wrote, rfl⟩ := follow_wroteStore.mp followed
        have leaves := verdictCourse_leavesFiles reported carried
        exact leaves
      case h_2 failure failed =>
        exact leavesFiles_of_failed reported carried

theorem course_leavesFiles {files : FileTree} {store : Store}
    (reported : Reported path ended outcome)
    (carried : carry pass.now (pass.course path base files store).result
      (pass.course path base files store).effects world = (ended, after)) :
    pass.LeavesFiles path world.files outcome after.files := by
  have evaluated := course_evaluation pass path base files store
  generalize pass.course path base files store = course at evaluated carried
  cases evaluated with
  | deleted gone => exact leavesFiles_of_skipped reported carried
  | unreadable fault present unread => exact leavesFiles_of_failed reported carried
  | unlisted unheld => exact leavesFiles_of_failed reported carried
  | unchanged bytes read unforced same => exact leavesFiles_of_skipped reported carried
  | baseless bytes read due baseless => exact documentCourse_leavesFiles reported carried
  | untold commit failure known told failed =>
      rw [Course.afterQuestion_effects, Course.afterQuestion_result] at carried
      exact leavesFiles_of_failed reported carried
  | added bytes commit read due known told absent =>
      rw [Course.afterQuestion_effects, Course.afterQuestion_result] at carried
      exact documentCourse_leavesFiles reported carried
  | changed bytes commit old read due known told present =>
      rw [Course.afterQuestion_effects, Course.afterQuestion_result] at carried
      exact judgeCourse_leavesFiles reported carried

theorem settled_leavesFiles (settled : pass.settled path base world = (.ok outcome, after)) :
    pass.LeavesFiles path world.files outcome after.files := by
  obtain ⟨ended, carried, reported⟩ := settled_ended settled
  rw [Course.carriedOut] at carried
  have leaves := course_leavesFiles reported carried
  exact leaves

/-! ### What stays of other files -/

theorem LeavesFiles.reads {files later : FileTree}
    (leaves : pass.LeavesFiles path files outcome later)
    (apart : outcome.isProcessed = true →
      ∀ tree : FileTree, tree.goal target ≠ tree.goal (pass.documentTarget path))
    (held : files.read target = .ok bytes) : later.read target = .ok bytes := by
  cases leaves with
  | untouched outcome idle => exact held
  | parent outcome made idle done =>
      obtain ⟨places, extension⟩ := FileTree.makeParent_adds done
      exact extension.reads held
  | document score source generated made next generates done wrote =>
      obtain ⟨places, extension⟩ := FileTree.makeParent_adds done
      exact FileTree.reads_of_write wrote (apart rfl made) (extension.reads held)

/-- What was read stays while files are settled whose documents lie elsewhere. -/
theorem settledAll_reads {paths : List String} {outcomes : List Outcome}
    (settled : pass.settledAll base paths world = (.ok outcomes, after))
    (apart : ∀ outcome ∈ outcomes, outcome.isProcessed = true →
      ∀ tree : FileTree, tree.goal target ≠ tree.goal (pass.documentTarget outcome.path))
    (held : world.files.read target = .ok bytes) : after.files.read target = .ok bytes := by
  induction paths generalizing world outcomes with
  | nil =>
      obtain ⟨_none, rfl⟩ := settledAll_nil settled
      exact held
  | cons path rest ih =>
      obtain ⟨outcome, others, middle, first, rested, rfl⟩ := settledAll_cons settled
      refine ih rested (fun other mem => apart other (List.mem_cons_of_mem _ mem)) ?_
      have here := apart outcome List.mem_cons_self
      rw [settled_path first] at here
      exact (settled_leavesFiles first).reads here held

/-- A file that was processed has a document that was generated of it. -/
theorem LeavesFiles.written {files later : FileTree} {name document : String} {score : Option Nat}
    (leaves : pass.LeavesFiles path files outcome later)
    (processed : outcome = .processed name score document) :
    document = pass.config.documentPath path ∧
      ∃ source generated, pass.generator path source = .ok generated ∧
        later.read (pass.documentTarget path) = .ok generated.text.toUTF8 := by
  cases leaves with
  | untouched outcome idle =>
      rw [processed] at idle
      cases idle
  | parent outcome made idle done =>
      rw [processed] at idle
      cases idle
  | document score source generated made next generates done wrote =>
      cases processed
      exact ⟨rfl, source, generated, generates, (FileTree.read_written wrote).2⟩

end Settling

/-! ### Whole passes -/

section Runs

variable {pass : Pass} {files : FileTree} {store : Store} {report : Report}

/-- A pass that came to its end settled tracked files, and made nothing else of the files. -/
theorem run_settles (ended : (pass.run files store).1 = .ok report) :
    ∃ base paths, (∀ path ∈ paths, pass.config.tracks path = true) ∧
      ∃ begun last : World, begun.files = files ∧
        pass.settledAll base paths begun = (.ok report.outcomes, last) ∧
        (pass.run files store).2.files = last.files := by
  obtain ⟨asked, carried⟩ := run_eq pass files store
  rw [carried] at ended ⊢
  have planned := plan_planned pass store
  generalize pass.plan store = plan at planned ended
  cases planned with
  | empty missing =>
      cases ended
      exact ⟨none, [], fun _ mem => (nomatch mem), _, _, rfl, rfl, rfl⟩
  | current head found marked unforced =>
      cases ended
      exact ⟨none, [], fun _ mem => (nomatch mem), _, _, rfl, rfl, rfl⟩
  | due head base named found due started told =>
      rcases completed : pass.completed head (store.commitOf? pass.repository) base
        (named.filter pass.config.tracks) { World.start files store with asked } with ⟨_, after⟩
      rw [carryOut, completed] at ended
      subst ended
      obtain ⟨outcomes, last, settled, followed, rfl⟩ := completed_split completed
      obtain ⟨store', wrote, rfl⟩ := follow_wroteStore.mp followed
      rw [carryOut, completed]
      exact ⟨base, _, fun _ mem => (List.mem_filter.mp mem).2, _, last, rfl, settled, rfl⟩
  | _ => cases ended

/-- What a pass that came to its end keeps of documents: a document that was there stays, and one
that was written stays, until a file is processed that is the same but for its extension. -/
structure KeepsDocuments (pass : Pass) (files : FileTree) (report : Report) (last : FileTree) :
    Prop where
  kept : ∀ path bytes, Plain path → pass.config.tracks path = true →
    files.read (pass.documentTarget path) = .ok bytes →
    (∀ outcome ∈ report.outcomes, outcome.isProcessed = true →
      ¬SameButExtension path outcome.path) →
    last.read (pass.documentTarget path) = .ok bytes
  written : ∀ earlier path score document later,
    report.outcomes = earlier ++ .processed path score document :: later →
    (∀ outcome ∈ later, outcome.isProcessed = true → ¬SameButExtension path outcome.path) →
    document = pass.config.documentPath path ∧
      ∃ source generated, pass.generator path source = .ok generated ∧
        last.read (pass.documentTarget path) = .ok generated.text.toUTF8

/-- Documents of tracked files lie apart unless the files are the same but for their extensions. -/
theorem documentTarget_apart {path other : String} (plain : Plain path)
    (tracked : pass.config.tracks path = true) (plain' : Plain other)
    (tracked' : pass.config.tracks other = true) (tree : FileTree) :
    tree.goal (pass.documentTarget path) = tree.goal (pass.documentTarget other) ↔
      SameButExtension path other := by
  obtain ⟨before, stem, extension, extended⟩ := Config.extended_of_tracks plain tracked
  obtain ⟨before', stem', extension', extended'⟩ := Config.extended_of_tracks plain' tracked'
  exact Config.goal_document_eq_iff pass.root tree plain extended plain' extended'

theorem run_keepsDocuments (ended : (pass.run files store).1 = .ok report)
    (plain : ∀ outcome ∈ report.outcomes, Plain outcome.path) :
    pass.KeepsDocuments files report (pass.run files store).2.files := by
  obtain ⟨base, paths, tracks, begun, last, rfl, settled, left⟩ := run_settles ended
  have tracked : ∀ outcome ∈ report.outcomes, pass.config.tracks outcome.path = true := by
    intro outcome mem
    refine tracks _ ?_
    rw [← settledAll_paths settled]
    exact List.mem_map_of_mem mem
  rw [left]
  refine ⟨?_, ?_⟩
  · intro path bytes plainPath trackedPath held different
    refine settledAll_reads settled (fun outcome mem processed tree => ?_) held
    exact mt (documentTarget_apart plainPath trackedPath (plain outcome mem)
      (tracked outcome mem) tree).mp (different outcome mem processed)
  · intro earlier path score document later split different
    rw [split] at settled
    have here : Outcome.processed path score document ∈ report.outcomes :=
      split ▸ List.mem_append_right _ List.mem_cons_self
    have behind : ∀ outcome ∈ later, outcome ∈ report.outcomes :=
      fun outcome mem => split ▸ List.mem_append_right _ (List.mem_cons_of_mem _ mem)
    obtain ⟨reached, middle, _before, first, rested⟩ := settledAll_split settled
    obtain ⟨same, source, generated, generates, held⟩ := (settled_leavesFiles first).written rfl
    refine ⟨same, source, generated, generates, ?_⟩
    refine settledAll_reads rested (fun outcome mem processed tree => ?_) held
    exact mt (documentTarget_apart (plain _ here) (tracked _ here) (plain outcome (behind _ mem))
      (tracked outcome (behind _ mem)) tree).mp (different outcome mem processed)

/-- Two tracked files share a document, or the place of one, just if they are the same but for
their extensions, and only then does a pass write the document of one over that of the other. -/
theorem documents_shared_iff (pass : Pass) :
    (∀ path other, Plain path → Plain other → pass.config.tracks path = true →
      pass.config.tracks other = true →
      (pass.config.documentPath path = pass.config.documentPath other ↔
        SameButExtension path other) ∧
      ∀ files : FileTree, files.goal (pass.documentTarget path) =
        files.goal (pass.documentTarget other) ↔ SameButExtension path other) ∧
    ∀ files store report, (pass.run files store).1 = .ok report →
      (∀ outcome ∈ report.outcomes, Plain outcome.path) →
      pass.KeepsDocuments files report (pass.run files store).2.files := by
  refine ⟨?_, fun files store report ended plain => run_keepsDocuments ended plain⟩
  intro path other plain plain' tracked tracked'
  obtain ⟨before, stem, extension, extended⟩ := Config.extended_of_tracks plain tracked
  obtain ⟨before', stem', extension', extended'⟩ := Config.extended_of_tracks plain' tracked'
  exact ⟨Config.documentPath_eq_iff plain extended plain' extended',
    fun files => documentTarget_apart plain tracked plain' tracked' files⟩

end Runs

theorem documents_shared_iff_of_gone :
    ¬SameButExtension "a.php" "b.php" ∧
      ∃ source generated, gonePass.generator "a.php" source = .ok generated ∧
        (gonePass.run goneFiles .empty).2.files.read (gonePass.documentTarget "a.php") =
          .ok generated.text.toUTF8 := by
  obtain ⟨shared, keeps⟩ := documents_shared_iff gonePass
  refine ⟨?_, ?_⟩
  · obtain ⟨same, _lies⟩ :=
      shared "a.php" "b.php" (by decide) (by decide) (by decide) (by decide)
    exact fun alike => absurd (same.mpr alike) (by decide)
  · have kept := keeps goneFiles .empty goneReport gonePass_ended (by decide)
    refine (kept.written [] "a.php" none "docs/api/a.md" [.skipped "b.php" "deleted"] rfl ?_).2
    intro outcome mem processed
    rw [List.mem_singleton.mp mem] at processed
    cases processed

/-! ### Files that are the same but for the case of their extensions -/

def twinHistory : History.Recorded :=
  { current := some "head"
    commits := [("head",
      [("a.PHP", "<?php\nclass A \x7b\x7d\n"), ("a.php", "<?php\nclass B \x7b\x7d\n")])]
    changes := []
    faults := [] }

def twinPass : Pass :=
  ⟨"/site", "site", twinHistory.toHistory, .outline, .standard, false, "now"⟩

def twinFiles : FileTree :=
  (FileTree.withFile "site" "a.php" "<?php\nclass B \x7b\x7d\n".toUTF8).put ["site", "a.PHP"]
    (.file "<?php\nclass A \x7b\x7d\n".toUTF8)

def twinReport : Report :=
  ⟨some "head", none,
    [.processed "a.PHP" none "docs/api/a.md", .processed "a.php" none "docs/api/a.md"], true⟩

/-- Two tracked files with one document: a pass processes both, and the document of the second takes
the place of that of the first. -/
theorem twins_share_document :
    Plain "a.PHP" ∧ Plain "a.php" ∧ twinPass.config.tracks "a.PHP" = true ∧
      twinPass.config.tracks "a.php" = true ∧ "a.PHP" ≠ "a.php" ∧
      twinPass.config.documentPath "a.PHP" = twinPass.config.documentPath "a.php" ∧
      (twinPass.run twinFiles .empty).1 = .ok twinReport :=
  ⟨by decide, by decide, by decide, by decide, by decide, by decide +kernel,
    ok_of_toOption (by decide +kernel)⟩

end DocDrift.Pass
