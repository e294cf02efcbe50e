import DocDrift.Proofs.FileTree.Growth
import DocDrift.Proofs.Pass.Marker
import DocDrift.Proofs.Store.Advice

/-!
Which contents of files are covered. They are once they were documented, and once a verdict on a
change to them that advises against it is kept. Settling a file covers its contents and uncovers
those of no file.
-/

set_option autoImplicit false

namespace DocDrift.Pass

/-! ### Coverage -/

/-- Contents were documented, or a verdict advises against documenting a change to them. -/
def Covered (store : Store) (target digest : String) : Prop :=
  ∃ documented, store.digestOf? target = some documented ∧
    (documented ≠ digest → ∃ old, ∃ verdict : Store.Verdict,
      store.analysisOf? ⟨target, old, digest⟩ = some verdict.toRow ∧
        verdict.recommendation.regenerate = false)

/-- All that is kept of scored changes are rows of verdicts. -/
def KeepsVerdicts (store : Store) : Prop :=
  ∀ pair row, store.analysisOf? pair = some row → ∃ verdict : Store.Verdict, row = verdict.toRow

theorem covered_of_documented {store : Store} {target digest : String}
    (documented : store.digestOf? target = some digest) : Covered store target digest :=
  ⟨digest, documented, fun different => absurd rfl different⟩

/-- Contents stay covered when a write leaves their digest and what is kept of changes alone. -/
theorem covered_write {now : String} {store next : Store} {write : Store.Write}
    (done : store.write now write = .ok next) {target digest : String}
    (elsewhere : ∀ before, write.digestAfter target before = before)
    (unscored : ∀ pair before, write.analysisAfter pair before = before)
    (covered : Covered store target digest) : Covered next target digest := by
  obtain ⟨documented, known, otherwise⟩ := covered
  refine ⟨documented, ?_, ?_⟩
  · rw [Store.digestOf?_write done, elsewhere, known]
  · intro different
    obtain ⟨old, verdict, kept, advice⟩ := otherwise different
    refine ⟨old, verdict, ?_, advice⟩
    rw [Store.analysisOf?_write done, unscored, kept]

/-! ### Settling uncovers nothing -/

/-- What holds while files are settled: those whose texts are known have them still. -/
structure Stands (pass : Pass) (files : FileTree) (texts : String → Option String)
    (world : World) : Prop where
  formed : world.files.WellFormed
  grown : files.Grows world.files
  contents : ∀ path text, texts path = some text →
    world.files.read (pass.target path) = .ok text.toUTF8
  verdicts : KeepsVerdicts world.store

/-- The document of a file takes the place of none of the files whose texts are known. -/
def Aside (pass : Pass) (files : FileTree) (texts : String → Option String) (path : String) :
    Prop :=
  ∀ other text, texts other = some text →
    files.goal (pass.documentTarget path) ≠ files.goal (pass.target other)

section Stands

variable {pass : Pass} {files : FileTree} {texts : String → Option String} {path : String}

theorem Stands.write {before after : World} (stands : pass.Stands files texts before)
    {write : Store.Write} (followed : before.follow pass.now (.wroteStore write) = .ok after) :
    pass.Stands files texts after := by
  obtain ⟨store, wrote, rfl⟩ := follow_wroteStore.mp followed
  refine ⟨stands.formed, stands.grown, stands.contents, ?_⟩
  intro pair row kept
  change store.analysisOf? pair = some row at kept
  rw [Store.analysisOf?_write wrote] at kept
  cases write with
  | scored other verdict =>
      rw [Store.Write.analysisAfter] at kept
      split at kept
      · exact ⟨verdict, (Option.some.inj kept).symm⟩
      · exact stands.verdicts pair row kept
  | _ => exact stands.verdicts pair row kept

theorem stands_kept (aside : pass.Aside files texts path) :
    pass.Kept path (pass.Stands files texts) := by
  refine ⟨?_, ?_, ?_⟩
  · intro world asked stands
    exact ⟨stands.formed, stands.grown, stands.contents, stands.verdicts⟩
  · intro begun _begins effect documents before after followed stands
    cases documents with
    | madeParent =>
        obtain ⟨made, done, rfl⟩ := follow_madeParent.mp followed
        obtain ⟨extension, formed⟩ := FileTree.makeParent_extends stands.formed done
        refine ⟨formed, stands.grown.trans extension.grows, ?_, stands.verdicts⟩
        intro other text known
        have read := stands.contents other text known
        exact (extension.read stands.formed formed (FileTree.exists?_of_read read)).trans read
    | wroteFile text =>
        obtain ⟨next, done, rfl⟩ := follow_wroteFile.mp followed
        refine ⟨FileTree.write_wellFormed stands.formed done,
          stands.grown.trans (FileTree.write_grows stands.formed done), ?_, stands.verdicts⟩
        intro other text known
        have read := stands.contents other text known
        have elsewhere := aside other text known
        rw [← stands.grown.goal, ← stands.grown.goal] at elsewhere
        exact (FileTree.read_of_write stands.formed done elsewhere
          (FileTree.exists?_of_read read)).trans read
    | documented bytes document read => exact stands.write followed
    | listed names digest => exact stands.write followed
    | spent usage => exact stands.write followed
  · intro before after old new verdict _fresh followed stands
    exact stands.write followed

/-- Contents that are covered stay covered when any file is settled. -/
theorem covered_kept (aside : pass.Aside files texts path) {other text : String}
    (known : texts other = some text) :
    pass.Kept path (fun world => pass.Stands files texts world ∧
      Covered world.store (pass.target other) (Digest.ofBytes text.toUTF8)) := by
  have stays := stands_kept aside
  refine ⟨?_, ?_, ?_⟩
  · rintro world asked ⟨stands, covered⟩
    exact ⟨stays.asks world asked stands, covered⟩
  · rintro begun ⟨begins, _covered⟩ effect documents before after followed ⟨stands, covered⟩
    refine ⟨stays.documents begun begins effect documents before after followed stands, ?_⟩
    cases documents with
    | madeParent =>
        obtain ⟨made, done, rfl⟩ := follow_madeParent.mp followed
        exact covered
    | wroteFile text =>
        obtain ⟨next, done, rfl⟩ := follow_wroteFile.mp followed
        exact covered
    | documented bytes document read =>
        obtain ⟨store, wrote, rfl⟩ := follow_wroteStore.mp followed
        by_cases same : pass.target path = pass.target other
        · -- The file was read as it is, so the digest in the ledger is that of its contents.
          rw [same, begins.contents other text known] at read
          cases read
          apply covered_of_documented
          rw [Store.digestOf?_write wrote, Store.Write.digestAfter, if_pos same]
        · exact covered_write wrote (fun _ => if_neg same) (fun _ _ => rfl) covered
    | listed names digest =>
        obtain ⟨store, wrote, rfl⟩ := follow_wroteStore.mp followed
        exact covered_write wrote (fun _ => rfl) (fun _ _ => rfl) covered
    | spent usage =>
        obtain ⟨store, wrote, rfl⟩ := follow_wroteStore.mp followed
        exact covered_write wrote (fun _ => rfl) (fun _ _ => rfl) covered
  · rintro before after old new verdict fresh followed ⟨stands, covered⟩
    refine ⟨stays.scores before after old new verdict fresh followed stands, ?_⟩
    obtain ⟨store, wrote, rfl⟩ := follow_wroteStore.mp followed
    obtain ⟨documented, listed, otherwise⟩ := covered
    refine ⟨documented, ?_, ?_⟩
    · exact (Store.digestOf?_write wrote _).trans listed
    · intro different
      obtain ⟨oldDigest, kept, present, advice⟩ := otherwise different
      refine ⟨oldDigest, kept, ?_, advice⟩
      have elsewhere : (⟨pass.target path, old, new⟩ : Store.Pair) ≠
          ⟨pass.target other, oldDigest, Digest.ofBytes text.toUTF8⟩ := by
        intro same
        rw [← same, Store.verdict?_none fresh] at present
        cases present
      rw [Store.analysisOf?_write wrote, Store.Write.analysisAfter, if_neg elsewhere, present]

/-! ### Settling covers -/

/-- A file that was documented without fail is in the ledger with the digest of its contents. -/
theorem digestOf?_documenting {bytes : ByteArray} {generated : Document}
    {result : Except Failure Outcome} {world after : World} {outcome : Outcome}
    (carried : carry pass.now result (pass.documenting path bytes generated) world =
      (.ok outcome, after)) :
    after.store.digestOf? (pass.target path) = some (Digest.ofBytes bytes) := by
  obtain ⟨reached, next, followed, rest⟩ := carry_at [_, _] carried
  obtain ⟨store, wrote, rfl⟩ := follow_wroteStore.mp followed
  obtain ⟨_files, entries, _rest⟩ := carry_noting (fun _ mem => mem) rest
  rw [Store.digestOf?_eq, entries, ← Store.digestOf?_eq]
  change store.digestOf? (pass.target path) = some (Digest.ofBytes bytes)
  rw [Store.digestOf?_write wrote, Store.Write.digestAfter, if_pos rfl]

/-- Once a file is documented, the ledger has the digest of its contents. -/
theorem documentCourse_documented {bytes : ByteArray} {score : Option Nat} {world after : World}
    {outcome : Outcome}
    (carried : carry pass.now (pass.documentCourse path bytes score).result
      (pass.documentCourse path bytes score).effects world = (.ok outcome, after)) :
    after.store.digestOf? (pass.target path) = some (Digest.ofBytes bytes) := by
  unfold documentCourse at carried
  cases generated : pass.generator path (Text.decodeLossy bytes) with
  | error failure =>
      rw [generated] at carried
      cases carry_ok carried
  | ok document =>
      rw [generated] at carried
      exact digestOf?_documenting carried

/-- Following a verdict documents the file, or changes nothing because the verdict is against it. -/
theorem verdictCourse_documented {bytes : ByteArray} {verdict : Store.Verdict}
    {world after : World} {outcome : Outcome}
    (carried : carry pass.now (pass.verdictCourse path bytes verdict).result
      (pass.verdictCourse path bytes verdict).effects world = (.ok outcome, after)) :
    after.store.digestOf? (pass.target path) = some (Digest.ofBytes bytes) ∨
      verdict.recommendation.regenerate = false ∧ after = world := by
  unfold verdictCourse at carried
  split at carried
  case isTrue => exact .inl (documentCourse_documented carried)
  case isFalse against =>
      cases carried
      exact .inr ⟨Bool.not_eq_true _ ▸ against, rfl⟩

theorem settled_carried {base : Option String} {world after : World} {outcome : Outcome}
    (settled : pass.settled path base world = (.ok outcome, after))
    (succeeded : outcome.isFailed = false) :
    (pass.course path base world.files world.store).carriedOut pass.now world =
      (.ok outcome, after) := by
  obtain ⟨ended, carried, reported⟩ := settled_ended settled
  cases reported with
  | done => exact carried
  | failed failure harmless => cases succeeded

/-- Judging a change covers the contents: they are documented, or a verdict against it is kept. -/
theorem judgeCourse_covers {bytes : ByteArray} {old : String} {store : Store}
    {world after : World} {outcome : Outcome} (begun : world.store = store)
    (verdicts : KeepsVerdicts store) (known : store.digestOf? (pass.target path) ≠ none)
    (carried : carry pass.now (pass.judgeCourse path bytes old store).result
      (pass.judgeCourse path bytes old store).effects world = (.ok outcome, after)) :
    Covered after.store (pass.target path) (Digest.ofBytes bytes) := by
  subst begun
  obtain ⟨listed, documented⟩ := Option.ne_none_iff_exists'.mp known
  have judged := judgeCourse_judgement pass path bytes old world.store
  generalize pass.judgeCourse path bytes old world.store = course at judged carried
  cases judged with
  | undecided failure failed => cases carry_ok carried
  | kept verdict keptVerdict =>
      rcases verdictCourse_documented carried with done | ⟨against, rfl⟩
      · exact covered_of_documented done
      · obtain ⟨row, kept, read⟩ := Store.verdict?_some keptVerdict
        obtain ⟨written, rfl⟩ := verdicts _ row kept
        refine ⟨listed, documented, fun _different => ⟨_, written, kept, ?_⟩⟩
        rw [← Store.Verdict.advice_of_ofRow? read, against]
  | fresh symbols unknown found =>
      rw [Course.afterEffect_effects, Course.afterEffect_result] at carried
      obtain ⟨store, wrote, carried⟩ := carry_wrote carried nofun
      rcases verdictCourse_documented carried with done | ⟨against, rfl⟩
      · exact covered_of_documented done
      · refine ⟨listed, (Store.digestOf?_write wrote _).trans documented, fun _different => ?_⟩
        refine ⟨Digest.ofBytes old.toUTF8, pass.freshVerdict old bytes symbols.names, ?_, against⟩
        exact (Store.analysisOf?_write wrote _).trans (if_pos rfl)

theorem settled_covers {base : Option String} {text : String} {world after : World}
    {outcome : Outcome} (stands : pass.Stands files texts world) (known : texts path = some text)
    (settled : pass.settled path base world = (.ok outcome, after))
    (succeeded : outcome.isFailed = false) :
    Covered after.store (pass.target path) (Digest.ofBytes text.toUTF8) := by
  have contents := stands.contents path text known
  have carried := settled_carried settled succeeded
  unfold Course.carriedOut at carried
  have evaluated := course_evaluation pass path base world.files world.store
  generalize pass.course path base world.files world.store = course at evaluated carried
  cases evaluated with
  | deleted gone =>
      rw [FileTree.exists?_of_read contents] at gone
      cases gone
  | unreadable fault present unread => cases carry_ok carried
  | unlisted unheld => cases carry_ok carried
  | untold commit failure listed told failed =>
      rw [Course.afterQuestion_result] at carried
      cases carry_ok carried
  | unchanged bytes read unforced same =>
      rw [contents] at read
      cases read
      cases carried
      exact covered_of_documented same
  | baseless bytes read due baseless =>
      rw [contents] at read
      cases read
      exact covered_of_documented (documentCourse_documented carried)
  | added bytes commit read due listed told absent =>
      rw [contents] at read
      cases read
      exact covered_of_documented (documentCourse_documented carried)
  | changed bytes commit old read due listed told present =>
      rw [contents] at read
      cases read
      rw [Course.afterQuestion_result, Course.afterQuestion_effects] at carried
      exact judgeCourse_covers (by rfl) stands.verdicts listed carried

theorem settled_stands {base : Option String} {world after : World} {outcome : Outcome}
    (aside : pass.Aside files texts path) (stands : pass.Stands files texts world)
    (settled : pass.settled path base world = (.ok outcome, after)) :
    pass.Stands files texts after := by
  have kept := settled_keeps base (stands_kept aside) stands
  rw [settled] at kept
  exact kept

theorem settledAll_keeps_covered {base : Option String} {paths : List String}
    {world after : World} {outcomes : List Outcome}
    (aside : ∀ path ∈ paths, pass.Aside files texts path)
    (stands : pass.Stands files texts world)
    (settled : pass.settledAll base paths world = (.ok outcomes, after)) {text : String}
    (known : texts path = some text)
    (covered : Covered world.store (pass.target path) (Digest.ofBytes text.toUTF8)) :
    Covered after.store (pass.target path) (Digest.ofBytes text.toUTF8) := by
  have kept := settledAll_keeps base (fun other mem => covered_kept (aside other mem) known)
    ⟨stands, covered⟩
  rw [settled] at kept
  exact kept.2

theorem settledAll_stands {base : Option String} {paths : List String} {world after : World}
    {outcomes : List Outcome} (aside : ∀ path ∈ paths, pass.Aside files texts path)
    (stands : pass.Stands files texts world)
    (settled : pass.settledAll base paths world = (.ok outcomes, after)) :
    pass.Stands files texts after := by
  have kept := settledAll_keeps base (fun other mem => stands_kept (aside other mem)) stands
  rw [settled] at kept
  exact kept

theorem settledAll_covers {base : Option String} {paths : List String} {world after : World}
    {outcomes : List Outcome} (aside : ∀ path ∈ paths, pass.Aside files texts path)
    (stands : pass.Stands files texts world)
    (settled : pass.settledAll base paths world = (.ok outcomes, after))
    (succeeded : ∀ outcome ∈ outcomes, texts outcome.path ≠ none → outcome.isFailed = false)
    {text : String} (named : path ∈ paths) (known : texts path = some text) :
    Covered after.store (pass.target path) (Digest.ofBytes text.toUTF8) := by
  induction paths generalizing world outcomes with
  | nil => cases named
  | cons first rest ih =>
      obtain ⟨outcome, others, middle, begun, rested, rfl⟩ := settledAll_cons settled
      have asideRest : ∀ path ∈ rest, pass.Aside files texts path :=
        fun path mem => aside path (List.mem_cons_of_mem _ mem)
      have stood := settled_stands (aside first List.mem_cons_self) stands begun
      rcases List.mem_cons.mp named with rfl | later
      · have told : texts outcome.path ≠ none := by
          rw [settled_path begun, known]
          exact Option.some_ne_none text
        have covered := settled_covers stands known begun
          (succeeded outcome List.mem_cons_self told)
        exact settledAll_keeps_covered asideRest stood rested known covered
      · exact ih asideRest stood rested
          (fun outcome mem => succeeded outcome (List.mem_cons_of_mem _ mem)) later

end Stands

end DocDrift.Pass
