import DocDrift.Proofs.FileTree.Growth
import DocDrift.Proofs.Pass.Alike
import DocDrift.Proofs.Store.Advice

/-!
Files at rest. A pass that is not forced changes nothing for such a file, whenever it is made: the
file is gone or cannot be read, it was documented as it is, a kept verdict advises against it, or its
document cannot be made. Once a file was settled it is at rest, and it stays so while other files are
settled.
-/

set_option autoImplicit false

namespace DocDrift

namespace FileTree

theorem Grows.apart {tree later : FileTree} (grown : tree.Grows later) {document path : String}
    (apart : tree.Apart document path) : later.Apart document path := by
  have route : ∀ path, later.route path = tree.route path := by
    intro path
    rw [FileTree.route, FileTree.route, grown.start]
  intro visited mem within
  rw [route] at mem within
  rw [grown.goal]
  exact apart visited mem within

theorem Extends.elsewhere {tree made : FileTree} {places : List Place}
    (extension : tree.Extends made places) {place : Place} (outside : place ∉ places) :
    made.node? place = tree.node? place := by
  cases present : tree.node? place with
  | some node => exact extension.kept place node present
  | none =>
      cases there : made.node? place with
      | none => rfl
      | some node =>
          rcases extension.added place node there with before | ⟨mem, _directory⟩
          · rw [present] at before
            cases before
          · exact absurd mem outside

theorem write_elsewhere {tree next : FileTree} {path : String} {contents : ByteArray}
    (formed : tree.WellFormed) (done : tree.write path contents = .ok next) {place : Place}
    (outside : place ∉ tree.route path) : next.node? place = tree.node? place := by
  obtain ⟨mem, _free, _above, rfl⟩ := write_ok formed done
  apply node?_put_of_ne
  intro equal
  exact outside (equal ▸ mem)

end FileTree

namespace Pass

/-! ### What documents leave alone -/

/-- The files have grown from a tree, and a path leads to the same as before. -/
structure Reads (tree : FileTree) (target : String) (there : Bool)
    (found : Except FileFault ByteArray) (files : FileTree) : Prop where
  formed : files.WellFormed
  grown : tree.Grows files
  present : files.exists? target = there
  contents : there = true → files.read target = found

section Reads

variable {pass : Pass} {tree : FileTree} {path target : String} {there : Bool}
  {found : Except FileFault ByteArray} {files next : FileTree}

theorem Reads.step (reads : Reads tree target there found files) {document : String}
    (apart : tree.Apart document target) (grown : files.Grows next) (formed : next.WellFormed)
    (elsewhere : ∀ place, place ∉ files.route document → next.node? place = files.node? place) :
    Reads tree target there found next := by
  have apartHere := reads.grown.apart apart
  refine ⟨formed, reads.grown.trans grown, ?_, ?_⟩
  · rw [grown.exists?_apart reads.formed formed apartHere elsewhere, reads.present]
  · intro holds
    have present : files.exists? target = true := reads.present.trans holds
    rw [grown.read_apart reads.formed formed apartHere elsewhere present]
    exact reads.contents holds

theorem Reads.follow (reads : Reads tree target there found files)
    (apart : tree.Apart (pass.documentTarget path) target) {begun : FileTree} {effect : Effect}
    (documents : pass.Documents path begun effect) {before after : World}
    (same : before.files = files) (followed : before.follow pass.now effect = .ok after) :
    Reads tree target there found after.files := by
  subst same
  cases documents with
  | madeParent =>
      obtain ⟨made, done, rfl⟩ := follow_madeParent.mp followed
      obtain ⟨extension, formed⟩ := FileTree.makeParent_extends reads.formed done
      exact reads.step apart extension.grows formed (fun _ outside => extension.elsewhere outside)
  | wroteFile text =>
      obtain ⟨next, done, rfl⟩ := follow_wroteFile.mp followed
      exact reads.step apart (FileTree.write_grows reads.formed done)
        (FileTree.write_wellFormed reads.formed done)
        (fun _ outside => FileTree.write_elsewhere reads.formed done outside)
  | documented bytes document read =>
      obtain ⟨store, _wrote, rfl⟩ := follow_wroteStore.mp followed
      exact reads
  | listed names digest =>
      obtain ⟨store, _wrote, rfl⟩ := follow_wroteStore.mp followed
      exact reads
  | spent usage =>
      obtain ⟨store, _wrote, rfl⟩ := follow_wroteStore.mp followed
      exact reads

theorem reads_kept (apart : tree.Apart (pass.documentTarget path) target) :
    pass.Kept path (fun world => Reads tree target there found world.files) := by
  refine ⟨fun _ _ reads => reads, ?_, ?_⟩
  · intro begun _reads effect documents before after followed reads
    exact reads.follow apart documents rfl followed
  · intro before after old new verdict _fresh followed reads
    obtain ⟨store, _wrote, rfl⟩ := follow_wroteStore.mp followed
    exact reads

end Reads

/-! ### Documents that cannot be made -/

/-- The document of a file cannot be generated, or it cannot be written where it belongs. -/
def Blocked (pass : Pass) (path : String) (bytes : ByteArray) (files : FileTree) : Prop :=
  ∀ generated, pass.generator path (Text.decodeLossy bytes) = .ok generated →
    (∀ made, files.makeParent (pass.documentTarget path) ≠ .ok made) ∨
      (files.makeParent (pass.documentTarget path) = .ok files ∧
        ∀ next, files.write (pass.documentTarget path) generated.text.toUTF8 ≠ .ok next)

section Blocked

variable {pass : Pass} {path : String} {bytes : ByteArray} {files later : FileTree}

theorem Blocked.grows (blocked : pass.Blocked path bytes files) (formed : files.WellFormed)
    (grown : files.Grows later) (laterFormed : later.WellFormed) :
    pass.Blocked path bytes later := by
  intro generated generates
  rcases blocked generated generates with parentless | ⟨made, unwritten⟩
  · exact .inl (FileTree.makeParent_blocked formed parentless grown laterFormed)
  · refine .inr ⟨FileTree.makeParent_again formed made grown laterFormed, ?_⟩
    exact FileTree.write_blocked formed made unwritten grown laterFormed _

/-- A document that cannot be made fails, and not by the store. -/
theorem carry_documenting_blocked (now : String) (result : Except Failure Outcome)
    (world : World) {generated : Document}
    (generates : pass.generator path (Text.decodeLossy bytes) = .ok generated)
    (blocked : pass.Blocked path bytes world.files) :
    ∃ fault last, carry now result (pass.documenting path bytes generated) world =
        (.error (.file fault), last) ∧ last.files = world.files ∧ last.store = world.store := by
  rw [documenting, carry]
  cases made : world.files.makeParent (pass.documentTarget path) with
  | error fault =>
      rw [World.follow, made]
      exact ⟨fault, world, rfl, rfl, rfl⟩
  | ok files =>
      rcases blocked generated generates with parentless | ⟨same, unwritten⟩
      · exact absurd made (parentless files)
      · obtain rfl : world.files = files := Except.ok.inj (same.symm.trans made)
        rw [World.follow, made]
        dsimp only
        rw [carry]
        cases wrote : world.files.write (pass.documentTarget path) generated.text.toUTF8 with
        | ok next => exact absurd wrote (unwritten next)
        | error fault =>
            rw [World.follow]
            dsimp only
            rw [wrote]
            exact ⟨fault, _, rfl, rfl, rfl⟩

/-- Documenting a file whose document cannot be made changes nothing. -/
theorem carry_blocked {now : String} {result ended : Except Failure Outcome} {world last : World}
    {score : Option Nat} (blocked : pass.Blocked path bytes world.files)
    (carried : carry now result (pass.documentCourse path bytes score).effects world =
      (ended, last)) : last.files = world.files ∧ last.store = world.store := by
  unfold documentCourse at carried
  cases generates : pass.generator path (Text.decodeLossy bytes) with
  | error failure =>
      rw [generates] at carried
      cases carried
      exact ⟨rfl, rfl⟩
  | ok generated =>
      rw [generates] at carried
      obtain ⟨fault, reached, stopped, same⟩ :=
        carry_documenting_blocked now result world generates blocked
      obtain rfl : reached = last := congrArg Prod.snd (stopped.symm.trans carried)
      exact same

end Blocked

/-! ### Files at rest -/

/-- A document of a file is due, if its contents are not documented: there is nothing to compare
them with, or a verdict is kept that does not advise against it. -/
def Due (pass : Pass) (path : String) (base : Option String) (bytes : ByteArray) (store : Store) :
    Prop :=
  base = none ∨ store.digestOf? (pass.target path) = none ∨
    ∃ commit, base = some commit ∧ (pass.history.textAt path commit = .ok none ∨
      ∃ old advice, pass.history.textAt path commit = .ok (some old) ∧
        store.adviceOf? (pass.pairOf path old bytes) = some advice ∧ advice ≠ some false)

/-- Why a pass that is not forced changes nothing for a file. -/
inductive Rests (pass : Pass) (path : String) (base : Option String) (files : FileTree)
    (store : Store) : Prop
  | absent (gone : files.exists? (pass.target path) = false)
  | unreadable (fault : FileFault) (present : files.exists? (pass.target path) = true)
      (unread : files.read (pass.target path) = .error fault)
  | documented (bytes : ByteArray) (read : files.read (pass.target path) = .ok bytes)
      (same : store.digestOf? (pass.target path) = some (Digest.ofBytes bytes))
  | untold (commit : String) (failure : Failure)
      (known : store.digestOf? (pass.target path) ≠ none) (told : base = some commit)
      (failed : pass.history.textAt path commit = .error failure)
  | advised (bytes : ByteArray) (commit old : String) (advice : Option Bool)
      (read : files.read (pass.target path) = .ok bytes)
      (known : store.digestOf? (pass.target path) ≠ none) (told : base = some commit)
      (present : pass.history.textAt path commit = .ok (some old))
      (kept : store.adviceOf? (pass.pairOf path old bytes) = some advice)
      (against : advice ≠ some true)
  | blocked (bytes : ByteArray) (read : files.read (pass.target path) = .ok bytes)
      (blocked : pass.Blocked path bytes files) (due : pass.Due path base bytes store)

section Rests

variable {pass : Pass} {path : String} {base : Option String} {files : FileTree} {store : Store}

theorem rests_again (later : String) (rests : pass.Rests path base files store) :
    (pass.again later).Rests path base files store := by
  cases rests with
  | absent gone => exact .absent gone
  | unreadable fault present unread => exact .unreadable fault present unread
  | documented bytes read same => exact .documented bytes read same
  | untold commit failure known told failed => exact .untold commit failure known told failed
  | advised bytes commit old advice read known told present kept against =>
      exact .advised bytes commit old advice read known told present kept against
  | blocked bytes read blocked due => exact .blocked bytes read blocked due

/-- A document of a file that is known is due for the text that a commit has of it, if any. -/
theorem Due.of_known {bytes : ByteArray} {commit : String} (due : pass.Due path base bytes store)
    (known : store.digestOf? (pass.target path) ≠ none) (told : base = some commit) :
    pass.history.textAt path commit = .ok none ∨
      ∃ old advice, pass.history.textAt path commit = .ok (some old) ∧
        store.adviceOf? (pass.pairOf path old bytes) = some advice ∧ advice ≠ some false := by
  rcases due with none | unknown | ⟨other, toldOther, due⟩
  · rw [told] at none
    cases none
  · exact absurd unknown known
  · obtain rfl : commit = other := Option.some.inj (told.symm.trans toldOther)
    exact due

/-- A file at rest that can be read and was not documented as it is: a commit fails to give its
text, a verdict advises against a document, or the document that is due cannot be made. -/
theorem Rests.of_differs (rests : pass.Rests path base files store) {bytes : ByteArray}
    (read : files.read (pass.target path) = .ok bytes)
    (differs : store.digestOf? (pass.target path) ≠ some (Digest.ofBytes bytes)) :
    (store.digestOf? (pass.target path) ≠ none ∧ ∃ commit, base = some commit ∧
      ((∃ failure, pass.history.textAt path commit = .error failure) ∨
        ∃ old advice, pass.history.textAt path commit = .ok (some old) ∧
          store.adviceOf? (pass.pairOf path old bytes) = some advice ∧ advice ≠ some true)) ∨
      (pass.Blocked path bytes files ∧ pass.Due path base bytes store) := by
  have present := FileTree.exists?_of_read read
  cases rests with
  | absent gone =>
      rw [gone] at present
      cases present
  | unreadable fault there unread =>
      rw [unread] at read
      cases read
  | documented other readOther same =>
      rw [readOther] at read
      cases read
      exact absurd same differs
  | untold commit failure known told failed =>
      exact .inl ⟨known, commit, told, .inl ⟨failure, failed⟩⟩
  | advised other commit old advice readOther known told there kept against =>
      rw [readOther] at read
      cases read
      exact .inl ⟨known, commit, told, .inr ⟨old, advice, there, kept, against⟩⟩
  | blocked other readOther blocked due =>
      rw [readOther] at read
      cases read
      exact .inr ⟨blocked, due⟩

/-- A document that is due for a file at rest cannot be made. -/
theorem Rests.of_baseless (rests : pass.Rests path base files store) {bytes : ByteArray}
    (read : files.read (pass.target path) = .ok bytes)
    (differs : store.digestOf? (pass.target path) ≠ some (Digest.ofBytes bytes))
    (baseless : base = none ∨ store.digestOf? (pass.target path) = none) :
    pass.Blocked path bytes files := by
  rcases rests.of_differs read differs with ⟨known, commit, told, _why⟩ | ⟨blocked, _due⟩
  · rcases baseless with none | unknown
    · rw [told] at none
      cases none
    · exact absurd unknown known
  · exact blocked

theorem Rests.of_added (rests : pass.Rests path base files store) {bytes : ByteArray}
    {commit : String} (read : files.read (pass.target path) = .ok bytes)
    (differs : store.digestOf? (pass.target path) ≠ some (Digest.ofBytes bytes))
    (told : base = some commit) (absent : pass.history.textAt path commit = .ok none) :
    pass.Blocked path bytes files := by
  rcases rests.of_differs read differs with ⟨_known, other, toldOther, why⟩ | ⟨blocked, _due⟩
  · obtain rfl : commit = other := Option.some.inj (told.symm.trans toldOther)
    rw [absent] at why
    rcases why with ⟨failure, failed⟩ | ⟨old, advice, there, _kept, _against⟩
    · cases failed
    · cases there
  · exact blocked

/-- A change of a file at rest has a verdict, and if that is in favour the document cannot be
made. -/
theorem Rests.of_changed (rests : pass.Rests path base files store) {bytes : ByteArray}
    {commit old : String} (read : files.read (pass.target path) = .ok bytes)
    (differs : store.digestOf? (pass.target path) ≠ some (Digest.ofBytes bytes))
    (known : store.digestOf? (pass.target path) ≠ none) (told : base = some commit)
    (earlier : pass.history.textAt path commit = .ok (some old)) :
    ∃ advice, store.adviceOf? (pass.pairOf path old bytes) = some advice ∧
      (advice = some true → pass.Blocked path bytes files) := by
  rcases rests.of_differs read differs with ⟨_known, other, toldOther, why⟩ | ⟨blocked, due⟩
  · obtain rfl : commit = other := Option.some.inj (told.symm.trans toldOther)
    rw [earlier] at why
    rcases why with ⟨failure, failed⟩ | ⟨text, advice, there, kept, against⟩
    · cases failed
    · cases there
      exact ⟨advice, kept, fun favours => absurd favours against⟩
  · have due := due.of_known known told
    rw [earlier] at due
    rcases due with absent | ⟨text, advice, there, kept, _favours⟩
    · cases absent
    · cases there
      exact ⟨advice, kept, fun _ => blocked⟩

theorem unforced_due {forced : Bool} {idle : Prop} (unforced : forced = false)
    (due : forced = true ∨ idle) : idle := by
  rcases due with forcedTrue | due
  · rw [unforced] at forcedTrue
    cases forcedTrue
  · exact due

theorem settled_at_rest {world last : World} {outcome : Outcome} (unforced : pass.force = false)
    (rests : pass.Rests path base world.files world.store)
    (settled : pass.settled path base world = (.ok outcome, last)) :
    last.files = world.files ∧ last.store = world.store := by
  obtain ⟨begun, ended, files, store, _listed, carried, sound⟩ := settled_carriage settled
  rw [← files, ← store] at rests carried ⊢
  have evaluated := course_evaluation pass path base begun.files begun.store
  generalize pass.course path base begun.files begun.store = course at evaluated carried
  cases evaluated with
  | baseless bytes read due baseless =>
      have blocked := rests.of_baseless read (unforced_due unforced due) baseless
      exact carry_blocked blocked carried
  | added bytes commit read due known told absent =>
      have blocked := rests.of_added read (unforced_due unforced due) told absent
      rw [Course.afterQuestion_effects] at carried
      exact carry_blocked blocked carried
  | changed bytes commit old read due known told earlier =>
      obtain ⟨advice, kept, blocked⟩ :=
        rests.of_changed read (unforced_due unforced due) known told earlier
      rw [Course.afterQuestion_effects, Course.afterQuestion_result] at carried
      have judged := judgeCourse_judgement pass path bytes old begun.store
      generalize pass.judgeCourse path bytes old begun.store = course at judged carried
      cases judged with
      | undecided failure failed =>
          cases carried
          exact ⟨rfl, rfl⟩
      | fresh documented unknown listed =>
          rw [Store.adviceOf?_none unknown] at kept
          cases kept
      | kept verdict knownVerdict =>
          rw [Store.adviceOf?_some knownVerdict] at kept
          unfold verdictCourse at carried
          split at carried
          case isFalse =>
            cases carried
            exact ⟨rfl, rfl⟩
          case isTrue favours =>
            refine carry_blocked (blocked ?_) carried
            rw [← Option.some.inj kept, favours]
  | untold commit failure known told failed =>
      rw [Course.afterQuestion_effects] at carried
      cases carried
      exact ⟨rfl, rfl⟩
  | _ =>
      cases carried
      exact ⟨rfl, rfl⟩

/-! ### What was settled is at rest -/

/-- Once a file comes into the ledger it is documented, and no file changes any more. -/
theorem documented_of_carried {bytes : ByteArray} {document : Option String}
    {summary : Option Summary} {expense : Option Expense} {begun last : World}
    {result ended : Except Failure Outcome}
    (carried : carry pass.now result (.wroteStore (.documented (pass.target path)
      (Digest.ofBytes bytes) document) ::
        (listing (pass.target path) (Digest.ofBytes bytes) summary ++
          spending (pass.target path) expense)) begun = (ended, last))
    (sound : ended ≠ .error .store) : last.files = begun.files ∧
      last.store.digestOf? (pass.target path) = some (Digest.ofBytes bytes) := by
  obtain ⟨store, listed, carried⟩ := carry_wrote carried sound
  obtain ⟨files, entries, _rest⟩ := carry_noting (fun _ mem => mem) carried
  refine ⟨files, ?_⟩
  rw [Store.digestOf?_eq, entries, ← Store.digestOf?_eq]
  exact (Store.digestOf?_write listed _).trans (if_pos rfl)

/-- Documenting a file leaves it documented, or its document cannot be made. -/
theorem documented_or_blocked {bytes : ByteArray} {score : Option Nat} {begun last : World}
    {result ended : Except Failure Outcome} (formed : begun.files.WellFormed)
    (apart : begun.files.Apart (pass.documentTarget path) (pass.target path))
    (read : begun.files.read (pass.target path) = .ok bytes)
    (carried : carry pass.now result (pass.documentCourse path bytes score).effects begun =
      (ended, last)) (sound : ended ≠ .error .store) :
    last.files.read (pass.target path) = .ok bytes ∧
      (last.store.digestOf? (pass.target path) = some (Digest.ofBytes bytes) ∨
        pass.Blocked path bytes last.files ∧ last.store = begun.store) := by
  have present := FileTree.exists?_of_read read
  unfold documentCourse at carried
  cases generates : pass.generator path (Text.decodeLossy bytes) with
  | error failure =>
      rw [generates] at carried
      cases carried
      refine ⟨read, .inr ⟨?_, rfl⟩⟩
      intro generated succeeds
      rw [generates] at succeeds
      cases succeeds
  | ok generated =>
      rw [generates] at carried
      dsimp only [documenting] at carried
      cases made : begun.files.makeParent (pass.documentTarget path) with
      | error fault =>
          rw [carry, World.follow, made] at carried
          cases carried
          refine ⟨read, .inr ⟨?_, rfl⟩⟩
          intro other _succeeds
          refine .inl (fun files done => ?_)
          rw [made] at done
          cases done
      | ok parent =>
          rw [carry, World.follow, made] at carried
          dsimp only at carried
          obtain ⟨extension, parentFormed⟩ := FileTree.makeParent_extends formed made
          have readParent := (extension.read formed parentFormed present).trans read
          have again := FileTree.makeParent_again formed made (.refl _) parentFormed
          cases wrote : parent.write (pass.documentTarget path) generated.text.toUTF8 with
          | error fault =>
              -- The directories stay, so they need not be made again and the write fails once more.
              rw [carry, World.follow] at carried
              dsimp only at carried
              rw [wrote] at carried
              cases carried
              refine ⟨readParent, .inr ⟨?_, rfl⟩⟩
              intro other succeeds
              rw [generates] at succeeds
              cases succeeds
              refine .inr ⟨again, fun next done => ?_⟩
              rw [wrote] at done
              cases done
          | ok written =>
              have grown := FileTree.write_grows parentFormed wrote
              have writtenFormed := FileTree.write_wellFormed parentFormed wrote
              have readWritten : written.read (pass.target path) = .ok bytes := by
                rw [grown.read_apart parentFormed writtenFormed (extension.grows.apart apart)
                  (fun _ outside => FileTree.write_elsewhere parentFormed wrote outside)
                  (FileTree.exists?_of_read readParent)]
                exact readParent
              rw [carry, World.follow] at carried
              dsimp only at carried
              rw [wrote] at carried
              obtain ⟨files, digest⟩ := documented_of_carried carried sound
              rw [files]
              exact ⟨readWritten, .inl digest⟩

/-- A verdict that is kept never advises the contrary; at worst it cannot be read. -/
theorem advice?_not_contrary (verdict : Store.Verdict) :
    verdict.toRow.advice? ≠ some (!verdict.recommendation.regenerate) := by
  intro contrary
  obtain ⟨reread, read, advises⟩ := Option.map_eq_some_iff.mp contrary
  rw [Store.Verdict.advice_of_ofRow? read] at advises
  generalize verdict.recommendation.regenerate = favours at advises
  cases favours <;> cases advises

theorem rests_of_verdict {bytes : ByteArray} {commit old : String} {verdict : Store.Verdict}
    {advice : Option Bool} {begun last : World} {result ended : Except Failure Outcome}
    (formed : begun.files.WellFormed)
    (apart : begun.files.Apart (pass.documentTarget path) (pass.target path))
    (read : begun.files.read (pass.target path) = .ok bytes)
    (known : begun.store.digestOf? (pass.target path) ≠ none) (told : base = some commit)
    (earlier : pass.history.textAt path commit = .ok (some old))
    (kept : begun.store.adviceOf? (pass.pairOf path old bytes) = some advice)
    (agrees : advice ≠ some (!verdict.recommendation.regenerate))
    (carried : carry pass.now result (pass.verdictCourse path bytes verdict).effects begun =
      (ended, last)) (sound : ended ≠ .error .store) :
    pass.Rests path base last.files last.store := by
  unfold verdictCourse at carried
  split at carried
  case isTrue favours =>
    rw [favours] at agrees
    obtain ⟨readLast, documented | ⟨blocked, same⟩⟩ :=
      documented_or_blocked formed apart read carried sound
    · exact .documented bytes readLast documented
    · refine .blocked bytes readLast blocked (.inr (.inr ⟨commit, told, .inr ?_⟩))
      exact ⟨old, advice, earlier, same ▸ kept, agrees⟩
  case isFalse against =>
    rw [Bool.not_eq_true] at against
    rw [against] at agrees
    cases carried
    exact .advised bytes commit old advice read known told earlier kept agrees

theorem rests_of_settled {world last : World} {outcome : Outcome}
    (formed : world.files.WellFormed)
    (apart : world.files.Apart (pass.documentTarget path) (pass.target path))
    (settled : pass.settled path base world = (.ok outcome, last)) :
    pass.Rests path base last.files last.store := by
  have calm := settled_calm settled
  obtain ⟨begun, ended, files, store, _listed, carried, sound⟩ := settled_carriage settled
  rw [← files, ← store] at calm carried
  rw [← files] at formed apart
  have evaluated := course_evaluation pass path base begun.files begun.store
  generalize pass.course path base begun.files begun.store = course at evaluated carried calm
  cases evaluated with
  | deleted gone =>
      cases carried
      exact .absent gone
  | unreadable fault present unread =>
      cases carried
      exact .unreadable fault present unread
  | unlisted unheld => exact absurd ⟨rfl, rfl⟩ calm
  | unchanged bytes read unforced same =>
      cases carried
      exact .documented bytes read same
  | untold commit failure known told failed =>
      rw [Course.afterQuestion_effects] at carried
      cases carried
      exact .untold commit failure known told failed
  | baseless bytes read due baseless =>
      obtain ⟨readLast, documented | ⟨blocked, same⟩⟩ :=
        documented_or_blocked formed apart read carried sound
      · exact .documented bytes readLast documented
      · refine .blocked bytes readLast blocked ?_
        rw [same]
        exact baseless.imp_right .inl
  | added bytes commit read due known told absent =>
      rw [Course.afterQuestion_effects] at carried
      obtain ⟨readLast, documented | ⟨blocked, same⟩⟩ :=
        documented_or_blocked formed apart read carried sound
      · exact .documented bytes readLast documented
      · exact .blocked bytes readLast blocked (.inr (.inr ⟨commit, told, .inl absent⟩))
  | changed bytes commit old read due known told earlier =>
      rw [Course.afterQuestion_effects, Course.afterQuestion_result] at carried
      have judged := judgeCourse_judgement pass path bytes old begun.store
      generalize pass.judgeCourse path bytes old begun.store = course at judged carried calm
      cases judged with
      | undecided failure failed =>
          exact absurd calm (undecided_not_calm failed)
      | kept verdict knownVerdict =>
          have advised := Store.adviceOf?_some knownVerdict
          refine rests_of_verdict formed apart read known told earlier advised ?_ carried sound
          intro same
          cases advises : verdict.recommendation.regenerate <;> simp [advises] at same
      | fresh documented unknown listed =>
          rw [Course.afterEffect_effects, Course.afterEffect_result] at carried
          obtain ⟨scored, wrote, carried⟩ := carry_wrote carried sound
          generalize pass.freshVerdict old bytes documented.names = verdict at wrote carried
          have advised : scored.adviceOf? (pass.pairOf path old bytes) =
              some verdict.toRow.advice? := by
            rw [Store.adviceOf?_write wrote, Store.Write.adviceAfter, if_pos rfl]
          -- A verdict is no entry of the ledger, so the file is known as before.
          have stays : scored.digestOf? (pass.target path) ≠ none := by
            rw [Store.digestOf?_write wrote]
            exact known
          refine rests_of_verdict ?_ ?_ ?_ ?_ told earlier ?_
            (advice?_not_contrary verdict) carried sound
          · exact formed
          · exact apart
          · exact read
          · exact stays
          · exact advised

/-! ### What is at rest stays at rest -/

/-- A file stays at rest if what its evaluation looks at stays as it is. -/
theorem Rests.undisturbed {later : FileTree} {next : Store}
    (rests : pass.Rests path base files store)
    (present : later.exists? (pass.target path) = files.exists? (pass.target path))
    (read : files.exists? (pass.target path) = true →
      later.read (pass.target path) = files.read (pass.target path))
    (digest : next.digestOf? (pass.target path) = store.digestOf? (pass.target path))
    (advice : ∀ pair kept, store.adviceOf? pair = some kept → next.adviceOf? pair = some kept)
    (blocks : ∀ bytes, pass.Blocked path bytes files → pass.Blocked path bytes later) :
    pass.Rests path base later next := by
  have readOk : ∀ bytes, files.read (pass.target path) = .ok bytes →
      later.read (pass.target path) = .ok bytes := by
    intro bytes readBytes
    rw [read (FileTree.exists?_of_read readBytes), readBytes]
  cases rests with
  | absent gone => exact .absent (present.trans gone)
  | unreadable fault there unread =>
      exact .unreadable fault (present.trans there) ((read there).trans unread)
  | documented bytes readBytes same =>
      exact .documented bytes (readOk bytes readBytes) (digest.trans same)
  | untold commit failure known told failed =>
      rw [← digest] at known
      exact .untold commit failure known told failed
  | advised bytes commit old kept readBytes known told earlier keeps against =>
      rw [← digest] at known
      exact .advised bytes commit old kept (readOk bytes readBytes) known told earlier
        (advice _ _ keeps) against
  | blocked bytes readBytes blocked due =>
      refine .blocked bytes (readOk bytes readBytes) (blocks bytes blocked) ?_
      rw [Due, digest]
      rcases due with none | unknown | ⟨commit, told, absent | ⟨old, kept, earlier, keeps, favours⟩⟩
      · exact .inl none
      · exact .inr (.inl unknown)
      · exact .inr (.inr ⟨commit, told, .inl absent⟩)
      · exact .inr (.inr ⟨commit, told, .inr ⟨old, kept, earlier, advice _ _ keeps, favours⟩⟩)

/-- A write to the store leaves a file at rest, if it leaves digest and kept advice alone. -/
theorem Rests.write {now : String} {before after : World} {write : Store.Write}
    (rests : pass.Rests path base before.files before.store)
    (digest : ∀ kept, write.digestAfter (pass.target path) kept = kept)
    (advice : ∀ pair kept, before.store.adviceOf? pair = some kept →
      write.adviceAfter pair (some kept) = some kept)
    (followed : before.follow now (.wroteStore write) = .ok after) :
    pass.Rests path base after.files after.store := by
  obtain ⟨store, wrote, rfl⟩ := follow_wroteStore.mp followed
  refine rests.undisturbed rfl (fun _ => rfl) ?_ ?_ (fun _ blocked => blocked)
  · exact (Store.digestOf?_write wrote _).trans (digest _)
  · intro pair kept keeps
    change store.adviceOf? pair = some kept
    rw [Store.adviceOf?_write wrote, keeps, advice pair kept keeps]

theorem rests_kept {tree : FileTree} {there : Bool} {found : Except FileFault ByteArray}
    {other : String} (apart : tree.Apart (pass.documentTarget other) (pass.target path)) :
    pass.Kept other (fun world => Reads tree (pass.target path) there found world.files ∧
      pass.Rests path base world.files world.store) := by
  refine ⟨?_, ?_, ?_⟩
  · intro world asked kept
    exact kept
  · rintro begun ⟨readsBegun, _rests⟩ effect documents before after followed ⟨reads, rests⟩
    have readsAfter := reads.follow apart documents rfl followed
    refine ⟨readsAfter, ?_⟩
    have present : after.files.exists? (pass.target path) =
        before.files.exists? (pass.target path) := readsAfter.present.trans reads.present.symm
    have read : before.files.exists? (pass.target path) = true →
        after.files.read (pass.target path) = before.files.read (pass.target path) := by
      intro holds
      have held := reads.present.symm.trans holds
      exact (readsAfter.contents held).trans (reads.contents held).symm
    cases documents with
    | madeParent =>
        obtain ⟨made, done, rfl⟩ := follow_madeParent.mp followed
        obtain ⟨extension, formed⟩ := FileTree.makeParent_extends reads.formed done
        exact rests.undisturbed present read rfl (fun _ _ keeps => keeps)
          (fun _ blocked => blocked.grows reads.formed extension.grows formed)
    | wroteFile text =>
        obtain ⟨next, done, rfl⟩ := follow_wroteFile.mp followed
        exact rests.undisturbed present read rfl (fun _ _ keeps => keeps)
          (fun _ blocked => blocked.grows reads.formed (FileTree.write_grows reads.formed done)
            (FileTree.write_wellFormed reads.formed done))
    | documented bytes document readOther =>
        by_cases same : pass.target other = pass.target path
        · obtain ⟨store, wrote, rfl⟩ := follow_wroteStore.mp followed
          rw [same] at readOther
          have holds := readsBegun.present.symm.trans (FileTree.exists?_of_read readOther)
          refine .documented bytes ?_ ?_
          · exact (reads.contents holds).trans ((readsBegun.contents holds).symm.trans readOther)
          · exact (Store.digestOf?_write wrote _).trans (if_pos same)
        · refine rests.write ?_ ?_ followed
          · intro kept
            exact if_neg same
          · intro pair kept keeps
            rfl
    | listed names digest => exact rests.write (fun _ => rfl) (fun _ _ _ => rfl) followed
    | spent usage => exact rests.write (fun _ => rfl) (fun _ _ _ => rfl) followed
  · rintro before after old new verdict fresh followed ⟨reads, rests⟩
    refine ⟨(reads_kept apart).scores before after old new verdict fresh followed reads,
      rests.write (fun _ => rfl) ?_ followed⟩
    · intro pair kept keeps
      have elsewhere : (⟨pass.target other, old, new⟩ : Store.Pair) ≠ pair := by
        intro same
        rw [← same, Store.adviceOf?_none fresh] at keeps
        cases keeps
      exact if_neg elsewhere

end Rests

end Pass

end DocDrift
