import DocDrift.Proofs.Pass.Cut

/-!
Files that were cut off. When a pass was cut off inside a file, a later pass does again what was done
and goes on, unless the file had come into the ledger already: then it finds the file unchanged, and
symbols that were not listed by then stay unlisted.
-/

set_option autoImplicit false

namespace DocDrift.Pass

/-! ### What may be torn -/

/-- The file of which a change would list the symbols. -/
def tearOf : Effect → Option String
  | .wroteStore (.listed path _ _) => some path
  | _ => none

theorem tearOf_madeParent (path : String) : tearOf (.madeParent path) = none := rfl

theorem tearOf_wroteFile (path text : String) : tearOf (.wroteFile path text) = none := rfl

theorem tearOf_documented (path digest : String) (document : Option String) :
    tearOf (.wroteStore (.documented path digest document)) = none := rfl

/-- A file is documented as it is, and has certain symbols. -/
structure Noted (tree : FileTree) (target : String) (bytes : ByteArray)
    (symbols : NameMap String) (world : World) : Prop where
  reads : Reads tree target true (.ok bytes) world.files
  digest : world.store.digestOf? target = some (Digest.ofBytes bytes)
  symbols : world.store.symbolsAt target = symbols

/-- How a pass that was not cut off and one that went on compare, if the first had been cut off
before a change: alike, but if symbols were to be listed those of the one file are what they would
have been, and those of the other what they were. -/
structure Resumed (tree : FileTree) (effect : Effect) (left next last resumed : World) : Prop where
  alike : Alike (tearOf effect) last resumed
  torn : ∀ target, tearOf effect = some target → ∃ bytes,
    Noted tree target bytes (next.store.symbolsAt target) last ∧
      Noted tree target bytes (left.store.symbolsAt target) resumed

section Redo

variable {pass : Pass} {path : String} {base : Option String} {bytes : ByteArray}
  {tree : FileTree}

theorem Resumed.of_alike {effect : Effect} {left next last resumed : World}
    (whole : tearOf effect = none) (alike : Alike none last resumed) :
    Resumed tree effect left next last resumed := by
  refine ⟨whole ▸ alike, ?_⟩
  intro target torn
  rw [whole] at torn
  cases torn

/-! ### Documents that are due -/

/-- If a kept verdict does not advise against it, a change leads to a document. -/
theorem due_judgeCourse {old : String} {advice : Option Bool} {store : Store}
    (kept : store.adviceOf? (pass.pairOf path old bytes) = some advice)
    (favours : advice ≠ some false) (calm : (pass.judgeCourse path bytes old store).Calm) :
    (pass.judgeCourse path bytes old store).effects =
      (pass.documentCourse path bytes none).effects := by
  have judged := judgeCourse_judgement pass path bytes old store
  generalize pass.judgeCourse path bytes old store = course at judged calm ⊢
  cases judged with
  | undecided failure failed => exact absurd calm (undecided_not_calm failed)
  | fresh documented unknown listed =>
      rw [Store.adviceOf?_none unknown] at kept
      cases kept
  | kept verdict knownVerdict =>
      rw [Store.adviceOf?_some knownVerdict] at kept
      cases kept
      unfold verdictCourse
      split
      case isTrue => exact documentCourse_score bytes _ _
      case isFalse against =>
        rw [Bool.not_eq_true] at against
        rw [against] at favours
        exact absurd rfl favours

/-- If a document is due, an evaluation documents the file. -/
theorem due_course {files : FileTree} {store : Store}
    (read : files.read (pass.target path) = .ok bytes)
    (differs : store.digestOf? (pass.target path) ≠ some (Digest.ofBytes bytes))
    (due : pass.Due path base bytes store) (calm : (pass.course path base files store).Calm) :
    (pass.course path base files store).effects =
      (pass.documentCourse path bytes none).effects := by
  have present := FileTree.exists?_of_read read
  have evaluated := course_evaluation pass path base files store
  generalize pass.course path base files store = course at evaluated calm ⊢
  cases evaluated with
  | deleted gone =>
      rw [gone] at present
      cases present
  | unreadable fault there unread =>
      rw [unread] at read
      cases read
  | unlisted unheld => exact absurd ⟨rfl, rfl⟩ calm
  | unchanged other readOther unforced same =>
      rw [readOther] at read
      cases read
      exact absurd same differs
  | baseless other readOther due baseless =>
      rw [readOther] at read
      cases read
      rfl
  | untold commit failure known told failed =>
      rcases due.of_known known told with absent | ⟨old, advice, there, _kept, _favours⟩
      · rw [failed] at absent
        cases absent
      · rw [failed] at there
        cases there
  | added other commit readOther due known told absent =>
      rw [readOther] at read
      cases read
      rfl
  | changed other commit old readOther _due known told earlier =>
      rw [readOther] at read
      cases read
      rw [Course.afterQuestion_effects]
      rcases due.of_known known told with absent | ⟨text, advice, there, kept, favours⟩
      · rw [earlier] at absent
        cases absent
      · rw [earlier] at there
        cases there
        exact due_judgeCourse kept favours calm

/-- A later pass finds a document still due, and makes it. -/
theorem redone {later : String} {begun resumed last : World} {outcome : Outcome}
    {generated : Document} (generates : pass.generator path (Text.decodeLossy bytes) = .ok generated)
    (read : resumed.files.read (pass.target path) = .ok bytes)
    (store : resumed.store = begun.store)
    (differs : begun.store.digestOf? (pass.target path) ≠ some (Digest.ofBytes bytes))
    (due : pass.Due path base bytes begun.store)
    (settled : (pass.again later).settled path base resumed = (.ok outcome, last)) :
    ∃ (restarted : World) (result ended : Except Failure Outcome), Matches restarted resumed ∧
      carry later result (pass.documenting path bytes generated) restarted = (ended, last) ∧
      ended ≠ .error .store := by
  have calm := settled_calm settled
  obtain ⟨restarted, ended, files, sameStore, _listed, carried, sound⟩ := settled_carriage settled
  rw [← store] at differs due
  have effects : ((pass.again later).course path base resumed.files resumed.store).effects =
      ((pass.again later).documentCourse path bytes none).effects :=
    due_course read differs due calm
  have document : ((pass.again later).documentCourse path bytes none).effects =
      pass.documenting path bytes generated := by
    rw [documentCourse_again later bytes none none, documentCourse, generates]
  rw [effects, document] at carried
  exact ⟨restarted, _, ended, ⟨files, sameStore⟩, carried, sound⟩

theorem follow_parent_again {now later : String} {document : String} {begun left restarted : World}
    (formed : begun.files.WellFormed)
    (followed : begun.follow now (.madeParent document) = .ok left)
    (grown : left.files.Grows restarted.files) (restartedFormed : restarted.files.WellFormed) :
    ∃ next, restarted.follow later (.madeParent document) = .ok next ∧
      Matches next restarted := by
  obtain ⟨made, done, rfl⟩ := follow_madeParent.mp followed
  have again := FileTree.makeParent_again formed done grown restartedFormed
  exact ⟨_, follow_madeParent.mpr ⟨_, again, rfl⟩, rfl, rfl⟩

theorem follow_write_again {now later : String} {document text : String}
    {begun left restarted : World} (formed : begun.files.WellFormed)
    (followed : begun.follow now (.wroteFile document text) = .ok left)
    (files : restarted.files = left.files) :
    ∃ next, restarted.follow later (.wroteFile document text) = .ok next ∧
      Matches next restarted := by
  obtain ⟨written, done, rfl⟩ := follow_wroteFile.mp followed
  have writtenFormed := FileTree.write_wellFormed formed done
  have again := FileTree.write_again formed done (.refl _) writtenFormed text.toUTF8
  obtain ⟨_mem, free, _above, same⟩ := FileTree.write_ok formed done
  have below := FileTree.ne_nil_of_not_directory free
  have kept : written.node? (begun.files.goal document) = some (.file text.toUTF8) := by
    rw [same]
    exact FileTree.node?_put_self _ below _
  rw [FileTree.put_of_node? below kept] at again
  change restarted.files = written at files
  refine ⟨_, follow_wroteFile.mpr ⟨written, ?_, rfl⟩, ?_, rfl⟩
  · rw [files, again]
  · exact files.symm

theorem store_of_madeParent {now document : String} {world next : World}
    (made : world.follow now (.madeParent document) = .ok next) : next.store = world.store := by
  obtain ⟨files, _done, rfl⟩ := follow_madeParent.mp made
  rfl

theorem store_of_wroteFile {now document text : String} {world next : World}
    (wrote : world.follow now (.wroteFile document text) = .ok next) :
    next.store = world.store := by
  obtain ⟨files, _done, rfl⟩ := follow_wroteFile.mp wrote
  rfl

theorem Matches.alike {left right : World} (same : Matches left right) : Alike none left right :=
  .of_ground same.files same.store

theorem Alike.moves {torn : Option String} {here there here' there' : World}
    (alike : Alike torn here there) (same : Matches here here') (same' : Matches there there') :
    Alike torn here' there' := by
  refine ⟨?_, ?_, ?_, ?_⟩
  · rw [← same.files, ← same'.files, alike.files]
  · rw [← same.store, ← same'.store]
    exact alike.entries
  · rw [← same.store, ← same'.store]
    exact alike.advice
  · rw [← same.store, ← same'.store]
    exact alike.symbols

theorem mem_spending_of_drop {target digest : String} {summary : Option Summary}
    {expense : Option Expense} {count : Nat} {effect : Effect}
    (mem : effect ∈ (listing target digest summary ++ spending target expense).drop (count + 1)) :
    effect ∈ spending target expense := by
  cases summary with
  | none => exact List.mem_of_mem_drop mem
  | some summary => exact List.mem_of_mem_drop (i := count) mem

theorem carry_spending {α : Type} {now target : String} {expense : Option Expense}
    {result ended : Except Failure α} {effects : List Effect} {world last : World}
    (each : ∀ effect ∈ effects, effect ∈ spending target expense)
    (carried : carry now result effects world = (ended, last)) (path : String) :
    last.store.symbolsAt path = world.store.symbolsAt path := by
  have reached : last = (carry now result effects world).2 := by rw [carried]
  rw [reached]
  refine carry_keeps (fun later => later.store.symbolsAt path = world.store.symbolsAt path) result
    ?_ rfl
  intro effect mem before next followed kept
  obtain ⟨usage, rfl⟩ := spent_of_mem_spending (each effect mem)
  obtain ⟨store, wrote, rfl⟩ := follow_wroteStore.mp followed
  exact (Store.symbolsAt_write wrote path).trans kept

/-- A pass that was cut off once the file had come into the ledger leaves it at that. -/
theorem redo_noted {later : String} {left next last resumed resumedLast : World}
    {effect : Effect} {more : List Effect} {result ended : Except Failure Outcome}
    {outcome : Outcome} {digest : String} {summary : Option Summary} {expense : Option Expense}
    (unforced : pass.force = false)
    (reads : Reads tree (pass.target path) true (.ok bytes) left.files)
    (noted : left.store.digestOf? (pass.target path) = some (Digest.ofBytes bytes))
    (effectMem : effect ∈ listing (pass.target path) digest summary ++
      spending (pass.target path) expense)
    (each : ∀ effect ∈ more, effect ∈ spending (pass.target path) expense)
    (followed : left.follow pass.now effect = .ok next)
    (carried : carry pass.now result more next = (ended, last))
    (same : Matches resumed left)
    (settled : (pass.again later).settled path base resumed = (.ok outcome, resumedLast)) :
    Resumed tree effect left next last resumedLast := by
  have rests : pass.Rests path base resumed.files resumed.store := by
    rw [same.files, same.store]
    exact .documented bytes (reads.contents rfl) noted
  have unforcedAgain : (pass.again later).force = false := unforced
  obtain ⟨files, store⟩ := settled_at_rest unforcedAgain (rests_again later rests) settled
  have stayed : Matches resumedLast left := ⟨files.trans same.files, store.trans same.store⟩
  have whole : carry pass.now result (effect :: more) left = (ended, last) := by
    rw [carry_follow followed, carried]
  have noting : ∀ other ∈ effect :: more, other ∈ listing (pass.target path) digest summary ++
      spending (pass.target path) expense := by
    intro other mem
    rcases List.mem_cons.mp mem with rfl | later
    · exact effectMem
    · exact List.mem_append_right _ (each other later)
  obtain ⟨sameFiles, entries, advice, symbols⟩ := carry_noting noting whole
  -- The later pass changes nothing; what was left of the first could reach symbols only.
  have alike : ∀ torn, (∀ other, torn ≠ some other →
      last.store.symbolsAt other = left.store.symbolsAt other) → Alike torn last resumedLast := by
    intro torn untorn
    have still : Alike torn last left := ⟨sameFiles, entries, advice, untorn⟩
    exact still.moves (.refl last) stayed.symm
  rcases List.mem_append.mp effectMem with listed | spent
  · obtain ⟨names, rfl⟩ := listed_of_mem_listing listed
    refine ⟨alike _ (fun other whole => symbols other (fun same => whole (same ▸ rfl))), ?_⟩
    intro target torn
    cases torn
    refine ⟨bytes, ⟨?_, ?_, ?_⟩, ⟨?_, ?_, ?_⟩⟩
    · rw [sameFiles]
      exact reads
    · rw [Store.digestOf?_eq, entries, ← Store.digestOf?_eq, noted]
    · exact carry_spending each carried _
    · rw [stayed.files]
      exact reads
    · rw [stayed.store, noted]
    · rw [stayed.store]
  · have untorn : tearOf effect = none := by
      obtain ⟨usage, rfl⟩ := spent_of_mem_spending spent
      rfl
    have spending : ∀ change ∈ effect :: more, change ∈ spending (pass.target path) expense := by
      intro change mem
      rcases List.mem_cons.mp mem with rfl | rest
      · exact spent
      · exact each change rest
    exact .of_alike untorn (alike _ (fun other _whole => carry_spending spending whole other))

section Documenting

variable {later : String} {begun left last resumed resumedLast : World}
  {result ended : Except Failure Outcome} {outcome : Outcome} {generated : Document}

/-- A pass that was cut off before the document was begun makes it. -/
theorem redo_begun (read : begun.files.read (pass.target path) = .ok bytes)
    (generates : pass.generator path (Text.decodeLossy bytes) = .ok generated)
    (differs : begun.store.digestOf? (pass.target path) ≠ some (Digest.ofBytes bytes))
    (due : pass.Due path base bytes begun.store)
    (carried : carry pass.now result (pass.documenting path bytes generated) begun =
      (ended, last)) (sound : ended ≠ .error .store) (same : Matches resumed begun)
    (settled : (pass.again later).settled path base resumed = (.ok outcome, resumedLast)) :
    Alike none last resumedLast := by
  rw [← same.files] at read
  obtain ⟨restarted, _, ended', start, again, sound'⟩ :=
    redone generates read same.store differs due settled
  exact carry_alike (start.trans same).symm.alike (similar_refl _) carried again sound sound'

/-- A pass that was cut off before the document was written finds its directory. -/
theorem redo_parent (apart : tree.Apart (pass.documentTarget path) (pass.target path))
    (reads : Reads tree (pass.target path) true (.ok bytes) begun.files)
    (generates : pass.generator path (Text.decodeLossy bytes) = .ok generated)
    (differs : begun.store.digestOf? (pass.target path) ≠ some (Digest.ofBytes bytes))
    (due : pass.Due path base bytes begun.store)
    (carried : carry pass.now result (pass.documenting path bytes generated) begun =
      (ended, last)) (sound : ended ≠ .error .store)
    (made : begun.follow pass.now (.madeParent (pass.documentTarget path)) = .ok left)
    (same : Matches resumed left)
    (settled : (pass.again later).settled path base resumed = (.ok outcome, resumedLast)) :
    Alike none last resumedLast := by
  have documents : pass.Documents path begun.files (.madeParent (pass.documentTarget path)) :=
    .madeParent
  have readsLeft := reads.follow apart documents rfl made
  have store : resumed.store = begun.store := by
    rw [same.store, store_of_madeParent made]
  have read : resumed.files.read (pass.target path) = .ok bytes := by
    rw [same.files, readsLeft.contents rfl]
  obtain ⟨restarted, _, ended', start, again, sound'⟩ :=
    redone generates read store differs due settled
  have files : restarted.files = left.files := start.files.trans same.files
  have grown : left.files.Grows restarted.files := files ▸ .refl _
  have formed : restarted.files.WellFormed := files ▸ readsLeft.formed
  obtain ⟨next, remade, sameNext⟩ := follow_parent_again reads.formed made grown formed
  rw [documenting, carry_follow made] at carried
  rw [documenting, carry_follow remade] at again
  have together := (sameNext.trans (start.trans same)).symm
  exact carry_alike together.alike (similar_refl _) carried again sound sound'

/-- A pass that was cut off once the document was written writes it again. -/
theorem redo_file {parent : World}
    (apart : tree.Apart (pass.documentTarget path) (pass.target path))
    (reads : Reads tree (pass.target path) true (.ok bytes) begun.files)
    (generates : pass.generator path (Text.decodeLossy bytes) = .ok generated)
    (differs : begun.store.digestOf? (pass.target path) ≠ some (Digest.ofBytes bytes))
    (due : pass.Due path base bytes begun.store)
    (carried : carry pass.now result (pass.documenting path bytes generated) begun =
      (ended, last)) (sound : ended ≠ .error .store)
    (made : begun.follow pass.now (.madeParent (pass.documentTarget path)) = .ok parent)
    (wrote : parent.follow pass.now (.wroteFile (pass.documentTarget path) generated.text) =
      .ok left) (same : Matches resumed left)
    (settled : (pass.again later).settled path base resumed = (.ok outcome, resumedLast)) :
    Alike none last resumedLast := by
  have parents : pass.Documents path begun.files (.madeParent (pass.documentTarget path)) :=
    .madeParent
  have writes : pass.Documents path begun.files
      (.wroteFile (pass.documentTarget path) generated.text) := .wroteFile _
  have readsParent := reads.follow apart parents rfl made
  have readsLeft := readsParent.follow apart writes rfl wrote
  have store : resumed.store = begun.store := by
    rw [same.store, store_of_wroteFile wrote, store_of_madeParent made]
  have read : resumed.files.read (pass.target path) = .ok bytes := by
    rw [same.files, readsLeft.contents rfl]
  obtain ⟨restarted, _, ended', start, again, sound'⟩ :=
    redone generates read store differs due settled
  have files : restarted.files = left.files := start.files.trans same.files
  obtain ⟨written, done, reached⟩ := follow_wroteFile.mp wrote
  have leftFiles : left.files = written := by rw [← reached]
  have grown : parent.files.Grows restarted.files := by
    rw [files, leftFiles]
    exact FileTree.write_grows readsParent.formed done
  have formed : restarted.files.WellFormed := files ▸ readsLeft.formed
  obtain ⟨remadeParent, remade, sameParent⟩ :=
    follow_parent_again reads.formed made grown formed
  have parentFiles : remadeParent.files = left.files := sameParent.files.trans files
  obtain ⟨next, rewrote, sameNext⟩ := follow_write_again readsParent.formed wrote parentFiles
  rw [documenting, carry_follow made, carry_follow wrote] at carried
  rw [documenting, carry_follow remade, carry_follow rewrote] at again
  have together := (sameNext.trans (sameParent.trans (start.trans same))).symm
  exact carry_alike together.alike (similar_refl _) carried again sound sound'

/-- While a file is documented, its path leads to the same as before. -/
theorem reads_documented {parent written noted : World} {digest : String}
    {document : Option String} {text : String}
    (apart : tree.Apart (pass.documentTarget path) (pass.target path))
    (reads : Reads tree (pass.target path) true (.ok bytes) begun.files)
    (made : begun.follow pass.now (.madeParent (pass.documentTarget path)) = .ok parent)
    (wrote : parent.follow pass.now (.wroteFile (pass.documentTarget path) text) = .ok written)
    (listed : written.follow pass.now (.wroteStore (.documented (pass.target path) digest
      document)) = .ok noted) :
    Reads tree (pass.target path) true (.ok bytes) noted.files := by
  have parents : pass.Documents path begun.files (.madeParent (pass.documentTarget path)) :=
    .madeParent
  have writes : pass.Documents path begun.files (.wroteFile (pass.documentTarget path) text) :=
    .wroteFile _
  have readsParent := reads.follow apart parents rfl made
  have readsWritten := readsParent.follow apart writes rfl wrote
  obtain ⟨store, _done, rfl⟩ := follow_wroteStore.mp listed
  exact readsWritten

theorem place_of_three {α : Type} {first second third value : α} {rest : List α} {count : Nat}
    (here : (first :: second :: third :: rest)[count]? = some value) :
    (count = 0 ∧ first = value) ∨ (count = 1 ∧ second = value) ∨ (count = 2 ∧ third = value) ∨
      ∃ place, count = place + 3 ∧ rest[place]? = some value := by
  match count with
  | 0 => exact .inl ⟨rfl, Option.some.inj here⟩
  | 1 => exact .inr (.inl ⟨rfl, Option.some.inj here⟩)
  | 2 => exact .inr (.inr (.inl ⟨rfl, Option.some.inj here⟩))
  | place + 3 => exact .inr (.inr (.inr ⟨place, rfl, here⟩))

/-- A pass that was cut off while a file was documented documents it all the same. -/
theorem redo_documenting {next : World} {effect : Effect} {count : Nat}
    (unforced : pass.force = false)
    (apart : tree.Apart (pass.documentTarget path) (pass.target path))
    (reads : Reads tree (pass.target path) true (.ok bytes) begun.files)
    (generates : pass.generator path (Text.decodeLossy bytes) = .ok generated)
    (differs : begun.store.digestOf? (pass.target path) ≠ some (Digest.ofBytes bytes))
    (due : pass.Due path base bytes begun.store)
    (carried : carry pass.now result (pass.documenting path bytes generated) begun =
      (ended, last)) (sound : ended ≠ .error .store)
    (part : carry pass.now (.ok ()) ((pass.documenting path bytes generated).take count) begun =
      (.ok (), left))
    (here : (pass.documenting path bytes generated)[count]? = some effect)
    (followed : left.follow pass.now effect = .ok next) (same : Matches resumed left)
    (settled : (pass.again later).settled path base resumed = (.ok outcome, resumedLast)) :
    Resumed tree effect left next last resumedLast := by
  rw [documenting] at part here
  rcases place_of_three here with ⟨rfl, rfl⟩ | ⟨rfl, rfl⟩ | ⟨rfl, rfl⟩ | ⟨place, rfl, behind⟩
  · obtain rfl := carry_nil_ok part
    refine .of_alike (tearOf_madeParent _) ?_
    exact redo_begun (reads.contents rfl) generates differs due carried sound same settled
  · rw [List.take_succ_cons, List.take_zero] at part
    obtain ⟨parent, made, part⟩ := carry_cons_ok part
    obtain rfl := carry_nil_ok part
    refine .of_alike (tearOf_wroteFile _ _) ?_
    exact redo_parent apart reads generates differs due carried sound made same settled
  · rw [List.take_succ_cons, List.take_succ_cons, List.take_zero] at part
    obtain ⟨parent, made, part⟩ := carry_cons_ok part
    obtain ⟨written, wrote, part⟩ := carry_cons_ok part
    obtain rfl := carry_nil_ok part
    refine .of_alike (tearOf_documented _ _ _) ?_
    exact redo_file apart reads generates differs due carried sound made wrote same settled
  · rw [List.take_succ_cons, List.take_succ_cons, List.take_succ_cons] at part
    obtain ⟨parent, made, part⟩ := carry_cons_ok part
    obtain ⟨written, wrote, part⟩ := carry_cons_ok part
    obtain ⟨noted, listed, part⟩ := carry_cons_ok part
    rw [documenting, carry_follow made, carry_follow wrote, carry_follow listed] at carried
    have readsNoted := reads_documented apart reads made wrote listed
    have digest : noted.store.digestOf? (pass.target path) = some (Digest.ofBytes bytes) := by
      obtain ⟨store, done, rfl⟩ := follow_wroteStore.mp listed
      exact (Store.digestOf?_write done _).trans (if_pos rfl)
    obtain ⟨files, entries, _rest⟩ := carry_noting (fun _ mem => List.mem_of_mem_take mem) part
    have short : place < (listing (pass.target path) (Digest.ofBytes bytes) (summaryOf bytes) ++
        spending (pass.target path) generated.expense).length :=
      (List.getElem?_eq_some_iff.mp behind).1
    rw [← List.take_append_drop place (listing _ _ _ ++ _), carry_append _ _ part,
      List.drop_eq_getElem_cons short, (List.getElem?_eq_some_iff.mp behind).2,
      carry_follow followed] at carried
    have readsLeft : Reads tree (pass.target path) true (.ok bytes) left.files := by
      rw [files]
      exact readsNoted
    have digestLeft : left.store.digestOf? (pass.target path) = some (Digest.ofBytes bytes) := by
      rw [Store.digestOf?_eq, entries, ← Store.digestOf?_eq, digest]
    exact redo_noted unforced readsLeft digestLeft (List.mem_of_getElem? behind)
      (fun _ => mem_spending_of_drop) followed carried same settled

end Documenting

end Redo

end DocDrift.Pass
