import DocDrift.Proofs.FileTree.Directories
import DocDrift.Proofs.Pass.Marker
import DocDrift.Proofs.Store.Holdings
import Mathlib.Data.List.Nodup

/-!
What the outcomes of a pass say about the store. A file that was processed is held with the digest of
the bytes that were read, its document and the symbols of its source, and its generation was charged;
nothing is changed of any other file. Verdicts only come, at most one for each file.
-/

set_option autoImplicit false

namespace DocDrift.Pass

/-! ### A documented file -/

/-- What is held of a file after a document of some bytes was noted, by what was held before. -/
structure Notes (pass : Pass) (path : String) (bytes : ByteArray) (document : String)
    (before after : Store.Holding) : Prop where
  row : after.row = .ok (some ⟨Digest.ofBytes bytes, some document, pass.now⟩)
  listed : ∀ summary, Summary.ofSource (Text.decodeLossy bytes) = .ok summary →
    ∃ rows, before.symbols = .ok rows ∧ after.symbols =
      .ok (Store.listSymbols pass.now (Digest.ofBytes bytes) summary.symbolNames rows)
  unlisted : ∀ fault, Summary.ofSource (Text.decodeLossy bytes) = .error fault →
    after.symbols = before.symbols
  charged : ∃ generated, pass.generator path (Text.decodeLossy bytes) = .ok generated ∧
    (generated.expense = none → after.usage = before.usage) ∧
    ∀ expense, generated.expense = some expense → ∃ number, after.usage = before.usage ++
      [⟨number, ⟨expense.model, expense.input, expense.output, Store.keptCost expense.cost,
        some (pass.target path)⟩, pass.now⟩]

section Documenting

variable {pass : Pass} {path : String} {bytes : ByteArray} {generated : Document}

theorem carry_writes_error {α : Type} {now : String} {value : α} {effects : List Effect}
    {world after : World} {failure : Failure}
    (writes : ∀ effect ∈ effects, ∃ write, effect = .wroteStore write)
    (carried : carry now (.ok value) effects world = (.error failure, after)) :
    failure = .store := by
  induction effects generalizing world with
  | nil => cases carried
  | cons effect rest ih =>
      obtain ⟨write, rfl⟩ := writes effect List.mem_cons_self
      rw [carry] at carried
      cases followed : world.follow now (.wroteStore write) with
      | error other =>
          rw [followed] at carried
          cases carried
          exact follow_wroteStore_error followed
      | ok next =>
          rw [followed] at carried
          exact ih (fun other mem => writes other (List.mem_cons_of_mem _ mem)) carried

theorem noting_writes (target digest : String) (summary : Option Summary) (expense : Option Expense) :
    ∀ effect ∈ listing target digest summary ++ spending target expense,
      ∃ write, effect = .wroteStore write := by
  intro effect mem
  rcases List.mem_append.mp mem with mem | mem
  · obtain ⟨names, same⟩ := listed_of_mem_listing mem
    exact ⟨_, same⟩
  · obtain ⟨usage, same⟩ := spent_of_mem_spending mem
    exact ⟨_, same⟩

/-- Documenting that fails, but not by the store, has made directories at most. -/
theorem documenting_error {value : Outcome} {world after : World} {failure : Failure}
    (carried : carry pass.now (.ok value) (pass.documenting path bytes generated) world =
      (.error failure, after)) (harmless : failure.isFatal = false) :
    after.store = world.store ∧ (after.files = world.files ∨
      world.files.makeParent (pass.documentTarget path) = .ok after.files) := by
  unfold documenting at carried
  rw [carry] at carried
  cases made : world.follow pass.now (.madeParent (pass.documentTarget path)) with
  | error other =>
      rw [made] at carried
      cases carried
      exact ⟨rfl, .inl rfl⟩
  | ok parent =>
      obtain ⟨files, done, rfl⟩ := follow_madeParent.mp made
      rw [made] at carried
      dsimp only at carried
      rw [carry] at carried
      split at carried
      case h_2 other failed =>
        cases carried
        exact ⟨rfl, .inr done⟩
      case h_1 written wrote =>
        obtain ⟨files, _done, rfl⟩ := follow_wroteFile.mp wrote
        have writes : ∀ effect ∈ Effect.wroteStore (.documented (pass.target path)
            (Digest.ofBytes bytes) (some (pass.config.documentPath path))) ::
            (listing (pass.target path) (Digest.ofBytes bytes) (summaryOf bytes) ++
              spending (pass.target path) generated.expense),
            ∃ write, effect = .wroteStore write := by
          intro effect mem
          rcases List.mem_cons.mp mem with rfl | mem
          · exact ⟨_, rfl⟩
          · exact noting_writes _ _ _ _ effect mem
        rw [carry_writes_error writes carried] at harmless
        cases harmless

/-- What listing the symbols of a file comes to, if that and what follows succeeds. -/
theorem listing_ok {α : Type} {now target digest : String} {summary : Option Summary}
    {result : Except Failure α} {rest : List Effect} {world after : World} {value : α}
    (carried : carry now result (listing target digest summary ++ rest) world =
      (.ok value, after)) :
    ∃ next : World, carry now result rest next = (.ok value, after) ∧
      Store.Accounts [] [target] world.store next.store ∧
      next.store.row? target = world.store.row? target ∧
      (summary = none → next.store.symbolsOf target = world.store.symbolsOf target) ∧
      (∀ found, summary = some found → ∃ rows, world.store.symbolsOf target = .ok rows ∧
        next.store.symbolsOf target =
          .ok (Store.listSymbols now digest found.symbolNames rows)) ∧
      next.store.usageOf target = world.store.usageOf target := by
  cases summary with
  | none => exact ⟨world, carried, .refl _ _ _, rfl, fun _ => rfl, nofun, rfl⟩
  | some summary =>
      obtain ⟨next, followed, rested⟩ := carry_cons_ok carried
      obtain ⟨store, wrote, rfl⟩ := follow_wroteStore.mp followed
      obtain ⟨row, symbols, usage⟩ := Store.symbolsOf_listed wrote
      refine ⟨_, rested, .of_write wrote rfl (fun _ => rfl), row, nofun, ?_, usage⟩
      rintro found ⟨rfl⟩
      exact symbols

/-- What charging a file for its document comes to, if it succeeds. -/
theorem spending_ok {α : Type} {now target : String} {expense : Option Expense}
    {result : Except Failure α} {world after : World} {value : α}
    (carried : carry now result (spending target expense) world = (.ok value, after)) :
    Store.Accounts [] [target] world.store after.store ∧
      after.store.row? target = world.store.row? target ∧
      after.store.symbolsOf target = world.store.symbolsOf target ∧
      (expense = none → after.store.usageOf target = world.store.usageOf target) ∧
      ∀ found, expense = some found → ∃ number,
        after.store.usageOf target = world.store.usageOf target ++
          [⟨number, ⟨found.model, found.input, found.output, Store.keptCost found.cost,
            some target⟩, now⟩] := by
  cases expense with
  | none =>
      obtain rfl := carry_nil_ok carried
      exact ⟨.refl _ _ _, rfl, rfl, fun _ => rfl, nofun⟩
  | some expense =>
      obtain ⟨next, followed, rested⟩ := carry_cons_ok carried
      obtain rfl := carry_nil_ok rested
      obtain ⟨store, wrote, rfl⟩ := follow_wroteStore.mp followed
      obtain ⟨row, symbols, usage⟩ := Store.usageOf_spent rfl wrote
      refine ⟨.of_write wrote rfl (fun _ => rfl), row, symbols, nofun, ?_⟩
      rintro found ⟨rfl⟩
      exact usage

theorem documenting_ok {value outcome : Outcome} {world after : World}
    (generates : pass.generator path (Text.decodeLossy bytes) = .ok generated)
    (carried : carry pass.now (.ok value) (pass.documenting path bytes generated) world =
      (.ok outcome, after)) :
    pass.Notes path bytes (pass.config.documentPath path)
        (world.store.holdingOf (pass.target path)) (after.store.holdingOf (pass.target path)) ∧
      Store.Accounts [] [pass.target path] world.store after.store := by
  obtain ⟨parent, made, carried⟩ := carry_cons_ok carried
  obtain ⟨written, wrote, carried⟩ := carry_cons_ok carried
  obtain ⟨noted, documented, carried⟩ := carry_cons_ok carried
  obtain ⟨files, _done, rfl⟩ := follow_madeParent.mp made
  obtain ⟨files', _done, rfl⟩ := follow_wroteFile.mp wrote
  obtain ⟨store, done, rfl⟩ := follow_wroteStore.mp documented
  obtain ⟨row, symbols, usage⟩ := Store.row?_documented done
  obtain ⟨listed, carried, accounts, listedRow, unlisted, relisted, listedUsage⟩ :=
    listing_ok carried
  obtain ⟨accounts', spentRow, spentSymbols, uncharged, charged⟩ := spending_ok carried
  have first : Store.Accounts [] [pass.target path] world.store store :=
    .of_write done rfl (fun _ => rfl)
  refine ⟨⟨?_, ?_, ?_, generated, generates, ?_, ?_⟩, (first.trans accounts).trans accounts'⟩
  · exact spentRow.trans (listedRow.trans row)
  · intro summary accepted
    have found : summaryOf bytes = some summary := by rw [summaryOf, accepted]; rfl
    obtain ⟨rows, before, now⟩ := relisted summary found
    exact ⟨rows, symbols.symm.trans before, spentSymbols.trans now⟩
  · intro fault refused
    have none : summaryOf bytes = none := by rw [summaryOf, refused]; rfl
    exact spentSymbols.trans ((unlisted none).trans symbols)
  · intro free
    exact (uncharged free).trans (listedUsage.trans usage)
  · intro expense spent
    obtain ⟨number, appended⟩ := charged expense spent
    rw [listedUsage] at appended
    exact ⟨number, appended.trans (congrArg (· ++ _) usage)⟩

end Documenting

/-! ### Settling a file -/

/-- The files whose documents a pass made, as the store names them. -/
def documented (pass : Pass) (outcomes : List Outcome) : List String :=
  (outcomes.filter Outcome.isProcessed).map (fun outcome => pass.target outcome.path)

/-- What the outcome of a file says: the store accounts for it, and if the file was processed, then
its bytes were read and noted. -/
structure Settles (pass : Pass) (path : String) (begun : World) (outcome : Outcome)
    (after : World) : Prop where
  accounts : Store.Accounts [pass.target path] (pass.documented [outcome]) begun.store after.store
  noted : ∀ name score document, outcome = .processed name score document →
    ∃ bytes, begun.files.read (pass.target path) = .ok bytes ∧
      pass.Notes path bytes document (begun.store.holdingOf (pass.target path))
        (after.store.holdingOf (pass.target path))

section Settling

variable {pass : Pass} {path : String} {bytes : ByteArray} {begun world after : World}
  {outcome : Outcome} {ended : Except Failure Outcome}

theorem settles_of_idle (idle : outcome.isProcessed = false)
    (accounts : Store.Accounts [pass.target path] [] begun.store after.store) :
    pass.Settles path begun outcome after := by
  refine ⟨accounts.mono (List.nil_subset _), ?_⟩
  rintro name score document rfl
  cases idle

theorem settles_of_failed {failure : Failure} (reported : Reported path ended outcome)
    (accounts : Store.Accounts [pass.target path] [] begun.store world.store)
    (carried : carry pass.now (.error failure) [] world = (ended, after)) :
    pass.Settles path begun outcome after := by
  cases carried
  cases reported
  exact settles_of_idle rfl accounts

theorem settles_of_skipped {name reason : String} (reported : Reported path ended outcome)
    (accounts : Store.Accounts [pass.target path] [] begun.store world.store)
    (carried : carry pass.now (.ok (.skipped name reason)) [] world = (ended, after)) :
    pass.Settles path begun outcome after := by
  cases carried
  cases reported
  exact settles_of_idle rfl accounts

theorem documentCourse_settles {score : Option Nat} (reported : Reported path ended outcome)
    (read : begun.files.read (pass.target path) = .ok bytes)
    (accounts : Store.Accounts [pass.target path] [] begun.store world.store)
    (carried : carry pass.now (pass.documentCourse path bytes score).result
      (pass.documentCourse path bytes score).effects world = (ended, after)) :
    pass.Settles path begun outcome after := by
  unfold documentCourse at carried
  cases generates : pass.generator path (Text.decodeLossy bytes) with
  | error failure =>
      rw [generates] at carried
      exact settles_of_failed reported accounts carried
  | ok generated =>
      rw [generates] at carried
      dsimp only at carried
      cases reported with
      | failed failure harmless =>
          -- A failure of the store would have ended the pass, so the store was not written at all.
          apply settles_of_idle rfl
          rw [(documenting_error carried harmless).1]
          exact accounts
      | done =>
          obtain ⟨notes, noted⟩ := documenting_ok generates carried
          cases carry_ok carried
          refine ⟨(accounts.mono (List.nil_subset _)).trans noted, ?_⟩
          rintro name score document ⟨rfl⟩
          rw [accounts.held _ List.not_mem_nil] at notes
          exact ⟨bytes, read, notes⟩

theorem verdictCourse_settles {verdict : Store.Verdict} (reported : Reported path ended outcome)
    (read : begun.files.read (pass.target path) = .ok bytes)
    (accounts : Store.Accounts [pass.target path] [] begun.store world.store)
    (carried : carry pass.now (pass.verdictCourse path bytes verdict).result
      (pass.verdictCourse path bytes verdict).effects world = (ended, after)) :
    pass.Settles path begun outcome after := by
  unfold verdictCourse at carried
  split at carried
  · exact documentCourse_settles reported read accounts carried
  · exact settles_of_skipped reported accounts carried

theorem judgeCourse_settles {old : String} (reported : Reported path ended outcome)
    (read : begun.files.read (pass.target path) = .ok bytes) (same : world.store = begun.store)
    (carried : carry pass.now (pass.judgeCourse path bytes old begun.store).result
      (pass.judgeCourse path bytes old begun.store).effects world = (ended, after)) :
    pass.Settles path begun outcome after := by
  have accounts : Store.Accounts [pass.target path] [] begun.store world.store :=
    same ▸ .refl _ _ _
  have judged := judgeCourse_judgement pass path bytes old begun.store
  generalize pass.judgeCourse path bytes old begun.store = course at judged carried
  cases judged with
  | undecided failure failed => exact settles_of_failed reported accounts carried
  | kept verdict known => exact verdictCourse_settles reported read accounts carried
  | fresh documented unknown listed =>
      rw [Course.afterEffect_effects, Course.afterEffect_result, carry] at carried
      split at carried
      case h_1 next followed =>
        obtain ⟨store, wrote, rfl⟩ := follow_wroteStore.mp followed
        rw [same] at wrote
        exact verdictCourse_settles reported read (.of_scored unknown wrote) carried
      case h_2 failure failed => exact settles_of_failed reported accounts carried

theorem course_settles {base : Option String} (reported : Reported path ended outcome)
    (same : world.store = begun.store)
    (carried : carry pass.now (pass.course path base begun.files begun.store).result
      (pass.course path base begun.files begun.store).effects world = (ended, after)) :
    pass.Settles path begun outcome after := by
  have accounts : Store.Accounts [pass.target path] [] begun.store world.store :=
    same ▸ .refl _ _ _
  have evaluated := course_evaluation pass path base begun.files begun.store
  generalize pass.course path base begun.files begun.store = course at evaluated carried
  cases evaluated with
  | deleted gone => exact settles_of_skipped reported accounts carried
  | unreadable fault present unread => exact settles_of_failed reported accounts carried
  | unlisted unheld => exact settles_of_failed reported accounts carried
  | unchanged bytes read unforced digest => exact settles_of_skipped reported accounts carried
  | baseless bytes read due baseless => exact documentCourse_settles reported read accounts carried
  | untold commit failure known told failed => exact settles_of_failed reported accounts carried
  | added bytes commit read due known told absent =>
      exact documentCourse_settles reported read accounts carried
  | changed bytes commit old read due known told present =>
      exact judgeCourse_settles reported read same carried

theorem settled_settles {base : Option String}
    (settled : pass.settled path base begun = (.ok outcome, after)) :
    pass.Settles path begun outcome after := by
  obtain ⟨ended, carried, reported⟩ := settled_ended settled
  unfold Course.carriedOut at carried
  refine course_settles reported ?_ carried
  rfl

end Settling

/-! ### Settling files one after another -/

section Documented

variable {pass : Pass} {base : Option String} {paths : List String} {world last : World}
  {outcome : Outcome} {outcomes earlier later : List Outcome}

theorem documented_cons (outcome : Outcome) (outcomes : List Outcome) :
    pass.documented (outcome :: outcomes) = pass.documented [outcome] ++ pass.documented outcomes := by
  cases outcome <;> rfl

theorem mem_documented {target : String} : target ∈ pass.documented outcomes ↔
    ∃ outcome ∈ outcomes, outcome.isProcessed = true ∧ pass.target outcome.path = target := by
  simp only [documented, List.mem_map, List.mem_filter, and_assoc]

theorem documented_subset (pass : Pass) (outcomes : List Outcome) :
    pass.documented outcomes ⊆ outcomes.map (fun outcome => pass.target outcome.path) :=
  List.map_subset _ List.filter_sublist.subset

/-- The store accounts for all outcomes together. -/
theorem settledAll_accounts (settled : pass.settledAll base paths world = (.ok outcomes, last)) :
    Store.Accounts (outcomes.map (fun outcome => pass.target outcome.path))
      (pass.documented outcomes) world.store last.store := by
  -- Each file starts from the store that the one before it left.
  induction paths generalizing world outcomes with
  | nil =>
      obtain ⟨rfl, rfl⟩ := settledAll_nil settled
      exact .refl _ _ _
  | cons path rest ih =>
      obtain ⟨outcome, others, middle, first, rested, rfl⟩ := settledAll_cons settled
      have accounts := (settled_settles first).accounts
      rw [← settled_path first] at accounts
      rw [documented_cons]
      exact (accounts.mono (List.subset_append_left _ _)).trans
        ((ih rested).mono (List.subset_append_right _ _))

/-- Each outcome was settled after the earlier ones and before the later ones. -/
theorem settledAll_split
    (settled : pass.settledAll base paths world = (.ok (earlier ++ outcome :: later), last)) :
    ∃ begun after, pass.settledAll base (earlier.map Outcome.path) world = (.ok earlier, begun) ∧
      pass.settled outcome.path base begun = (.ok outcome, after) ∧
      pass.settledAll base (later.map Outcome.path) after = (.ok later, last) := by
  induction earlier generalizing paths world with
  | nil =>
      cases paths with
      | nil => cases settled
      | cons path rest =>
          obtain ⟨first, others, middle, here, rested, same⟩ := settledAll_cons settled
          cases same
          rw [← settled_path here] at here
          rw [← settledAll_paths rested] at rested
          exact ⟨world, middle, rfl, here, rested⟩
  | cons first earlier ih =>
      cases paths with
      | nil => cases settled
      | cons path rest =>
          obtain ⟨head, others, middle, here, rested, same⟩ := settledAll_cons settled
          cases same
          obtain ⟨begun, after, before, settles, behind⟩ := ih rested
          refine ⟨begun, after, ?_, settles, behind⟩
          rw [List.map_cons, settled_path here, settledAll, here]
          dsimp only
          rw [before]

end Documented

/-! ### A whole pass -/

/-- Where a pass has got to with its first outcomes. -/
def Reaches (pass : Pass) (files : FileTree) (store : Store) (earlier : List Outcome)
    (begun : World) : Prop :=
  ∃ base asked, pass.baseFor (store.commitOf? pass.repository) = .ok base ∧
    (pass.settleAll base (earlier.map Outcome.path)).run { World.start files store with asked } =
      (.ok earlier, begun)

/-- What a pass makes of the store is what its outcomes say: of a file that was processed, what it
read is noted, and nothing is changed of any other file; of the verdicts and the usage that were
kept, nothing is lost. -/
structure EffectsMatch (pass : Pass) (files : FileTree) (store : Store) (report : Report)
    (after : World) : Prop where
  candidates : report.outcomes = [] ∨
    ∃ head, pass.Candidates store head (report.outcomes.map Outcome.path)
  processed : ∀ earlier path score document later,
    report.outcomes = earlier ++ .processed path score document :: later →
    ∃ begun bytes, pass.Reaches files store earlier begun ∧
      begun.files.read (pass.target path) = .ok bytes ∧
      pass.Notes path bytes document (store.holdingOf (pass.target path))
        (after.store.holdingOf (pass.target path))
  otherwise : ∀ outcome ∈ report.outcomes, outcome.isProcessed = false →
    after.store.holdingOf (pass.target outcome.path) = store.holdingOf (pass.target outcome.path)
  elsewhere : ∀ path, path ∉ report.outcomes.map (fun outcome => pass.target outcome.path) →
    after.store.holdingOf path = store.holdingOf path
  analyses : ∃ gained : Keyed Store.Pair Store.AnalysisRow,
    after.store.analyses = store.analyses.map (· ++ gained) ∧
    (gained.map (·.1.path)).Sublist (report.outcomes.map (fun outcome => pass.target outcome.path))
  usage : ∃ spent : List Store.UsageRow, after.store.usage = store.usage.map (· ++ spent) ∧
    ∀ row ∈ spent, ∃ outcome ∈ report.outcomes,
      outcome.isProcessed = true ∧ row.usage.path = some (pass.target outcome.path)

section Run

variable {pass : Pass} {files : FileTree} {store : Store} {report : Report} {after : World}

theorem effectsMatch_of_idle (none : report.outcomes = []) (same : after.store = store) :
    pass.EffectsMatch files store report after := by
  refine ⟨.inl none, ?_, ?_, fun path _absent => same ▸ rfl, ⟨[], by simp [same], List.nil_sublist _⟩,
    ⟨[], by simp [same], List.forall_mem_nil _⟩⟩
  · intro earlier path score document later split
    rw [none] at split
    exact absurd split.symm (List.append_ne_nil_of_right_ne_nil _ (List.cons_ne_nil _ _))
  · intro outcome mem
    rw [none] at mem
    cases mem

/-- Files that were settled one after another, each of them once. -/
theorem effectsMatch_of_settled {head : String} {base : Option String} {named : List String}
    {asked : List Question} {last : World}
    (started : pass.baseFor (store.commitOf? pass.repository) = .ok base)
    (told : pass.namedFor base head = .ok named)
    (settled : pass.settledAll base (named.filter pass.config.tracks)
      { World.start files store with asked } = (.ok report.outcomes, last))
    (distinct : (report.outcomes.map (fun outcome => pass.target outcome.path)).Nodup)
    (marked : Store.Accounts [] [] last.store after.store) :
    pass.EffectsMatch files store report after := by
  have accounts : Store.Accounts _ _ store last.store := settledAll_accounts settled
  have whole := accounts.trans (marked.mono (List.nil_subset _))
  rw [List.append_nil] at whole
  refine ⟨.inr ⟨head, base, named, started, told, settledAll_paths settled⟩, ?_, ?_, ?_,
    whole.analyses, ?_⟩
  · intro earlier path score document later split
    rw [split] at settled distinct
    obtain ⟨begun, middle, before, settles, behind⟩ := settledAll_split settled
    obtain ⟨bytes, read, notes⟩ := (settled_settles settles).noted path score document rfl
    refine ⟨begun, bytes, ⟨base, asked, started, ?_⟩, read, ?_⟩
    · rw [run_settleAll, before]
    · -- No earlier and no later file is this one, so what is held of it changed only here.
      rw [List.map_append, List.map_cons, List.nodup_middle, List.nodup_cons, List.mem_append,
        not_or] at distinct
      have untouched := (settledAll_accounts before).held (pass.target path)
        (fun mem => distinct.1.1 (documented_subset pass earlier mem))
      have kept := (settledAll_accounts behind).held (pass.target path)
        (fun mem => distinct.1.2 (documented_subset pass later mem))
      rw [marked.held _ List.not_mem_nil, kept]
      change pass.Notes path bytes document (begun.store.holdingOf (pass.target path)) _ at notes
      rw [untouched] at notes
      exact notes
  · intro outcome mem idle
    apply whole.held
    intro documented
    obtain ⟨other, mem', processed, same⟩ := mem_documented.mp documented
    have equal : other = outcome := List.inj_on_of_nodup_map distinct mem' mem same
    rw [equal, idle] at processed
    cases processed
  · intro path absent
    exact whole.held path (fun mem => absent (documented_subset pass _ mem))
  · obtain ⟨spent, usage, own⟩ := whole.usage
    refine ⟨spent, usage, ?_⟩
    intro row mem
    obtain ⟨path, documented, about⟩ := own row mem
    obtain ⟨outcome, mem', processed, rfl⟩ := mem_documented.mp documented
    exact ⟨outcome, mem', processed, about⟩

/-- A pass that comes to its end does what its outcomes say, if it evaluates no file twice. -/
theorem run_effectsMatch (ended : (pass.run files store).1 = .ok report)
    (distinct : (report.outcomes.map (fun outcome => pass.target outcome.path)).Nodup) :
    pass.EffectsMatch files store report (pass.run files store).2 := by
  obtain ⟨asked, carried⟩ := run_eq pass files store
  rw [carried] at ended ⊢
  have planned := plan_planned pass store
  generalize pass.plan store = plan at planned ended
  cases planned with
  | empty missing =>
      cases ended
      exact effectsMatch_of_idle rfl rfl
  | current head found marked unforced =>
      cases ended
      exact effectsMatch_of_idle rfl rfl
  | due head base named found due started told =>
      rcases completed : pass.completed head (store.commitOf? pass.repository) base
        (named.filter pass.config.tracks) { World.start files store with asked } with ⟨_, after⟩
      rw [carryOut, completed] at ended
      subst ended
      obtain ⟨outcomes, last, settled, followed, rfl⟩ := completed_split completed
      obtain ⟨store', wrote, rfl⟩ := follow_wroteStore.mp followed
      rw [carryOut, completed]
      exact effectsMatch_of_settled started told settled distinct (.of_processed wrote)
  | _ => cases ended

/-- Files with different names in the repository are different files to the store. -/
theorem target_inj {path other : String} (relative : Path.isAbsolute path = false)
    (relative' : Path.isAbsolute other = false) (same : pass.target path = pass.target other) :
    path = other := by
  have behind : ∀ {front : String}, front ++ path = front ++ other → path = other := by
    intro front same
    have texts := congrArg String.toList same
    rw [String.toList_append, String.toList_append] at texts
    exact String.toList_inj.mp (List.append_cancel_left texts)
  unfold target Path.join at same
  rw [relative, relative', Bool.false_or] at same
  split at same
  · exact same
  · split at same
    · exact behind same
    · exact behind same

theorem targets_nodup {paths : List String} (relative : ∀ path ∈ paths, Path.isAbsolute path = false)
    (distinct : paths.Nodup) : (paths.map pass.target).Nodup := by
  apply List.Nodup.map_on _ distinct
  intro path mem other memOther same
  exact target_inj (relative path mem) (relative other memOther) same

end Run

/-! ### A file that is gone -/

def goneHistory : History.Recorded :=
  { current := some "head"
    commits := [("head", [("a.php", "<?php\nclass A \x7b\x7d\n"), ("b.php", "")])]
    changes := []
    faults := [] }

def gonePass : Pass :=
  ⟨"/site", "site", goneHistory.toHistory, .outline, .standard, false, "now"⟩

def goneFiles : FileTree :=
  .withFile "site" "a.php" "<?php\nclass A \x7b\x7d\n".toUTF8

def goneReport : Report :=
  ⟨some "head", none,
    [.processed "a.php" none "docs/api/a.md", .skipped "b.php" "deleted"], true⟩

theorem gonePass_ended : (gonePass.run goneFiles .empty).1 = .ok goneReport :=
  ok_of_toOption (by decide +kernel)

theorem gonePass_distinct :
    (goneReport.outcomes.map (fun outcome => gonePass.target outcome.path)).Nodup := by
  have relative : ∀ path ∈ goneReport.outcomes.map Outcome.path, Path.isAbsolute path = false := by
    decide
  have distinct : (goneReport.outcomes.map Outcome.path).Nodup := by decide
  exact targets_nodup relative distinct

theorem effectsMatch_of_gone :
    gonePass.EffectsMatch goneFiles .empty goneReport (gonePass.run goneFiles .empty).2 :=
  run_effectsMatch gonePass_ended gonePass_distinct

end DocDrift.Pass
