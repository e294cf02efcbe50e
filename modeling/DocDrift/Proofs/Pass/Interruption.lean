import DocDrift.Proofs.Pass.Resumption

/-!
Interrupted passes. A pass that was cut off between any two of its changes is made again, at another
time; the ledger and the markers come out as if nothing had happened. Whether the symbols do is a
matter of one place: between the row of a file in the ledger and the list of its symbols.
-/

set_option autoImplicit false

namespace DocDrift.Pass

/-- What a pass leaves behind that is cut off after some of its changes. -/
def interrupted (pass : Pass) (files : FileTree) (store : Store) (count : Nat) : World :=
  (carry pass.now (.ok () : Except Failure Unit)
    ((pass.run files store).2.effects.take count) (World.start files store)).2

/-- Whether a pass is cut off just before it would change which symbols a file has. -/
def Torn (pass : Pass) (files : FileTree) (store : Store) (count : Nat) : Prop :=
  ∃ path names digest,
    (pass.run files store).2.effects[count]? = some (.wroteStore (.listed path names digest)) ∧
    (pass.interrupted files store count).store.registered path ≠
      (pass.interrupted files store (count + 1)).store.registered path

/-- Two stores with the same ledger and the same markers, but for times. -/
structure SameRecords (left right : Store) : Prop where
  entries : ∀ path, left.entryOf? path = right.entryOf? path
  markers : ∀ repository, left.commitOf? repository = right.commitOf? repository

/-! ### What a later pass finds -/

section Plans

variable {pass : Pass} {later : String}

theorem plan_again (store : Store) : (pass.again later).plan store = pass.plan store := rfl

theorem plan_of_markers {store other : Store} (markers : other.markers = store.markers) :
    pass.plan other = pass.plan store := by
  have previous : pass.previousOf other = pass.previousOf store := by
    rw [previousOf_eq, previousOf_eq, Store.commitOf?, Store.commitOf?, markers]
  rw [plan, plan, previous]

end Plans

/-! ### Going on -/

section Onward

variable {pass : Pass} {later : String} {base : Option String} {paths : List String}
  {world middle last start resumed resumedMiddle : World} {done : List Effect}
  {outcomes outcomes' : List Outcome} {head : String} {count : Nat}

/-- Where a pass is that has made the first of its changes. -/
def reachedBy (pass : Pass) (effects : List Effect) (count : Nat) (start : World) : World :=
  (carry pass.now (.ok () : Except Failure Unit) (effects.take count) start).2

theorem reachedBy_of_carry {effects : List Effect} {left : World}
    (part : carry pass.now (.ok ()) (effects.take count) start = (.ok (), left)) :
    pass.reachedBy effects count start = left := by
  rw [reachedBy, part]

theorem reachedBy_succ {effects : List Effect} {effect : Effect} {left left' next : World}
    (part : carry pass.now (.ok ()) (effects.take count) start = (.ok (), left))
    (here : effects[count]? = some effect) (same : Matches left left')
    (followed : left'.follow pass.now effect = .ok next) :
    Matches (pass.reachedBy effects (count + 1) start) next := by
  obtain ⟨next', followed', sameNext⟩ := same.symm.follow followed
  obtain ⟨short, there⟩ := List.getElem?_eq_some_iff.mp here
  have whole : carry pass.now (.ok () : Except Failure Unit) (effects.take (count + 1)) start =
      (.ok (), next') := by
    rw [List.take_succ_eq_append_getElem short, there, carry_append _ _ part,
      carry_follow followed', carry]
  rw [reachedBy_of_carry whole]
  exact sameNext.symm

/-- The last change of a pass. -/
def marking (pass : Pass) (head : String) : Effect :=
  .wroteStore (.processed pass.repository head)

/-- After a part of its changes a pass is inside one of the files, or has settled all of them. -/
theorem part_of_settled (more : List Effect)
    (settled : pass.settledAll base paths world = (.ok outcomes, middle))
    (listed : middle.effects = world.effects ++ done) (begins : Matches start world)
    (within : count ≤ done.length) :
    ∃ reached, carry pass.now (.ok ()) ((done ++ more).take count) start = (.ok (), reached) ∧
      ((∃ effect left next, (done ++ more)[count]? = some effect ∧
          pass.CutOff base left next effect paths world ∧ Matches reached left) ∨
        (count = done.length ∧ Matches reached middle)) := by
  obtain ⟨done', middle', listed', whole, sameMiddle⟩ := settledAll_reached settled
  obtain rfl := List.append_cancel_left (listed.symm.trans listed')
  obtain ⟨reached, whole, sameReached⟩ := begins.symm.carry whole
  rw [List.take_append_of_le_length within]
  rcases Nat.lt_or_eq_of_le within with inside | rfl
  · obtain ⟨left, part⟩ := carry_take whole count
    obtain ⟨effect, left', next, here, cut, sameLeft⟩ :=
      cutOff_of_carry settled listed inside begins part
    rw [← List.getElem?_append_left inside] at here
    exact ⟨left, part, .inl ⟨effect, left', next, here, cut, sameLeft⟩⟩
  · rw [List.take_length]
    exact ⟨reached, whole, .inr ⟨rfl, (sameMiddle.trans sameReached).symm⟩⟩

/-- A pass that is cut off before it sets its marker has set none. -/
theorem part_markers {reached : World} (more : List Effect)
    (settled : pass.settledAll base paths world = (.ok outcomes, middle))
    (listed : middle.effects = world.effects ++ done) (begins : Matches start world)
    (within : count ≤ done.length)
    (part : carry pass.now (.ok ()) ((done ++ more).take count) start = (.ok (), reached)) :
    reached.store.markers = world.store.markers := by
  obtain ⟨reached', part', place⟩ := part_of_settled more settled listed begins within
  rw [part] at part'
  cases part'
  rcases place with ⟨effect, left, next, here, cut, same⟩ | ⟨all, same⟩
  · rw [same.store]
    have kept : ∀ path ∈ paths,
        pass.Kept path (fun after => after.store.markers = world.store.markers) :=
      fun path _mem => markers_kept pass path world.store.markers
    refine cutOff_keeps kept ?_ cut rfl
    intro here there matching markers
    rw [← matching.store, markers]
  · have markers := settledAll_markers pass base paths world
    rw [settled] at markers
    rw [same.store, markers]

/-- How a pass that goes on compares, wherever the first was cut off before it set its marker. -/
theorem resumed_at (unforced : pass.force = false)
    (apart : ∀ path ∈ paths, ∀ other ∈ paths,
      world.files.Apart (pass.documentTarget path) (pass.target other))
    (formed : world.files.WellFormed)
    (settled : pass.settledAll base paths world = (.ok outcomes, middle))
    (listed : middle.effects = world.effects ++ done)
    (marked : middle.follow pass.now (pass.marking head) = .ok last)
    (begins : Matches start world) (within : count ≤ done.length)
    (same : Matches resumed (pass.reachedBy (done ++ [pass.marking head]) count start))
    (settled' : (pass.again later).settledAll base paths resumed =
      (.ok outcomes', resumedMiddle)) :
    ∃ effect left next, (done ++ [pass.marking head])[count]? = some effect ∧
      Matches (pass.reachedBy (done ++ [pass.marking head]) count start) left ∧
      Matches (pass.reachedBy (done ++ [pass.marking head]) (count + 1) start) next ∧
      Resumed world.files effect left next middle resumedMiddle := by
  obtain ⟨reached, part, place⟩ :=
    part_of_settled [pass.marking head] settled listed begins within
  rw [reachedBy_of_carry part] at same ⊢
  rcases place with ⟨effect, left, next, here, cut, sameLeft⟩ | ⟨rfl, sameMiddle⟩
  · refine ⟨effect, left, next, here, sameLeft, ?_, ?_⟩
    · exact reachedBy_succ part here sameLeft (cutOff_follow cut)
    · exact resumed_cutOff unforced apart (fun _ mem => mem) formed (.refl _) cut settled
        (same.trans sameLeft) settled'
  · -- All files were settled, and none was marked as such.
    have here : (done ++ [pass.marking head])[done.length]? = some (pass.marking head) :=
      List.getElem?_concat_length
    refine ⟨pass.marking head, middle, last, here, sameMiddle, ?_, ?_⟩
    · exact reachedBy_succ part here sameMiddle marked
    · have rests := settledAll_rests apart (fun _ mem => mem) formed (.refl _) settled
      have atRest := same.trans sameMiddle
      have unforcedAgain : (pass.again later).force = false := unforced
      have stayed := settledAll_at_rest unforcedAgain
        (fun path mem => by
          rw [atRest.files, atRest.store]
          exact rests_again later (rests path mem)) settled'
      exact .of_alike rfl (stayed.trans atRest).symm.alike

/-- All changes of a pass, the last with them. -/
theorem reachedBy_all (settled : pass.settledAll base paths world = (.ok outcomes, middle))
    (listed : middle.effects = world.effects ++ done) (begins : Matches start world)
    (marked : middle.follow pass.now (pass.marking head) = .ok last)
    (beyond : done.length < count) :
    Matches (pass.reachedBy (done ++ [pass.marking head]) count start) last := by
  obtain ⟨middle', reached, listed', whole, sameMiddle⟩ := settledAll_reached settled
  obtain rfl := List.append_cancel_left (listed.symm.trans listed')
  obtain ⟨last', marked', sameLast⟩ := sameMiddle.follow marked
  have all : carry pass.now (.ok ()) (done ++ [pass.marking head]) world = (.ok (), last') := by
    rw [carry_append _ _ whole, carry_follow marked', carry]
  obtain ⟨reached', all', sameReached⟩ := begins.symm.carry all
  have short : (done ++ [pass.marking head]).length ≤ count := by
    rw [List.length_append, List.length_singleton]
    exact beyond
  rw [← List.take_of_length_le short] at all'
  rw [reachedBy_of_carry all']
  exact (sameLast.trans sameReached).symm

end Onward

/-! ### Whole passes -/

/-- How a pass came to its end. -/
inductive Ended (pass : Pass) (files : FileTree) (store : Store) : Report → World → Prop
  | idle (report : Report) (last : World) (nothing : pass.plan store = .ok (.nothing report))
      (same : Matches last (World.start files store)) (unchanged : last.effects = []) :
      Ended pass files store report last
  | settled (head : String) (previous base : Option String) (paths : List String)
      (outcomes : List Outcome) (begun middle last : World)
      (found : pass.history.head = .ok (some head))
      (planned : pass.plan store = .ok (.settle head previous base paths))
      (begins : Matches begun (World.start files store)) (fresh : begun.effects = [])
      (settled : pass.settledAll base paths begun = (.ok outcomes, middle))
      (marked : middle.follow pass.now (pass.marking head) = .ok last) :
      Ended pass files store ⟨some head, previous, outcomes, true⟩ last

section Whole

variable {pass : Pass} {files : FileTree} {store : Store} {later : String} {count : Nat}
  {report report' : Report} {last : World}

theorem Matches.of_start {begun world : World}
    (begins : Matches begun (World.start world.files world.store)) : Matches begun world :=
  ⟨begins.files, begins.store⟩

theorem run_ended (ended : pass.run files store = (.ok report, last)) :
    pass.Ended files store report last := by
  obtain ⟨asked, carried⟩ := run_eq pass files store
  rw [carried] at ended
  have planned := plan_planned pass store
  generalize chosen : pass.plan store = plan at planned ended
  cases planned with
  | empty none =>
      cases ended
      exact .idle _ _ chosen ⟨rfl, rfl⟩ rfl
  | current head found marked unforced =>
      cases ended
      exact .idle _ _ chosen ⟨rfl, rfl⟩ rfl
  | due head base named found due started told =>
      obtain ⟨outcomes, middle, settled, marked, rfl⟩ := completed_split ended
      refine .settled head _ base _ outcomes _ middle last found chosen ?_ ?_ settled marked
      · exact ⟨rfl, rfl⟩
      · rfl
  | _ => cases ended

/-- Setting a marker sets that marker only. -/
theorem commitOf?_marking {head : String} {before after : World}
    (marked : before.follow pass.now (pass.marking head) = .ok after) (repository : String) :
    after.store.commitOf? repository =
      if pass.repository = repository then some head else before.store.commitOf? repository := by
  obtain ⟨next, wrote, rfl⟩ := follow_wroteStore.mp marked
  obtain ⟨markers, held, rfl⟩ := Store.write_processed.mp wrote
  split
  case isTrue same =>
    subst same
    exact commitOf?_insert_self rfl
  case isFalse different =>
    have other : repository ≠ pass.repository := fun same => different same.symm
    exact commitOf?_of_marker? (marker?_insert_of_ne other held rfl)

theorem entryOf?_marking {head : String} {before after : World}
    (marked : before.follow pass.now (pass.marking head) = .ok after) (path : String) :
    after.store.entryOf? path = before.store.entryOf? path := by
  obtain ⟨next, wrote, rfl⟩ := follow_wroteStore.mp marked
  exact Store.entryOf?_write wrote path

theorem registered_marking {head : String} {before after : World}
    (marked : before.follow pass.now (pass.marking head) = .ok after) (path : String) :
    after.store.registered path = before.store.registered path := by
  obtain ⟨next, wrote, rfl⟩ := follow_wroteStore.mp marked
  rw [Store.registered_eq, Store.registered_eq, Store.symbolsAt_write wrote]
  rfl

/-- Two passes that set the same marker last leave the same records if they did before that. -/
theorem sameRecords_of_marking {other : Pass} {head : String} {left right left' right' : World}
    (repositories : other.repository = pass.repository)
    (alike : ∀ path, left.store.entryOf? path = right.store.entryOf? path)
    (markers : left.store.markers = right.store.markers)
    (marked : left.follow pass.now (pass.marking head) = .ok left')
    (marked' : right.follow other.now (other.marking head) = .ok right') :
    SameRecords left'.store right'.store := by
  constructor
  · intro path
    rw [entryOf?_marking marked, entryOf?_marking marked', alike]
  · intro repository
    have commits : left.store.commitOf? repository = right.store.commitOf? repository := by
      rw [Store.commitOf?, Store.commitOf?, markers]
    rw [commitOf?_marking marked, commitOf?_marking marked', commits, repositories]

/-- The symbols are the same just if those that a cut kept from being listed were listed already. -/
theorem Resumed.registered_iff {tree : FileTree} {effect : Effect}
    {left next last resumed : World} (resumption : Resumed tree effect left next last resumed) :
    (∀ path, last.store.registered path = resumed.store.registered path) ↔
      ∀ path, tearOf effect = some path →
        left.store.registered path = next.store.registered path := by
  constructor
  · intro same path torn
    obtain ⟨bytes, noted, noted'⟩ := resumption.torn path torn
    have here := same path
    rw [Store.registered_eq, Store.registered_eq, noted.symbols, noted'.symbols] at here
    rw [Store.registered_eq, Store.registered_eq, here]
  · intro listed path
    by_cases torn : tearOf effect = some path
    · obtain ⟨bytes, noted, noted'⟩ := resumption.torn path torn
      have here := listed path torn
      rw [Store.registered_eq, Store.registered_eq] at here
      rw [Store.registered_eq, Store.registered_eq, noted.symbols, noted'.symbols, here]
    · rw [Store.registered_eq, Store.registered_eq, resumption.alike.symbols path torn]

/-- A pass with nothing to do leaves everything as it is. -/
theorem run_idle (idle : pass.Idle store) (ended : pass.run files store = (.ok report, last)) :
    Matches last (World.start files store) := by
  have keeps := run_keepsMarkers pass files store
  rw [ended] at keeps
  have stayed := (keeps.idle_iff report rfl).mpr idle
  obtain ⟨sameStore, sameFiles⟩ := keeps.idle report rfl stayed
  exact ⟨sameFiles, sameStore⟩

/-- What a pass that goes on leaves behind, wherever the first was cut off before it set its
marker. -/
theorem resumed_records (unforced : pass.force = false) {head : String} {base : Option String}
    {paths : List String} {outcomes outcomes' : List Outcome} {done : List Effect}
    {start begun middle resumed resumedMiddle resumedLast : World}
    (apart : ∀ path ∈ paths, ∀ other ∈ paths,
      begun.files.Apart (pass.documentTarget path) (pass.target other))
    (formed : begun.files.WellFormed)
    (settled : pass.settledAll base paths begun = (.ok outcomes, middle))
    (listed : middle.effects = begun.effects ++ done)
    (marked : middle.follow pass.now (pass.marking head) = .ok last)
    (begins : Matches start begun) (within : count ≤ done.length)
    (same : Matches resumed (pass.reachedBy (done ++ [pass.marking head]) count start))
    (unmarked : resumed.store.markers = begun.store.markers)
    (settled' : (pass.again later).settledAll base paths resumed = (.ok outcomes', resumedMiddle))
    (marked' : resumedMiddle.follow (pass.again later).now ((pass.again later).marking head) =
      .ok resumedLast) :
    SameRecords last.store resumedLast.store ∧
      ∃ effect, (done ++ [pass.marking head])[count]? = some effect ∧
        ((∀ path, last.store.registered path = resumedLast.store.registered path) ↔
          ∀ path, tearOf effect = some path →
            (pass.reachedBy (done ++ [pass.marking head]) count start).store.registered path =
              (pass.reachedBy (done ++ [pass.marking head]) (count + 1)
                start).store.registered path) := by
  obtain ⟨effect, left, next, here, sameLeft, sameNext, resumption⟩ :=
    resumed_at unforced apart formed settled listed marked begins within same settled'
  refine ⟨?_, effect, here, ?_⟩
  · have kept := settledAll_markers pass base paths begun
    rw [settled] at kept
    have kept' := settledAll_markers (pass.again later) base paths resumed
    rw [settled'] at kept'
    have markers : middle.store.markers = resumedMiddle.store.markers := by
      rw [kept, kept', unmarked]
    have repositories : (pass.again later).repository = pass.repository := rfl
    exact sameRecords_of_marking repositories resumption.alike.entries markers marked marked'
  · rw [sameLeft.store, sameNext.store, ← resumption.registered_iff]
    refine forall_congr' fun path => ?_
    rw [registered_marking marked, registered_marking marked']

theorem torn_iff {effect : Effect}
    (here : (pass.run files store).2.effects[count]? = some effect) :
    pass.Torn files store count ↔
      ¬∀ path, tearOf effect = some path →
        (pass.interrupted files store count).store.registered path =
          (pass.interrupted files store (count + 1)).store.registered path := by
  constructor
  · rintro ⟨path, names, digest, torn, differs⟩ same
    rw [here] at torn
    cases torn
    exact differs (same path rfl)
  · intro differs
    rw [not_forall] at differs
    obtain ⟨path, differs⟩ := differs
    rw [Classical.not_imp] at differs
    obtain ⟨torn, differs⟩ := differs
    unfold tearOf at torn
    split at torn
    · cases torn
      exact ⟨_, _, _, here, differs⟩
    · cases torn

theorem not_torn (beyond : (pass.run files store).2.effects[count]? = none) :
    ¬pass.Torn files store count := by
  rintro ⟨path, names, digest, torn, _differs⟩
  rw [beyond] at torn
  cases torn

/-- How the stores compare that a pass leaves behind when it is cut off and made again, and when it
is not. -/
structure Recovers (pass : Pass) (files : FileTree) (store : Store) (count : Nat)
    (whole resumed : Store) : Prop where
  records : SameRecords whole resumed
  symbols : (∀ path, whole.registered path = resumed.registered path) ↔
    ¬pass.Torn files store count

theorem recovers_of_same {whole resumed : Store} (same : whole = resumed)
    (intact : ¬pass.Torn files store count) :
    pass.Recovers files store count whole resumed := by
  subst same
  exact ⟨⟨fun _ => rfl, fun _ => rfl⟩, fun _ => intact, fun _ _ => rfl⟩

theorem recovers_of_idle {resumed : World}
    (nothing : pass.plan store = .ok (.nothing report)) (same : Matches last (World.start files store))
    (unchanged : last.effects = []) (whole : pass.run files store = (.ok report, last))
    (ended : (pass.again later).Ended (pass.interrupted files store count).files
      (pass.interrupted files store count).store report' resumed) :
    pass.Recovers files store count last.store resumed.store := by
  have intact : ¬pass.Torn files store count := by
    apply not_torn
    rw [whole, unchanged]
    exact List.getElem?_nil
  have stopped : pass.interrupted files store count = World.start files store := by
    rw [interrupted, whole, unchanged, List.take_nil, carry]
  rw [stopped] at ended
  cases ended with
  | idle report' resumed nothing' same' unchanged' =>
      exact recovers_of_same (same.store.trans same'.store.symm) intact
  | settled head previous base paths outcomes begun middle resumed found planned =>
      rw [plan_again] at planned
      cases nothing.symm.trans planned

section Settled

variable {head : String} {previous base : Option String} {paths : List String}
  {outcomes : List Outcome} {begun middle resumed : World}

theorem interrupted_settled (whole : pass.run files store = (.ok report, last))
    (marked : middle.follow pass.now (pass.marking head) = .ok last) (count : Nat) :
    pass.interrupted files store count =
      pass.reachedBy (middle.effects ++ [pass.marking head]) count (World.start files store) := by
  rw [interrupted, whole, follow_effects marked, reachedBy]

/-- A pass that was cut off before it set its marker goes on. -/
theorem recovers_of_settled (unforced : pass.force = false) (formed : files.WellFormed)
    (apart : ∀ path ∈ paths, ∀ other ∈ paths,
      files.Apart (pass.documentTarget path) (pass.target other))
    (whole : pass.run files store = (.ok report, last))
    (planned : pass.plan store = .ok (.settle head previous base paths))
    (begins : Matches begun (World.start files store)) (fresh : begun.effects = [])
    (settled : pass.settledAll base paths begun = (.ok outcomes, middle))
    (marked : middle.follow pass.now (pass.marking head) = .ok last)
    (within : count ≤ middle.effects.length)
    (ended : (pass.again later).Ended (pass.interrupted files store count).files
      (pass.interrupted files store count).store report' resumed) :
    pass.Recovers files store count last.store resumed.store := by
  have listed : middle.effects = begun.effects ++ middle.effects := by
    rw [fresh, List.nil_append]
  have cuts := interrupted_settled whole marked
  obtain ⟨reached, part, _place⟩ :=
    part_of_settled [pass.marking head] settled listed begins.symm within
  have unmarked := part_markers [pass.marking head] settled listed begins.symm within part
  rw [← reachedBy_of_carry part, ← cuts] at unmarked
  have replanned : pass.plan (pass.interrupted files store count).store = pass.plan store :=
    plan_of_markers (unmarked.trans (congrArg Store.markers begins.store))
  cases ended with
  | idle report' resumed nothing =>
      rw [plan_again, replanned, planned] at nothing
      cases nothing
  | settled head' previous' base' paths' outcomes' begun' middle' resumed found' planned' begins'
      fresh' settled' marked' =>
      rw [plan_again, replanned, planned] at planned'
      cases planned'
      have same : Matches begun'
          (pass.reachedBy (middle.effects ++ [pass.marking head]) count
            (World.start files store)) := by
        rw [← cuts]
        exact begins'.of_start
      have unmarked' : begun'.store.markers = begun.store.markers := by
        rw [begins'.store]
        exact unmarked
      have formedBegun : begun.files.WellFormed := begins.files ▸ formed
      have apartBegun : ∀ path ∈ paths, ∀ other ∈ paths,
          begun.files.Apart (pass.documentTarget path) (pass.target other) :=
        begins.files ▸ apart
      obtain ⟨records, effect, here, symbols⟩ := resumed_records unforced apartBegun formedBegun
        settled listed marked begins.symm within same unmarked' settled' marked'
      refine ⟨records, symbols.trans ?_⟩
      have listedHere : (pass.run files store).2.effects[count]? = some effect := by
        rw [whole, follow_effects marked, here]
      rw [torn_iff listedHere, not_not, cuts, cuts]

theorem recovers_of_marked (unforced : pass.force = false)
    (whole : pass.run files store = (.ok report, last))
    (found : pass.history.head = .ok (some head))
    (begins : Matches begun (World.start files store)) (fresh : begun.effects = [])
    (settled : pass.settledAll base paths begun = (.ok outcomes, middle))
    (marked : middle.follow pass.now (pass.marking head) = .ok last)
    (beyond : middle.effects.length < count)
    (resumption : (pass.again later).run (pass.interrupted files store count).files
      (pass.interrupted files store count).store = (.ok report', resumed)) :
    pass.Recovers files store count last.store resumed.store := by
  have all : last.effects.length ≤ count := by
    rw [follow_effects marked, List.length_append, List.length_singleton]
    omega
  have intact : ¬pass.Torn files store count := by
    apply not_torn
    rw [whole]
    exact List.getElem?_eq_none all
  have listed : middle.effects = begun.effects ++ middle.effects := by
    rw [fresh, List.nil_append]
  have cut : Matches (pass.interrupted files store count) last := by
    rw [interrupted_settled whole marked]
    exact reachedBy_all settled listed begins.symm marked beyond
  have idle : (pass.again later).Idle (pass.interrupted files store count).store := by
    refine .inr ⟨head, found, ?_, unforced⟩
    rw [cut.store]
    exact (commitOf?_marking marked _).trans (if_pos rfl)
  have stayed := run_idle idle resumption
  exact recovers_of_same (cut.symm.trans stayed.of_start.symm).store intact

end Settled

/-- A pass that was cut off between any two of its changes, and is made again, leaves the ledger and
the markers as if it had not been cut off. It leaves the symbols so just if it was not cut off where
it would have changed them. -/
theorem interruption_resumed (pass : Pass) (files : FileTree) (store : Store) (count : Nat)
    (later : String) (report report' : Report) (unforced : pass.force = false)
    (formed : files.WellFormed)
    (apart : ∀ path ∈ report.outcomes.map Outcome.path,
      ∀ other ∈ report.outcomes.map Outcome.path,
        files.Apart (pass.documentTarget path) (pass.target other))
    (ended : (pass.run files store).1 = .ok report)
    (ended' : ((pass.again later).run (pass.interrupted files store count).files
      (pass.interrupted files store count).store).1 = .ok report') :
    pass.Recovers files store count (pass.run files store).2.store
      ((pass.again later).run (pass.interrupted files store count).files
        (pass.interrupted files store count).store).2.store := by
  rcases resumption : (pass.again later).run (pass.interrupted files store count).files
    (pass.interrupted files store count).store with ⟨_, resumed⟩
  rw [resumption] at ended'
  subst ended'
  rcases whole : pass.run files store with ⟨_, last⟩
  rw [whole] at ended
  subst ended
  cases run_ended whole with
  | idle report last nothing same unchanged =>
      exact recovers_of_idle nothing same unchanged whole (run_ended resumption)
  | settled head previous base paths outcomes begun middle last found planned begins fresh settled
      marked =>
      have paths : outcomes.map Outcome.path = paths := settledAll_paths settled
      rw [paths] at apart
      by_cases within : count ≤ middle.effects.length
      · exact recovers_of_settled unforced formed apart whole planned begins fresh settled marked
          within (run_ended resumption)
      · exact recovers_of_marked unforced whole found begins fresh settled marked (by omega)
          resumption

end Whole

/-! ### A cut before the symbols -/

def cutHistory : History.Recorded :=
  { current := some "head"
    commits := [("head", [("a.php", "<?php\nclass A {}\n")])]
    changes := []
    faults := [] }

def cutFiles : FileTree :=
  .withFile "site" "a.php" "<?php\nclass A {}\n".toUTF8

def cutPass : Pass :=
  ⟨"/site", "site", cutHistory.toHistory, .outline, .standard, false, "first"⟩

def cutReport : Report :=
  ⟨some "head", none, [.processed "a.php" none "docs/api/a.md"], true⟩

/-- The pass is cut off after the row of the file, and before the list of its symbols. -/
def cutWorld : World :=
  cutPass.interrupted cutFiles .empty 3

def resumedReport : Report :=
  ⟨some "head", none, [.skipped "a.php" "unchanged"], true⟩

theorem cutPass_ended : (cutPass.run cutFiles .empty).1 = .ok cutReport :=
  ok_of_toOption (by decide +kernel)

theorem cutPass_resumed :
    ((cutPass.again "second").run cutWorld.files cutWorld.store).1 = .ok resumedReport :=
  ok_of_toOption (by decide +kernel)

theorem cutFiles_apart :
    ∀ path ∈ cutReport.outcomes.map Outcome.path, ∀ other ∈ cutReport.outcomes.map Outcome.path,
      cutFiles.Apart (cutPass.documentTarget path) (cutPass.target other) := by
  intro path mem other memOther
  obtain rfl := List.mem_singleton.mp mem
  obtain rfl := List.mem_singleton.mp memOther
  refine FileTree.apart_of_onward ?_ ?_ ?_
  · decide +kernel
  · decide +kernel
  · decide +kernel

theorem interruption_resumed_of_cut :
    cutPass.Recovers cutFiles .empty 3 (cutPass.run cutFiles .empty).2.store
      ((cutPass.again "second").run cutWorld.files cutWorld.store).2.store :=
  interruption_resumed cutPass cutFiles .empty 3 "second" cutReport resumedReport rfl
    (FileTree.wellFormed_withFile _ _ _) cutFiles_apart cutPass_ended cutPass_resumed

/-- The file is left without the symbols that it would have had. -/
theorem interruption_tears_symbols :
    cutPass.force = false ∧ cutFiles.WellFormed ∧
      (∀ path ∈ cutReport.outcomes.map Outcome.path,
        ∀ other ∈ cutReport.outcomes.map Outcome.path,
          cutFiles.Apart (cutPass.documentTarget path) (cutPass.target other)) ∧
      (cutPass.run cutFiles .empty).1 = .ok cutReport ∧
      ((cutPass.again "second").run cutWorld.files cutWorld.store).1 = .ok resumedReport ∧
      (cutPass.run cutFiles .empty).2.store.registered "/site/a.php" = ["A"] ∧
      ((cutPass.again "second").run cutWorld.files cutWorld.store).2.store.registered
        "/site/a.php" = [] := by
  refine ⟨rfl, FileTree.wellFormed_withFile _ _ _, cutFiles_apart, cutPass_ended,
    cutPass_resumed, ?_, ?_⟩
  · decide +kernel
  · decide +kernel

end DocDrift.Pass
