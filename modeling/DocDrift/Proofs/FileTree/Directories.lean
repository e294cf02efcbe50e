import DocDrift.Proofs.FileTree.Routes

/-!
Making directories. It adds directories where nothing was, and only along the route of the path; it
succeeds unless a file is in the way, and where the route leads through directories there are none
to be made.
-/

set_option autoImplicit false

namespace DocDrift.FileTree

/-! ### Putting nodes -/

theorem node?_put_self (tree : FileTree) {place : Place} (below : place ≠ []) (node : Node) :
    (tree.put place node).node? place = some node := by
  have nonempty : place.isEmpty = false := List.isEmpty_eq_false_iff.mpr below
  rw [node?, nonempty, if_neg Bool.false_ne_true]
  exact Keyed.find?_put_self _ _ _

theorem node?_put_of_ne (tree : FileTree) {place other : Place} (node : Node)
    (different : other ≠ place) : (tree.put place node).node? other = tree.node? other := by
  unfold node?
  split
  · rfl
  · exact Keyed.find?_put_of_ne _ _ different

theorem put_of_node? {tree : FileTree} {place : Place} {node : Node} (below : place ≠ [])
    (present : tree.node? place = some node) : tree.put place node = tree := by
  have nonempty : place.isEmpty = false := List.isEmpty_eq_false_iff.mpr below
  rw [node?, nonempty, if_neg Bool.false_ne_true] at present
  rw [put, Keyed.put_of_find?_eq_some tree.nodes present]

theorem ne_nil_of_not_directory {tree : FileTree} {place : Place}
    (other : ¬tree.HasDirectory place) : place ≠ [] := by
  rintro rfl
  exact other rfl

/-- One tree comes about from another by adding directories at some places. -/
structure Extends (tree made : FileTree) (places : List Place) : Prop where
  here : made.here = tree.here
  kept : ∀ place node, tree.node? place = some node → made.node? place = some node
  added : ∀ place node, made.node? place = some node →
    tree.node? place = some node ∨ place ∈ places ∧ node = .directory

theorem Extends.refl (tree : FileTree) (places : List Place) : tree.Extends tree places :=
  ⟨rfl, fun _ _ present => present, fun _ _ present => .inl present⟩

theorem Extends.trans {tree made last : FileTree} {places : List Place}
    (first : tree.Extends made places) (second : made.Extends last places) :
    tree.Extends last places := by
  refine ⟨second.here.trans first.here, ?_, ?_⟩
  · intro place node present
    exact second.kept place node (first.kept place node present)
  · intro place node present
    rcases second.added place node present with before | new
    · exact first.added place node before
    · exact .inr new

theorem Extends.mono {tree made : FileTree} {places more : List Place}
    (grown : tree.Extends made places) (within : ∀ place ∈ places, place ∈ more) :
    tree.Extends made more := by
  refine ⟨grown.here, grown.kept, ?_⟩
  intro place node present
  rcases grown.added place node present with before | ⟨mem, directory⟩
  · exact .inl before
  · exact .inr ⟨within place mem, directory⟩

theorem put_directory_extends {tree : FileTree} {place : Place} {places : List Place}
    (absent : tree.node? place = none) (mem : place ∈ places) :
    tree.Extends (tree.put place .directory) places := by
  have below : place ≠ [] := by
    rintro rfl
    cases absent
  refine ⟨rfl, ?_, ?_⟩
  · intro other node present
    have different : other ≠ place := by
      rintro rfl
      rw [absent] at present
      cases present
    rw [node?_put_of_ne tree _ different, present]
  · intro other node present
    by_cases same : other = place
    · rw [same, node?_put_self tree below] at present
      exact .inr ⟨same ▸ mem, (Option.some.inj present).symm⟩
    · rw [node?_put_of_ne tree _ same] at present
      exact .inl present

/-- A node that is put into a directory leaves a tree well formed, if it takes no directory's
place. -/
theorem WellFormed.put {tree : FileTree} (formed : tree.WellFormed) {place : Place} {node : Node}
    (above : tree.HasDirectory place.dropLast) (free : ¬tree.HasDirectory place) :
    (tree.put place node).WellFormed := by
  have below := ne_nil_of_not_directory free
  have directories : ∀ other, tree.HasDirectory other →
      (tree.put place node).HasDirectory other := by
    intro other directory
    have different : other ≠ place := by
      rintro rfl
      exact free directory
    rw [HasDirectory, node?_put_of_ne tree _ different, directory]
  refine ⟨directories _ formed.here, ?_⟩
  intro other found present
  by_cases same : other = place
  · exact directories _ (same ▸ above)
  · rw [node?_put_of_ne tree _ same] at present
    exact directories _ (formed.above other found present)

/-- A tree with one file in the current directory. -/
def withFile (name file : String) (contents : ByteArray) : FileTree :=
  (withHere name).put [name, file] (.file contents)

theorem wellFormed_withFile (name file : String) (contents : ByteArray) :
    (withFile name file contents).WellFormed := by
  have above : (withHere name).HasDirectory [name] := (wellFormed_withHere name).here
  refine (wellFormed_withHere name).put above ?_
  intro directory
  simp [HasDirectory, withHere, node?, Keyed.find?] at directory

/-! ### Making one directory -/

/-- Steps lead from directory to directory. The steps are given last first. -/
def Reached (tree : FileTree) (place : Place) (steps : List (List Char)) : Prop :=
  tree.Passable place steps.reverse ∧ tree.HasDirectory (destination place steps.reverse)

theorem Reached.directory {tree : FileTree} {place : Place} {steps : List (List Char)}
    (reached : tree.Reached place steps) :
    ∀ visited ∈ visits place steps.reverse, tree.HasDirectory visited := by
  intro visited mem
  rcases (reached.1.visited mem).2 with directory | rfl
  · exact directory
  · exact reached.2

theorem isDirectory_iff {tree : FileTree} (formed : tree.WellFormed) {place : Place}
    {steps : List (List Char)} :
    tree.isDirectory place steps = true ↔ tree.Reached place steps := by
  unfold isDirectory Reached
  constructor
  · intro reached
    cases walked : tree.walk place steps.reverse with
    | error fault =>
        rw [walked] at reached
        cases reached
    | ok final =>
        obtain ⟨passable, rfl⟩ := passable_of_walk formed walked
        rw [walked] at reached
        dsimp only at reached
        refine ⟨passable, ?_⟩
        cases needed : tree.needDirectory (destination place steps.reverse) with
        | error fault =>
            rw [needed] at reached
            cases reached
        | ok _ => exact needDirectory_ok.mp needed
  · rintro ⟨passable, directory⟩
    rw [walk_of_passable formed passable]
    change (tree.needDirectory (destination place steps.reverse)).isOk = true
    rw [needDirectory_ok.mpr directory]
    rfl

theorem passable_concat {tree : FileTree} {place : Place} {parts : List (List Char)}
    {last : List Char} :
    tree.Passable place (parts ++ [last]) ↔
      tree.Passable place parts ∧ tree.HasDirectory (destination place parts) ∧
        (tree.node? (stepTo (destination place parts) last)).isSome := by
  induction parts generalizing place with
  | nil => simp only [List.nil_append, Passable, destination, List.foldl_nil, and_true, true_and]
  | cons part rest ih =>
      rw [List.cons_append, Passable, Passable, ih]
      change _ ↔ (_ ∧ _ ∧ _) ∧ tree.HasDirectory (destination (stepTo place part) rest) ∧
        (tree.node? (stepTo (destination (stepTo place part) rest) last)).isSome
      simp only [and_assoc]

theorem destination_concat (place : Place) (parts : List (List Char)) (last : List Char) :
    destination place (parts ++ [last]) = stepTo (destination place parts) last := by
  rw [destination_append]
  rfl

theorem reached_cons {tree : FileTree} {place : Place} {last : List Char}
    {before : List (List Char)} :
    tree.Reached place (last :: before) ↔
      tree.Reached place before ∧
        tree.HasDirectory (stepTo (destination place before.reverse) last) := by
  unfold Reached
  rw [List.reverse_cons, passable_concat, destination_concat]
  constructor
  · rintro ⟨⟨passable, directory, _present⟩, next⟩
    exact ⟨⟨passable, directory⟩, next⟩
  · rintro ⟨⟨passable, directory⟩, next⟩
    refine ⟨⟨passable, directory, ?_⟩, next⟩
    rw [next, Option.isSome_some]

theorem slot?_of_reached {tree : FileTree} (formed : tree.WellFormed) {place : Place}
    {before : List (List Char)} (reached : tree.Reached place before) (last : List Char) :
    tree.slot? place (last :: before) =
      .ok (if Path.isIdle last || last == Path.up then none
        else some (stepTo (destination place before.reverse) last)) := by
  rw [slot?, walk_of_passable formed reached.1]
  change (do
    tree.needDirectory (destination place before.reverse)
    if Path.isIdle last || last == Path.up then return none
    else return some (destination place before.reverse ++ [String.ofList last])) = _
  rw [needDirectory_ok.mpr reached.2, stepTo]
  cases Path.isIdle last <;> cases last == Path.up <;> rfl

theorem slot?_of_not_reached {tree : FileTree} (formed : tree.WellFormed) {place : Place}
    {before : List (List Char)} (unreached : ¬tree.Reached place before) (last : List Char) :
    tree.slot? place (last :: before) = .error .notFound ∨
      tree.slot? place (last :: before) = .error .notDirectory ∧
        (tree.HasFile place ∨ ∃ visited ∈ visits place before.reverse, tree.HasFile visited) := by
  rw [slot?]
  cases walked : tree.walk place before.reverse with
  | error fault =>
      rcases walk_error formed walked with rfl | ⟨rfl, file⟩
      · exact .inl rfl
      · exact .inr ⟨rfl, file⟩
  | ok final =>
      obtain ⟨passable, rfl⟩ := passable_of_walk formed walked
      cases needed : tree.needDirectory (destination place before.reverse) with
      | ok _ => exact absurd ⟨passable, needDirectory_ok.mp needed⟩ unreached
      | error fault =>
          have stopped : (do
            let directory ← (Except.ok (destination place before.reverse) : Except FileFault Place)
            tree.needDirectory directory
            if Path.isIdle last || last == Path.up then return none
            else return some (directory ++ [String.ofList last])) = .error fault := by
            change (do
              tree.needDirectory (destination place before.reverse)
              _ : Except FileFault (Option Place)) = .error fault
            rw [needed]
            rfl
          rw [stopped]
          rcases needDirectory_error needed with rfl | ⟨rfl, file⟩
          · exact .inl rfl
          · refine .inr ⟨rfl, ?_⟩
            cases steps : before.reverse with
            | nil =>
                rw [steps] at file
                exact .inl file
            | cons step more =>
                refine .inr ⟨_, ?_, file⟩
                rw [steps]
                exact destination_mem_visits place (List.cons_ne_nil _ _)

/-- What making a directory comes to: it is made, or something is there, or it cannot be reached. -/
inductive Making (tree : FileTree) (place : Place) (last : List Char)
    (before : List (List Char)) : Except FileFault FileTree → Prop
  | made (reached : tree.Reached place before)
      (absent : tree.node? (stepTo (destination place before.reverse) last) = none) :
      Making tree place last before
        (.ok (tree.put (stepTo (destination place before.reverse) last) .directory))
  | present (reached : tree.Reached place before)
      (present : (tree.node? (stepTo (destination place before.reverse) last)).isSome) :
      Making tree place last before (.error .alreadyExists)
  | unreached (unreached : ¬tree.Reached place before) :
      Making tree place last before (.error .notFound)
  | obstructed (unreached : ¬tree.Reached place before)
      (file : tree.HasFile place ∨ ∃ visited ∈ visits place before.reverse, tree.HasFile visited) :
      Making tree place last before (.error .notDirectory)

theorem makeDirectory_making {tree : FileTree} (formed : tree.WellFormed) (place : Place)
    (last : List Char) (before : List (List Char)) :
    tree.Making place last before (tree.makeDirectory place (last :: before)) := by
  unfold makeDirectory
  by_cases reached : tree.Reached place before
  · rw [slot?_of_reached formed reached last]
    split
    case isTrue nameless =>
      refine .present reached ?_
      rw [stepTo]
      cases idle : Path.isIdle last with
      | true => rw [if_pos rfl, reached.2, Option.isSome_some]
      | false =>
          rw [idle, Bool.false_or] at nameless
          rw [if_neg Bool.false_ne_true, if_pos nameless, formed.above _ _ reached.2,
            Option.isSome_some]
    case isFalse named =>
      change tree.Making place last before
        (if (tree.node? (stepTo (destination place before.reverse) last)).isSome
          then .error .alreadyExists
          else .ok (tree.put (stepTo (destination place before.reverse) last) .directory))
      split
      case isTrue present => exact .present reached present
      case isFalse absent =>
        exact .made reached (Option.not_isSome_iff_eq_none.mp absent)
  · rcases slot?_of_not_reached formed reached last with failed | ⟨failed, file⟩
    · rw [failed]
      exact .unreached reached
    · rw [failed]
      exact .obstructed reached file

/-! ### Making directories -/

theorem WellFormed.above_stepTo {tree : FileTree} (formed : tree.WellFormed) {place : Place}
    (directory : tree.HasDirectory place) (part : List Char) :
    tree.HasDirectory (stepTo place part).dropLast := by
  have parent := formed.above _ _ directory
  unfold stepTo
  split
  · exact parent
  · split
    · exact formed.above _ _ parent
    · rwa [List.dropLast_concat]

theorem Extends.passable {tree made : FileTree} {places : List Place}
    (grown : tree.Extends made places) {place : Place} {parts : List (List Char)}
    (passable : tree.Passable place parts) : made.Passable place parts := by
  induction parts generalizing place with
  | nil => trivial
  | cons part rest ih =>
      obtain ⟨directory, present, onward⟩ := passable
      obtain ⟨node, found⟩ := Option.isSome_iff_exists.mp present
      refine ⟨grown.kept _ _ directory, ?_, ih onward⟩
      rw [grown.kept _ _ found, Option.isSome_some]

theorem Extends.reached {tree made : FileTree} {places : List Place}
    (grown : tree.Extends made places) {place : Place} {steps : List (List Char)}
    (reached : tree.Reached place steps) : made.Reached place steps :=
  ⟨grown.passable reached.1, grown.kept _ _ reached.2⟩

theorem making_extends {tree made : FileTree} (formed : tree.WellFormed) {place : Place}
    {last : List Char} {before : List (List Char)}
    (making : tree.makeDirectory place (last :: before) = .ok made) :
    tree.Extends made (visits place (last :: before).reverse) ∧ made.WellFormed ∧
      made.Reached place (last :: before) := by
  have cases := makeDirectory_making formed place last before
  rw [making] at cases
  cases cases with
  | made reached absent =>
      have mem : stepTo (destination place before.reverse) last ∈
          visits place (last :: before).reverse := by
        rw [← destination_concat, ← List.reverse_cons]
        exact destination_mem_visits place (by simp)
      have free : ¬tree.HasDirectory (stepTo (destination place before.reverse) last) := by
        intro directory
        rw [directory] at absent
        cases absent
      have grown := put_directory_extends absent mem
      refine ⟨grown, formed.put (formed.above_stepTo reached.2 last) free, ?_⟩
      rw [reached_cons]
      exact ⟨grown.reached reached, node?_put_self tree (ne_nil_of_not_directory free) _⟩

theorem visits_before_subset (place : Place) (last : List Char) (before : List (List Char)) :
    ∀ visited ∈ visits place before.reverse, visited ∈ visits place (last :: before).reverse := by
  intro visited mem
  rw [List.reverse_cons, visits_append]
  exact List.mem_append_left _ mem

theorem kept_of_isDirectory {tree made : FileTree} (formed : tree.WellFormed) {place : Place}
    {steps : List (List Char)} {fault : FileFault}
    (kept : (if tree.isDirectory place steps then .ok tree else .error fault :
      Except FileFault FileTree) = .ok made) :
    tree = made ∧ tree.Reached place steps := by
  split at kept
  case isTrue reached => exact ⟨Except.ok.inj kept, (isDirectory_iff formed).mp reached⟩
  case isFalse unreached => cases kept

/-- Directories are made along the route, and then the route leads through directories. -/
theorem makeDirectories_ok {tree made : FileTree} (formed : tree.WellFormed) {place : Place}
    {steps : List (List Char)} (done : tree.makeDirectories place steps = .ok made) :
    tree.Extends made (visits place steps.reverse) ∧ made.WellFormed ∧
      (steps ≠ [] → made.Reached place steps) := by
  induction steps generalizing made with
  | nil =>
      cases done
      exact ⟨.refl _ _, formed, fun some => absurd rfl some⟩
  | cons last before ih =>
      rw [makeDirectories] at done
      have making := makeDirectory_making formed place last before
      cases first : tree.makeDirectory place (last :: before) with
      | ok reached =>
          rw [first] at done
          cases done
          obtain ⟨grown, formed, reached⟩ := making_extends formed first
          exact ⟨grown, formed, fun _ => reached⟩
      | error fault =>
          rw [first] at done making
          cases making with
          | present reached present =>
              obtain ⟨rfl, reached⟩ := kept_of_isDirectory formed done
              exact ⟨.refl _ _, formed, fun _ => reached⟩
          | obstructed unreached file =>
              obtain ⟨rfl, reached⟩ := kept_of_isDirectory formed done
              exact ⟨.refl _ _, formed, fun _ => reached⟩
          | unreached unreached =>
              dsimp only at done
              cases below : tree.makeDirectories place before with
              | error fault =>
                  rw [below] at done
                  cases done
              | ok between =>
                  obtain ⟨grown, formed, _reached⟩ := ih below
                  have grown := grown.mono (visits_before_subset place last before)
                  rw [below] at done
                  simp only [bind, Except.bind, pure, Except.pure] at done
                  cases second : between.makeDirectory place (last :: before) with
                  | ok reached =>
                      rw [second] at done
                      cases done
                      obtain ⟨more, formed, reached⟩ := making_extends formed second
                      exact ⟨grown.trans more, formed, fun _ => reached⟩
                  | error fault =>
                      rw [second] at done
                      obtain ⟨rfl, reached⟩ := kept_of_isDirectory formed done
                      exact ⟨grown, formed, fun _ => reached⟩

/-- Where a route leads through directories, there are none to be made. -/
theorem makeDirectories_of_reached {tree : FileTree} (formed : tree.WellFormed) {place : Place}
    {steps : List (List Char)} (reached : tree.Reached place steps) :
    tree.makeDirectories place steps = .ok tree := by
  cases steps with
  | nil => rfl
  | cons last before =>
      have directory := (isDirectory_iff formed).mpr reached
      obtain ⟨reachedBefore, present⟩ := reached_cons.mp reached
      have making := makeDirectory_making formed place last before
      rw [makeDirectories]
      cases first : tree.makeDirectory place (last :: before) with
      | ok made =>
          rw [first] at making
          cases making with
          | made reached absent =>
              rw [present] at absent
              cases absent
      | error fault =>
          rw [first] at making
          cases making with
          | present reached present => exact if_pos directory
          | unreached unreached => exact absurd reachedBefore unreached
          | obstructed unreached file => exact absurd reachedBefore unreached

theorem Extends.hasFile {tree made : FileTree} {places : List Place}
    (grown : tree.Extends made places) {place : Place} :
    made.HasFile place ↔ tree.HasFile place := by
  constructor
  · rintro ⟨node, present, different⟩
    rcases grown.added place node present with before | ⟨_mem, directory⟩
    · exact ⟨node, before, different⟩
    · exact absurd directory different
  · rintro ⟨node, present, different⟩
    exact ⟨node, grown.kept place node present, different⟩

theorem hasDirectory_of_not_hasFile {tree : FileTree} {place : Place}
    (present : (tree.node? place).isSome) (clear : ¬tree.HasFile place) :
    tree.HasDirectory place := by
  rcases tree.node?_cases place with absent | directory | file
  · rw [absent] at present
    cases present
  · exact directory
  · exact absurd file clear

/-- Directories can be made unless a file is in the way. -/
theorem makeDirectories_of_clear {tree : FileTree} (formed : tree.WellFormed) {place : Place}
    (directory : tree.HasDirectory place) {steps : List (List Char)}
    (clear : ∀ visited ∈ visits place steps.reverse, ¬tree.HasFile visited) :
    ∃ made, tree.makeDirectories place steps = .ok made := by
  induction steps with
  | nil => exact ⟨tree, rfl⟩
  | cons last before ih =>
      have clearBefore := fun visited mem =>
        clear visited (visits_before_subset place last before visited mem)
      have clearLast : ¬tree.HasFile (stepTo (destination place before.reverse) last) := by
        refine clear _ ?_
        rw [← destination_concat, ← List.reverse_cons]
        exact destination_mem_visits place (by simp)
      have making := makeDirectory_making formed place last before
      rw [makeDirectories]
      cases first : tree.makeDirectory place (last :: before) with
      | ok made => exact ⟨made, rfl⟩
      | error fault =>
          rw [first] at making
          cases making with
          | present reached present =>
              have there := hasDirectory_of_not_hasFile present clearLast
              have directory := (isDirectory_iff formed).mpr (reached_cons.mpr ⟨reached, there⟩)
              exact ⟨tree, if_pos directory⟩
          | obstructed unreached file =>
              rcases file with file | ⟨visited, mem, file⟩
              · exact absurd file (not_hasFile_of_hasDirectory directory)
              · exact absurd file (clearBefore visited mem)
          | unreached unreached =>
              -- The directories above are made first, and then the last one is tried again.
              obtain ⟨between, below⟩ := ih clearBefore
              obtain ⟨grown, formed, reached⟩ := makeDirectories_ok formed below
              have reachedBefore : between.Reached place before := by
                cases before with
                | nil => exact ⟨trivial, grown.kept _ _ directory⟩
                | cons next more => exact reached (List.cons_ne_nil _ _)
              have making := makeDirectory_making formed place last before
              dsimp only
              rw [below]
              cases second : between.makeDirectory place (last :: before) with
              | ok made =>
                  refine ⟨made, ?_⟩
                  simp only [bind, Except.bind, pure, Except.pure, second]
              | error fault =>
                  rw [second] at making
                  cases making with
                  | unreached unreached => exact absurd reachedBefore unreached
                  | obstructed unreached file => exact absurd reachedBefore unreached
                  | present reached present =>
                      have there := hasDirectory_of_not_hasFile present
                        (fun file => clearLast (grown.hasFile.mp file))
                      have directory :=
                        (isDirectory_iff formed).mpr (reached_cons.mpr ⟨reached, there⟩)
                      refine ⟨between, ?_⟩
                      simp only [bind, Except.bind, pure, Except.pure, second]
                      exact if_pos directory

end DocDrift.FileTree
