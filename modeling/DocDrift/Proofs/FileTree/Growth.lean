import DocDrift.Proofs.FileTree.Directories
import DocDrift.Proofs.Path

/-!
How a tree grows when documents are written. A later tree has directories where there were
directories, and files where there were files; so what could be made or written can be made or
written again, to the same effect, and what could not never can. A path that lies apart from those of
the documents leads to the same contents as before.
-/

set_option autoImplicit false

namespace DocDrift.FileTree

/-! ### Growth -/

/-- A later tree has its directories where they were, and files where files were. -/
structure Grows (tree later : FileTree) : Prop where
  here : later.here = tree.here
  directory : ∀ place, tree.HasDirectory place → later.HasDirectory place
  file : ∀ place, tree.HasFile place → later.HasFile place

theorem Grows.refl (tree : FileTree) : tree.Grows tree :=
  ⟨rfl, fun _ directory => directory, fun _ file => file⟩

theorem Grows.trans {tree between later : FileTree} (first : tree.Grows between)
    (second : between.Grows later) : tree.Grows later :=
  ⟨second.here.trans first.here,
    fun place directory => second.directory place (first.directory place directory),
    fun place file => second.file place (first.file place file)⟩

theorem Extends.grows {tree made : FileTree} {places : List Place}
    (grown : tree.Extends made places) : tree.Grows made :=
  ⟨grown.here, fun place directory => grown.kept place _ directory,
    fun _ file => grown.hasFile.mpr file⟩

theorem grows_put_file (tree : FileTree) {place : Place} (free : ¬tree.HasDirectory place)
    (contents : ByteArray) : tree.Grows (tree.put place (.file contents)) := by
  have below := ne_nil_of_not_directory free
  refine ⟨rfl, ?_, ?_⟩
  · intro other directory
    have different : other ≠ place := by
      rintro rfl
      exact free directory
    rw [HasDirectory, node?_put_of_ne tree _ different, directory]
  · rintro other ⟨node, present, kind⟩
    by_cases same : other = place
    · rw [same]
      exact ⟨_, node?_put_self tree below _, Node.noConfusion⟩
    · exact ⟨node, by rw [node?_put_of_ne tree _ same, present], kind⟩

theorem Grows.present {tree later : FileTree} (grown : tree.Grows later) {place : Place}
    (present : (tree.node? place).isSome) : (later.node? place).isSome := by
  rcases tree.node?_cases place with absent | directory | file
  · rw [absent] at present
    cases present
  · rw [grown.directory place directory, Option.isSome_some]
  · obtain ⟨node, found, _different⟩ := grown.file place file
    rw [found, Option.isSome_some]

theorem Grows.passable {tree later : FileTree} (grown : tree.Grows later) {place : Place}
    {parts : List (List Char)} (passable : tree.Passable place parts) :
    later.Passable place parts := by
  induction parts generalizing place with
  | nil => trivial
  | cons part rest ih =>
      obtain ⟨directory, present, onward⟩ := passable
      exact ⟨grown.directory _ directory, grown.present present, ih onward⟩

theorem Grows.reached {tree later : FileTree} (grown : tree.Grows later) {place : Place}
    {steps : List (List Char)} (reached : tree.Reached place steps) :
    later.Reached place steps :=
  ⟨grown.passable reached.1, grown.directory _ reached.2⟩

theorem Grows.start {tree later : FileTree} (grown : tree.Grows later) (path : String) :
    later.start path = tree.start path := by
  rw [FileTree.start, FileTree.start, grown.here]

/-! ### Making the parent of a path -/

section MakeParent

variable {tree made later : FileTree} {path : String}

theorem visits_tail_subset (place : Place) (steps : List (List Char)) :
    ∀ visited ∈ visits place steps.reverse.tail.reverse, visited ∈ visits place steps := by
  intro visited mem
  cases reversed : steps.reverse with
  | nil =>
      rw [reversed] at mem
      cases mem
  | cons last before =>
      have same : steps = (last :: before).reverse := by rw [← reversed, List.reverse_reverse]
      rw [reversed, List.tail_cons] at mem
      rw [same]
      exact visits_before_subset place last before visited mem

theorem makeParent_extends (formed : tree.WellFormed) (done : tree.makeParent path = .ok made) :
    tree.Extends made (tree.route path) ∧ made.WellFormed := by
  obtain ⟨grown, formed, _reached⟩ := makeDirectories_ok formed done
  exact ⟨grown.mono (visits_tail_subset _ _), formed⟩

/-- Once the parent of a path is made, making it again changes nothing. -/
theorem makeParent_again (formed : tree.WellFormed) (done : tree.makeParent path = .ok made)
    (grown : made.Grows later) (laterFormed : later.WellFormed) :
    later.makeParent path = .ok later := by
  obtain ⟨first, _formed, reached⟩ := makeDirectories_ok formed done
  unfold makeParent
  rw [grown.start, first.grows.start]
  cases steps : (Path.steps path).reverse.tail with
  | nil => rfl
  | cons last before =>
      rw [steps] at reached
      exact makeDirectories_of_reached laterFormed (grown.reached (reached (List.cons_ne_nil _ _)))

/-- A parent that could not be made cannot be made later: a file is in the way. -/
theorem makeParent_blocked (formed : tree.WellFormed)
    (failed : ∀ made, tree.makeParent path ≠ .ok made) (grown : tree.Grows later)
    (laterFormed : later.WellFormed) : ∀ made, later.makeParent path ≠ .ok made := by
  intro made done
  refine absurd (makeDirectories_of_clear formed (formed.start path) ?_)
    (fun ⟨made, done⟩ => failed made done)
  intro visited mem file
  obtain ⟨extension, _formed, reached⟩ := makeDirectories_ok laterFormed done
  have some : (Path.steps path).reverse.tail ≠ [] := by
    intro none
    rw [none] at mem
    cases mem
  rw [grown.start] at reached
  have directory := (reached some).directory visited mem
  exact not_hasFile_of_hasDirectory directory (extension.hasFile.mpr (grown.file visited file))

end MakeParent

/-! ### Writing a file -/

section Write

variable {tree next later : FileTree} {path : String} {contents : ByteArray}
  {before : List (List Char)} {last : List Char}

/-- What writing a file comes to, by the last part of its path. -/
inductive Writing (tree : FileTree) (path : String) (contents : ByteArray)
    (before : List (List Char)) (last : List Char) : Except FileFault FileTree → Prop
  | wrote (named : (Path.isIdle last || last == Path.up) = false)
      (reached : tree.Reached (tree.start path) before.reverse)
      (free : ¬tree.HasDirectory (tree.goal path)) :
      Writing tree path contents before last (.ok (tree.put (tree.goal path) (.file contents)))
  | taken (fault : FileFault) (directory : tree.HasDirectory (tree.goal path)) :
      Writing tree path contents before last (.error fault)
  | nameless (fault : FileFault)
      (nameless : path.isEmpty = true ∨ (Path.isIdle last || last == Path.up) = true) :
      Writing tree path contents before last (.error fault)
  | unreached (fault : FileFault)
      (unreached : ¬tree.Reached (tree.start path) before.reverse) :
      Writing tree path contents before last (.error fault)

theorem goal_of_parts (tree : FileTree) (split : Path.parts path.toList = before ++ [last]) :
    tree.goal path = stepTo (destination (tree.start path) before) last := by
  rw [goal, Path.steps, destination_filter, split, destination_concat]

theorem write_writing (formed : tree.WellFormed) (contents : ByteArray)
    (split : Path.parts path.toList = before ++ [last]) :
    tree.Writing path contents before last (tree.write path contents) := by
  unfold write
  split
  case isTrue empty => exact .nameless _ (.inl empty)
  case isFalse =>
    rw [split, List.reverse_append, List.reverse_singleton, List.singleton_append]
    by_cases reached : tree.Reached (tree.start path) before.reverse
    · rw [slot?_of_reached formed reached last, List.reverse_reverse, ← goal_of_parts tree split]
      cases named : Path.isIdle last || last == Path.up with
      | true => exact .nameless _ (.inr named)
      | false =>
          rw [if_neg Bool.false_ne_true]
          simp only [bind, Except.bind, pure, Except.pure]
          split
          case h_1 directory => exact .taken _ directory
          case h_2 other =>
            refine .wrote named reached (fun directory => ?_)
            exact other directory
    · rcases slot?_of_not_reached formed reached last with failed | ⟨failed, _file⟩
      · rw [failed]
        exact .unreached _ reached
      · rw [failed]
        exact .unreached _ reached

theorem steps_of_parts (split : Path.parts path.toList = before ++ [last])
    (named : (Path.isIdle last || last == Path.up) = false) :
    Path.steps path = before.filter (fun part => !Path.isIdle part) ++ [last] := by
  have active : (!Path.isIdle last) = true := by
    rw [Bool.or_eq_false_iff] at named
    rw [named.1, Bool.not_false]
  rw [Path.steps, split, List.filter_append]
  simp only [List.filter_cons, active, if_true, List.filter_nil]

/-- A file is written at the end of its route, into a directory, and not over one. -/
theorem write_ok (formed : tree.WellFormed) (done : tree.write path contents = .ok next) :
    tree.goal path ∈ tree.route path ∧ ¬tree.HasDirectory (tree.goal path) ∧
      tree.HasDirectory (tree.goal path).dropLast ∧
      next = tree.put (tree.goal path) (.file contents) := by
  obtain ⟨before, last, split⟩ := Path.parts_concat path.toList
  have writing := write_writing formed contents split
  rw [done] at writing
  cases writing with
  | wrote named reached free =>
      refine ⟨?_, free, ?_, rfl⟩
      · refine destination_mem_visits _ ?_
        rw [steps_of_parts split named]
        exact List.append_ne_nil_of_right_ne_nil _ (List.cons_ne_nil _ _)
      · have directory := reached.2
        rw [List.reverse_reverse] at directory
        rw [goal_of_parts tree split]
        exact formed.above_stepTo directory last

theorem write_wellFormed (formed : tree.WellFormed)
    (done : tree.write path contents = .ok next) : next.WellFormed := by
  obtain ⟨_mem, free, above, rfl⟩ := write_ok formed done
  exact formed.put above free

theorem write_grows (formed : tree.WellFormed) (done : tree.write path contents = .ok next) :
    tree.Grows next := by
  obtain ⟨_mem, free, _above, rfl⟩ := write_ok formed done
  exact grows_put_file tree free contents

theorem Grows.goal {tree later : FileTree} (grown : tree.Grows later) (path : String) :
    later.goal path = tree.goal path := by
  rw [FileTree.goal, FileTree.goal, grown.start]

theorem write_again (formed : tree.WellFormed) (done : tree.write path contents = .ok next)
    (grown : next.Grows later) (laterFormed : later.WellFormed) (other : ByteArray) :
    later.write path other = .ok (later.put (tree.goal path) (.file other)) := by
  obtain ⟨before, last, split⟩ := Path.parts_concat path.toList
  have nonempty : path.isEmpty = false := by
    cases empty : path.isEmpty with
    | false => rfl
    | true =>
        rw [write, empty] at done
        cases done
  have whole := (write_grows formed done).trans grown
  have writing := write_writing formed contents split
  have rewriting := write_writing laterFormed other split
  rw [← whole.goal]
  rw [done] at writing
  cases writing with
  | wrote named reached free =>
      have file : later.HasFile (tree.goal path) := by
        refine grown.file _ ⟨.file contents, ?_, Node.noConfusion⟩
        exact node?_put_self tree (ne_nil_of_not_directory free) _
      generalize later.write path other = result at rewriting
      cases rewriting with
      | wrote named reached free => rfl
      | taken fault directory =>
          rw [whole.goal] at directory
          exact absurd file (not_hasFile_of_hasDirectory directory)
      | nameless fault nameless =>
          rcases nameless with empty | nameless
          · rw [nonempty] at empty
            cases empty
          · rw [named] at nameless
            cases nameless
      | unreached fault unreached =>
          rw [whole.start] at unreached
          exact absurd (whole.reached reached) unreached

theorem reached_before_last (formed : tree.WellFormed) (made : tree.makeParent path = .ok tree)
    (split : Path.parts path.toList = before ++ [last])
    (named : (Path.isIdle last || last == Path.up) = false) :
    tree.Reached (tree.start path) before.reverse := by
  obtain ⟨_grown, _formed, reached⟩ := makeDirectories_ok formed made
  rw [steps_of_parts split named, List.reverse_append, List.reverse_singleton,
    List.singleton_append, List.tail_cons] at reached
  have directories : ∀ visited ∈ visits (tree.start path) before, tree.HasDirectory visited := by
    intro visited mem
    rcases visits_filter _ before mem with rfl | within
    · exact formed.start path
    · have some : (before.filter (fun part => !Path.isIdle part)).reverse ≠ [] := by
        intro none
        rw [List.reverse_eq_nil_iff] at none
        rw [none] at within
        cases within
      refine (reached some).directory visited ?_
      rwa [List.reverse_reverse]
  rw [Reached, List.reverse_reverse]
  refine ⟨passable_of_directories (formed.start path) directories, ?_⟩
  cases before with
  | nil => exact formed.start path
  | cons next more => exact directories _ (destination_mem_visits _ (List.cons_ne_nil _ _))

/-- A file that could not be written once its parent was made cannot be written later: its path
names no place of its own, or a directory is there. -/
theorem write_blocked (formed : tree.WellFormed) (made : tree.makeParent path = .ok tree)
    (failed : ∀ next, tree.write path contents ≠ .ok next) (grown : tree.Grows later)
    (laterFormed : later.WellFormed) (other : ByteArray) :
    ∀ next, later.write path other ≠ .ok next := by
  intro next done
  obtain ⟨before, last, split⟩ := Path.parts_concat path.toList
  have writing := write_writing formed contents split
  have rewriting := write_writing laterFormed other split
  rw [done] at rewriting
  cases rewriting with
  | wrote named reached free =>
      cases result : tree.write path contents with
      | ok next => exact failed next result
      | error fault =>
          rw [result] at writing
          cases writing with
          | taken fault directory =>
              rw [grown.goal] at free
              exact free (grown.directory _ directory)
          | nameless fault nameless =>
              rcases nameless with empty | nameless
              · rw [write, empty] at done
                cases done
              · rw [named] at nameless
                cases nameless
          | unreached fault unreached =>
              exact unreached (reached_before_last formed made split named)

end Write

/-! ### What a growing tree hides -/

/-- A path that leads where nothing can come from making the directories and the file of another:
wherever the routes of both meet, they are still above its goal. Of paths that never lead up this
says that the other does not lie at or below it. -/
def Apart (tree : FileTree) (document path : String) : Prop :=
  ∀ visited ∈ tree.route document, visited ∈ tree.route path →
    visited <+: tree.goal path ∧ visited ≠ tree.goal path

/-- A path that never leads up passes only through what its goal lies in. -/
theorem prefix_of_visited (place : Place) {visited : Place} {parts : List (List Char)}
    (onward : ∀ part ∈ parts, part ≠ Path.up) :
    place <+: destination place parts ∧
      (visited ∈ visits place parts → visited <+: destination place parts) := by
  induction parts generalizing place with
  | nil => exact ⟨List.prefix_rfl, fun mem => nomatch mem⟩
  | cons part rest ih =>
      obtain ⟨above, later⟩ :=
        ih (stepTo place part) fun other mem => onward other (List.mem_cons_of_mem _ mem)
      have step : place <+: stepTo place part := by
        unfold stepTo
        split
        · exact List.prefix_rfl
        · rw [if_neg (by simpa using onward part List.mem_cons_self)]
          exact List.prefix_append _ _
      refine ⟨step.trans above, ?_⟩
      intro mem
      rcases List.mem_cons.mp mem with rfl | mem
      · exact above
      · exact later mem

/-- Paths that never lead up are apart unless the document lies at or below the other. -/
theorem apart_of_onward {tree : FileTree} {document path : String}
    (onward : ∀ part ∈ Path.steps document, part ≠ Path.up)
    (onward' : ∀ part ∈ Path.steps path, part ≠ Path.up)
    (aside : ¬tree.goal path <+: tree.goal document) : tree.Apart document path := by
  intro visited mem mem'
  have above := (prefix_of_visited _ onward').2 mem'
  refine ⟨above, ?_⟩
  rintro rfl
  exact aside ((prefix_of_visited _ onward).2 mem)

theorem locate_ok {tree : FileTree} (formed : tree.WellFormed) {path : String} {place : Place} :
    tree.locate path = .ok place ↔
      path.isEmpty = false ∧ tree.Passable (tree.start path) (Path.parts path.toList) ∧
        place = tree.goal path := by
  rw [goal, Path.steps, destination_filter, locate]
  cases path.isEmpty with
  | true => simp only [if_true, reduceCtorEq, false_and]
  | false =>
      simp only [Bool.false_eq_true, if_false, true_and]
      constructor
      · exact passable_of_walk formed
      · rintro ⟨passable, rfl⟩
        exact walk_of_passable formed passable

theorem exists?_iff {tree : FileTree} (formed : tree.WellFormed) {path : String} :
    tree.exists? path = true ↔
      path.isEmpty = false ∧ tree.Passable (tree.start path) (Path.parts path.toList) := by
  rw [exists?]
  constructor
  · intro found
    cases located : tree.locate path with
    | error fault =>
        rw [located] at found
        cases found
    | ok place =>
        obtain ⟨nonempty, passable, _same⟩ := (locate_ok formed).mp located
        exact ⟨nonempty, passable⟩
  · rintro ⟨nonempty, passable⟩
    rw [(locate_ok formed).mpr ⟨nonempty, passable, rfl⟩]
    rfl

/-- What is read at the end of a path depends on what is at its goal. -/
theorem read_eq {tree : FileTree} (formed : tree.WellFormed) {path : String}
    (present : tree.exists? path = true) :
    tree.read path =
      match tree.node? (tree.goal path) with
      | none => .error .notFound
      | some .directory => .error .isDirectory
      | some (.file contents) => .ok contents
      | some (.store _) => .ok .empty := by
  obtain ⟨nonempty, passable⟩ := (exists?_iff formed).mp present
  have located := (locate_ok formed).mpr ⟨nonempty, passable, rfl⟩
  rw [read, nodeAt, located]
  simp only [bind, Except.bind, pure, Except.pure]
  cases tree.node? (tree.goal path) with
  | none => rfl
  | some node => cases node <;> rfl

theorem exists?_of_read {tree : FileTree} {path : String} {bytes : ByteArray}
    (read : tree.read path = .ok bytes) : tree.exists? path = true := by
  rw [FileTree.read, nodeAt] at read
  rw [exists?]
  cases located : tree.locate path with
  | error fault =>
      rw [located] at read
      cases read
  | ok place => rfl

theorem Grows.exists? {tree later : FileTree} (grown : tree.Grows later)
    (formed : tree.WellFormed) (laterFormed : later.WellFormed) {path : String}
    (present : tree.exists? path = true) : later.exists? path = true := by
  obtain ⟨nonempty, passable⟩ := (exists?_iff formed).mp present
  rw [exists?_iff laterFormed, grown.start]
  exact ⟨nonempty, grown.passable passable⟩

theorem Grows.read {tree later : FileTree} (grown : tree.Grows later) (formed : tree.WellFormed)
    (laterFormed : later.WellFormed) {path : String} (present : tree.exists? path = true)
    (same : later.node? (tree.goal path) = tree.node? (tree.goal path)) :
    later.read path = tree.read path := by
  rw [read_eq formed present, read_eq laterFormed (grown.exists? formed laterFormed present),
    grown.goal, same]

theorem goal_present {tree : FileTree} (formed : tree.WellFormed) {path : String}
    (present : tree.exists? path = true) :
    ∃ node, tree.node? (tree.goal path) = some node := by
  obtain ⟨_nonempty, passable⟩ := (exists?_iff formed).mp present
  refine Option.isSome_iff_exists.mp (passable.visited ?_).1
  rw [goal, Path.steps, destination_filter]
  exact destination_mem_visits _ (Path.parts_ne_nil _)

theorem Extends.read {tree made : FileTree} {places : List Place}
    (grown : tree.Extends made places) (formed : tree.WellFormed) (madeFormed : made.WellFormed)
    {path : String} (present : tree.exists? path = true) : made.read path = tree.read path := by
  obtain ⟨node, there⟩ := goal_present formed present
  refine grown.grows.read formed madeFormed present ?_
  rw [there, grown.kept _ _ there]

theorem read_of_write {tree next : FileTree} (formed : tree.WellFormed) {path other : String}
    {contents : ByteArray} (done : tree.write path contents = .ok next)
    (elsewhere : tree.goal path ≠ tree.goal other) (present : tree.exists? other = true) :
    next.read other = tree.read other := by
  have grown := write_grows formed done
  have nextFormed := write_wellFormed formed done
  obtain ⟨_mem, _free, _above, rfl⟩ := write_ok formed done
  refine grown.read formed nextFormed present ?_
  exact node?_put_of_ne tree _ (fun same => elsewhere same.symm)

theorem passable_transfer {tree later : FileTree} {place : Place} {parts : List (List Char)}
    (passable : later.Passable place parts) (begins : tree.HasDirectory place)
    (present : ∀ visited ∈ visits place parts, (tree.node? visited).isSome)
    (directory : ∀ visited ∈ visits place parts,
      later.HasDirectory visited → tree.HasDirectory visited) :
    tree.Passable place parts := by
  induction parts generalizing place with
  | nil => trivial
  | cons part rest ih =>
      obtain ⟨_directory, _present, onward⟩ := passable
      refine ⟨begins, present _ List.mem_cons_self, ?_⟩
      cases rest with
      | nil => trivial
      | cons next more =>
          refine ih onward (directory _ List.mem_cons_self onward.1) ?_ ?_
          · exact fun visited mem => present visited (List.mem_cons_of_mem _ mem)
          · exact fun visited mem => directory visited (List.mem_cons_of_mem _ mem)

section Apart

variable {tree later : FileTree} {document path : String}

/-- Growth along the route of a path that is apart makes nothing come into being. -/
theorem Grows.exists?_apart (grown : tree.Grows later) (formed : tree.WellFormed)
    (laterFormed : later.WellFormed) (apart : tree.Apart document path)
    (elsewhere : ∀ place, place ∉ tree.route document → later.node? place = tree.node? place) :
    later.exists? path = tree.exists? path := by
  cases present : tree.exists? path with
  | true => exact grown.exists? formed laterFormed present
  | false =>
      cases appeared : later.exists? path with
      | false => rfl
      | true =>
          obtain ⟨nonempty, passable⟩ := (exists?_iff laterFormed).mp appeared
          rw [grown.start] at passable
          have ends : tree.goal path ∈ visits (tree.start path) (Path.parts path.toList) := by
            rw [FileTree.goal, Path.steps, destination_filter]
            exact destination_mem_visits _ (Path.parts_ne_nil _)
          have goalThere : ∃ node, tree.node? (tree.goal path) = some node := by
            rcases visits_filter _ _ ends with same | mem
            · rw [same]
              exact ⟨_, formed.start path⟩
            · have outside : tree.goal path ∉ tree.route document :=
                fun within => (apart _ within mem).2 rfl
              rw [← elsewhere _ outside]
              exact Option.isSome_iff_exists.mp (passable.visited ends).1
          obtain ⟨node, goalThere⟩ := goalThere
          have there : ∀ visited ∈ visits (tree.start path) (Path.parts path.toList),
              (tree.node? visited).isSome := by
            intro visited mem
            rcases visits_filter _ _ mem with rfl | within
            · rw [formed.start path, Option.isSome_some]
            · by_cases meets : visited ∈ tree.route document
              · obtain ⟨above, different⟩ := apart visited meets within
                rw [formed.ancestor goalThere above different, Option.isSome_some]
              · rw [← elsewhere visited meets]
                exact (passable.visited mem).1
          have before : tree.Passable (tree.start path) (Path.parts path.toList) := by
            refine passable_transfer passable (formed.start path) there ?_
            intro visited mem directory
            refine hasDirectory_of_not_hasFile (there visited mem) (fun file => ?_)
            exact not_hasFile_of_hasDirectory directory (grown.file visited file)
          rw [(exists?_iff formed).mpr ⟨nonempty, before⟩] at present
          cases present

/-- Growth along the route of a path that is apart does not change what is read. -/
theorem Grows.read_apart (grown : tree.Grows later) (formed : tree.WellFormed)
    (laterFormed : later.WellFormed) (apart : tree.Apart document path)
    (elsewhere : ∀ place, place ∉ tree.route document → later.node? place = tree.node? place)
    (present : tree.exists? path = true) : later.read path = tree.read path := by
  refine grown.read formed laterFormed present ?_
  by_cases meets : tree.goal path ∈ tree.route document
  · by_cases within : tree.goal path ∈ tree.route path
    · exact absurd rfl (apart _ meets within).2
    · -- A path without steps ends where it begins, in a directory.
      have same : tree.goal path = tree.start path := by
        unfold FileTree.goal
        cases steps : Path.steps path with
        | nil => rfl
        | cons step more =>
            refine absurd (destination_mem_visits _ ?_) within
            rw [steps]
            exact List.cons_ne_nil _ _
      have directory := formed.start path
      rw [same, directory]
      exact grown.directory _ directory
  · exact elsewhere _ meets

end Apart

end DocDrift.FileTree
