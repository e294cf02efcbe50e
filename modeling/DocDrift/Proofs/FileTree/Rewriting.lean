import DocDrift.Proofs.FileTree.Presence

/-!
Writing a file and reading it back, in any tree. A file is written under a name of its own in a
directory that is there, so its path leads to it afterwards, and nothing else changes; a file that
can be read can be written.
-/

set_option autoImplicit false

namespace DocDrift.FileTree

section Rewriting

variable {tree next : FileTree} {path : String} {contents : ByteArray}
  {place free final : Place} {before : List (List Char)} {last : List Char}

/-! ### The place that a path names -/

theorem walk_append_ok {parts more : List (List Char)} :
    tree.walk place (parts ++ more) = .ok final ↔
      ∃ reached, tree.walk place parts = .ok reached ∧ tree.walk reached more = .ok final := by
  induction parts generalizing place with
  | nil =>
      rw [List.nil_append, walk]
      simp only [Except.ok.injEq, exists_eq_left']
  | cons part rest ih =>
      rw [List.cons_append, walk_cons_ok, ih]
      simp only [walk_cons_ok, and_assoc, exists_and_left]

theorem walk_destination {parts : List (List Char)} (walked : tree.walk place parts = .ok final) :
    final = destination place parts := by
  induction parts generalizing place with
  | nil => exact (Except.ok.inj walked).symm
  | cons part rest ih => exact ih (walk_cons_ok.mp walked).2.2

theorem slot?_eq_some : tree.slot? place (last :: before) = .ok (some free) ↔
    Path.Named last ∧ ∃ directory, tree.walk place before.reverse = .ok directory ∧
      tree.HasDirectory directory ∧ free = directory ++ [String.ofList last] := by
  rw [slot?]
  cases tree.walk place before.reverse with
  | error fault =>
      refine iff_of_false (fun found => ?_) ?_
      · cases found
      · rintro ⟨_named, directory, walked, _⟩
        cases walked
  | ok directory =>
      simp only [bind, Except.bind, pure, Except.pure, Except.ok.injEq, exists_eq_left']
      cases needed : tree.needDirectory directory with
      | error fault =>
          refine iff_of_false (fun found => ?_) ?_
          · cases found
          · rintro ⟨_named, there, _same⟩
            rw [needDirectory_ok.mpr there] at needed
            cases needed
      | ok found =>
          have there := needDirectory_ok.mp needed
          simp only [there, true_and]
          by_cases named : Path.Named last
          · rw [Path.Named] at named
            simp only [Path.Named, named, Bool.false_eq_true, if_false, true_and, Except.ok.injEq,
              Option.some.injEq, eq_comm]
          · refine iff_of_false ?_ fun both => named both.1
            rw [if_pos (eq_true_of_ne_false named)]
            intro found
            cases found

/-- A path names a place in a directory, whether or not something is there. -/
def Names (tree : FileTree) (path : String) (place : Place) : Prop :=
  path.isEmpty = false ∧
    tree.slot? (tree.start path) (Path.parts path.toList).reverse = .ok (some place)

theorem names_iff (split : Path.parts path.toList = before ++ [last]) :
    tree.Names path place ↔ path.isEmpty = false ∧ Path.Named last ∧
      ∃ directory, tree.walk (tree.start path) before = .ok directory ∧
        tree.HasDirectory directory ∧ place = directory ++ [String.ofList last] := by
  rw [Names, split, List.reverse_append, List.reverse_singleton, List.singleton_append,
    slot?_eq_some, List.reverse_reverse]

theorem Names.ne_nil (names : tree.Names path place) : place ≠ [] := by
  obtain ⟨before, last, split⟩ := Path.parts_concat path.toList
  obtain ⟨_empty, _named, directory, _walked, _there, rfl⟩ := (names_iff split).mp names
  exact List.append_ne_nil_of_right_ne_nil _ (List.cons_ne_nil _ _)

/-- The place is the end of the route. -/
theorem Names.eq_goal (names : tree.Names path place) : place = tree.goal path := by
  obtain ⟨before, last, split⟩ := Path.parts_concat path.toList
  obtain ⟨_empty, named, directory, walked, _there, rfl⟩ := (names_iff split).mp names
  rw [goal_of_parts tree split, ← walk_destination walked, stepTo_named named]

theorem Names.locate_eq (names : tree.Names path place)
    (present : (tree.node? place).isSome = true) : tree.locate path = .ok place := by
  obtain ⟨before, last, split⟩ := Path.parts_concat path.toList
  obtain ⟨nonempty, named, directory, walked, there, rfl⟩ := (names_iff split).mp names
  rw [locate, nonempty, if_neg Bool.false_ne_true, split, walk_append_ok]
  refine ⟨directory, walked, walk_cons_ok.mpr ⟨there, ?_, ?_⟩⟩
  · rw [stepTo_named named]
    exact fun _named => present
  · rw [stepTo_named named, walk]

theorem names_of_locate (split : Path.parts path.toList = before ++ [last])
    (named : Path.Named last) (located : tree.locate path = .ok place) :
    tree.Names path place := by
  rw [locate] at located
  split at located
  case isTrue => cases located
  case isFalse some =>
    rw [split, walk_append_ok] at located
    obtain ⟨directory, walked, ends⟩ := located
    obtain ⟨there, _present, same⟩ := walk_cons_ok.mp ends
    rw [stepTo_named named] at same
    exact (names_iff split).mpr
      ⟨Bool.eq_false_iff.mpr some, named, directory, walked, there, (Except.ok.inj same).symm⟩

theorem Grows.names {later : FileTree} (grown : tree.Grows later) (names : tree.Names path place) :
    later.Names path place := by
  obtain ⟨before, last, split⟩ := Path.parts_concat path.toList
  obtain ⟨nonempty, named, directory, walked, there, same⟩ := (names_iff split).mp names
  refine (names_iff split).mpr ⟨nonempty, named, directory, ?_, grown.directory _ there, same⟩
  rw [grown.start]
  exact grown.walk walked

/-! ### Writing -/

theorem write_eq_ok : tree.write path contents = .ok next ↔
    ∃ place, tree.Names path place ∧ ¬tree.HasDirectory place ∧
      next = tree.put place (.file contents) := by
  rw [write]
  constructor
  · intro done
    split at done
    case isTrue => cases done
    case isFalse some =>
      cases slot : tree.slot? (tree.start path) (Path.parts path.toList).reverse with
      | error fault =>
          rw [slot] at done
          cases done
      | ok found =>
          rw [slot] at done
          cases found with
          | none => cases done
          | some place =>
              simp only [bind, Except.bind] at done
              split at done
              · cases done
              · rename_i other
                exact ⟨place, ⟨Bool.eq_false_iff.mpr some, slot⟩, other,
                  (Except.ok.inj done).symm⟩
  · rintro ⟨place, ⟨nonempty, slot⟩, other, rfl⟩
    rw [nonempty, if_neg Bool.false_ne_true, slot]
    simp only [bind, Except.bind]
    split
    · rename_i directory
      exact absurd directory other
    · rfl

theorem read_written (done : tree.write path contents = .ok next) :
    next.exists? path = true ∧ next.read path = .ok contents := by
  obtain ⟨place, names, _other, rfl⟩ := write_eq_ok.mp done
  have there := (grows_of_write done).names names
  have node := node?_put_self tree names.ne_nil (.file contents)
  have located := there.locate_eq (by rw [node, Option.isSome_some])
  refine ⟨by rw [exists?, located, Except.isOk, Except.toBool], ?_⟩
  rw [read, nodeAt, located]
  simp only [bind, Except.bind, node, pure, Except.pure]

theorem locate_eq_goal (located : tree.locate path = .ok place) : place = tree.goal path := by
  rw [locate] at located
  split at located
  case isTrue => cases located
  case isFalse =>
    rw [goal, Path.steps, destination_filter]
    exact walk_destination located

/-- What was read is read in a later tree that has the same at the end of the route. -/
theorem Grows.reads {later : FileTree} (grown : tree.Grows later)
    (same : ∀ node, tree.node? (tree.goal path) = some node →
      later.node? (tree.goal path) = some node)
    (held : tree.read path = .ok contents) : later.read path = .ok contents := by
  rw [FileTree.read, nodeAt] at held ⊢
  cases located : tree.locate path with
  | error fault =>
      rw [located] at held
      cases held
  | ok place =>
      rw [located] at held
      rw [grown.locate located]
      simp only [bind, Except.bind] at held ⊢
      cases found : tree.node? place with
      | none =>
          rw [found] at held
          cases held
      | some node =>
          rw [found] at held
          rw [locate_eq_goal located] at found ⊢
          rw [same node found]
          exact held

/-- What was read is read where directories were added. -/
theorem Extends.reads {later : FileTree} {places : List Place}
    (extension : tree.Extends later places)
    (held : tree.read path = .ok contents) : later.read path = .ok contents :=
  extension.grows.reads (fun node found => extension.kept _ node found) held

theorem reads_of_write {other : String} {bytes : ByteArray}
    (done : tree.write path contents = .ok next) (apart : tree.goal other ≠ tree.goal path)
    (held : tree.read other = .ok bytes) : next.read other = .ok bytes := by
  refine (grows_of_write done).reads (fun node found => ?_) held
  obtain ⟨place, names, _free, rfl⟩ := write_eq_ok.mp done
  rw [node?_put_of_ne tree _ (names.eq_goal ▸ apart)]
  exact found

theorem readText_of_read {text : String} (held : tree.read path = .ok text.toUTF8) :
    tree.readText path = .ok text := by
  have whole : String.fromUTF8? text.toUTF8 = some text := dif_pos text.isValidUTF8
  rw [readText, held]
  simp only [bind, Except.bind, whole, pure, Except.pure]

theorem readText_written {text : String} (done : tree.write path text.toUTF8 = .ok next) :
    next.readText path = .ok text :=
  readText_of_read (read_written done).2

theorem write_any (done : tree.write path contents = .ok next) (other : ByteArray) :
    ∃ made, tree.write path other = .ok made := by
  obtain ⟨place, names, free, _same⟩ := write_eq_ok.mp done
  exact ⟨_, write_eq_ok.mpr ⟨place, names, free, rfl⟩⟩

theorem write_of_read (split : Path.parts path.toList = before ++ [last])
    (named : Path.Named last) (held : tree.read path = .ok contents) (other : ByteArray) :
    ∃ made, tree.write path other = .ok made := by
  rw [read, nodeAt] at held
  cases located : tree.locate path with
  | error fault =>
      rw [located] at held
      cases held
  | ok place =>
      rw [located] at held
      refine ⟨_, write_eq_ok.mpr ⟨place, names_of_locate split named located, ?_, rfl⟩⟩
      intro directory
      rw [HasDirectory] at directory
      simp only [bind, Except.bind, directory, pure, Except.pure] at held
      cases held

end Rewriting

end DocDrift.FileTree
