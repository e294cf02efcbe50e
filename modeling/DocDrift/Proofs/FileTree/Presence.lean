import DocDrift.Proofs.FileTree.Growth

/-!
What is there stays there. Documents are written into any tree, well formed or not, without taking
anything away: directories are made where nothing is, and a file is written where no directory is.
So a path that leads somewhere leads there in every later tree.
-/

set_option autoImplicit false

namespace DocDrift.FileTree

section Presence

variable {tree later : FileTree}

theorem stepTo_named {place : Place} {part : List Char} (named : Path.Named part) :
    stepTo place part = place ++ [String.ofList part] := by
  obtain ⟨active, down⟩ := Bool.or_eq_false_iff.mp named
  rw [stepTo, active, down]
  rfl

/-- A walk goes on from a directory, and to something that is there if it goes down. -/
theorem walk_cons_ok {place final : Place} {part : List Char} {rest : List (List Char)} :
    tree.walk place (part :: rest) = .ok final ↔
      tree.HasDirectory place ∧
        (Path.Named part → (tree.node? (stepTo place part)).isSome = true) ∧
        tree.walk (stepTo place part) rest = .ok final := by
  rw [walk, stepTo, ← needDirectory_ok, Path.Named]
  cases tree.needDirectory place with
  | error fault => simp [bind, Except.bind]
  | ok found =>
      cases Path.isIdle part with
      | true => simp [bind, Except.bind]
      | false =>
          cases part == Path.up with
          | true => simp [bind, Except.bind]
          | false =>
              simp only [bind, Except.bind, Bool.false_eq_true, if_false, Bool.or_false,
                true_and, forall_const]
              split
              case isTrue present => exact (and_iff_right present).symm
              case isFalse absent =>
                refine iff_of_false (fun failed => ?_) fun both => absent both.1
                cases failed

theorem Grows.walk (grown : tree.Grows later) {place final : Place} {parts : List (List Char)}
    (walked : tree.walk place parts = .ok final) : later.walk place parts = .ok final := by
  induction parts generalizing place with
  | nil => exact walked
  | cons part rest ih =>
      obtain ⟨directory, present, onward⟩ := walk_cons_ok.mp walked
      exact walk_cons_ok.mpr
        ⟨grown.directory _ directory, fun named => grown.present (present named), ih onward⟩

theorem Grows.locate (grown : tree.Grows later) {path : String} {place : Place}
    (located : tree.locate path = .ok place) : later.locate path = .ok place := by
  rw [FileTree.locate] at located ⊢
  split at located
  case isTrue => cases located
  case isFalse some =>
    rw [if_neg some, grown.start]
    exact grown.walk located

/-- A path that leads somewhere leads somewhere in every later tree. -/
theorem Grows.stays (grown : tree.Grows later) {path : String}
    (present : tree.exists? path = true) : later.exists? path = true := by
  rw [FileTree.exists?] at present ⊢
  cases located : tree.locate path with
  | error fault =>
      rw [located] at present
      cases present
  | ok place => rw [grown.locate located, Except.isOk, Except.toBool]

/-- Directories added at some places, and then at others. -/
theorem Extends.andThen {between : FileTree} {places more : List Place}
    (first : tree.Extends between places) (second : between.Extends later more) :
    tree.Extends later (places ++ more) :=
  (first.mono fun _ mem => List.mem_append_left _ mem).trans
    (second.mono fun _ mem => List.mem_append_right _ mem)

theorem makeDirectory_extends {place : Place} {steps : List (List Char)}
    (made : tree.makeDirectory place steps = .ok later) : ∃ places, tree.Extends later places := by
  rw [makeDirectory] at made
  cases slot : tree.slot? place steps with
  | error fault =>
      rw [slot] at made
      cases made
  | ok found =>
      rw [slot] at made
      cases found with
      | none => cases made
      | some free =>
          simp only [bind, Except.bind] at made
          split at made
          case isTrue => cases made
          case isFalse absent =>
            cases made
            have nothing := Option.not_isSome_iff_eq_none.mp absent
            exact ⟨[free], put_directory_extends nothing (List.mem_singleton_self free)⟩

/-- The directories on the way to one are made before it, so the induction is on the way. -/
theorem makeDirectories_adds {place : Place} {steps : List (List Char)}
    (made : tree.makeDirectories place steps = .ok later) :
    ∃ places, tree.Extends later places := by
  induction steps generalizing later with
  | nil =>
      cases made
      exact ⟨[], .refl tree []⟩
  | cons last before ih =>
      rw [makeDirectories] at made
      split at made
      · rename_i reached first
        cases made
        exact makeDirectory_extends first
      · cases below : tree.makeDirectories place before with
        | error fault =>
            rw [below] at made
            cases made
        | ok between =>
            rw [below] at made
            simp only [bind, Except.bind] at made
            obtain ⟨places, first⟩ := ih below
            split at made
            · rename_i reached second
              cases made
              obtain ⟨more, second⟩ := makeDirectory_extends second
              exact ⟨places ++ more, first.andThen second⟩
            · split at made
              · cases made
                exact ⟨places, first⟩
              · cases made
      · split at made
        · cases made
          exact ⟨[], .refl tree []⟩
        · cases made

/-- Making the directory of a path adds nothing but directories. -/
theorem makeParent_adds {path : String} (made : tree.makeParent path = .ok later) :
    ∃ places, tree.Extends later places :=
  makeDirectories_adds made

theorem makeParent_grows {path : String} (made : tree.makeParent path = .ok later) :
    tree.Grows later := by
  obtain ⟨places, extension⟩ := makeParent_adds made
  exact extension.grows

theorem grows_of_write {path : String} {contents : ByteArray}
    (wrote : tree.write path contents = .ok later) : tree.Grows later := by
  rw [write] at wrote
  split at wrote
  case isTrue => cases wrote
  case isFalse =>
    cases slot : tree.slot? (tree.start path) (Path.parts path.toList).reverse with
    | error fault =>
        rw [slot] at wrote
        cases wrote
    | ok found =>
        rw [slot] at wrote
        cases found with
        | none => cases wrote
        | some place =>
            simp only [bind, Except.bind] at wrote
            split at wrote
            · cases wrote
            · rename_i free
              cases wrote
              exact grows_put_file tree free contents

end Presence

end DocDrift.FileTree
