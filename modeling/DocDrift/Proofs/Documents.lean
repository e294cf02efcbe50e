import DocDrift.Config
import DocDrift.Proofs.FileTree.Presence
import DocDrift.Proofs.Path

/-!
Which tracked files have the same document. The document of a file is named by the path of the file
without its extension, so two files share one if they are the same but for their extensions, and
only then; nor do two documents lie at one place otherwise.
-/

set_option autoImplicit false

namespace DocDrift

/-! ### Extensions -/

namespace Path

/-- Two paths are the same up to what follows the last dots of their names. -/
def SameButExtension (path other : String) : Prop :=
  ∃ base left right, path.toList = base ++ '.' :: left ∧ other.toList = base ++ '.' :: right ∧
    ∀ c ∈ left ++ right, c ≠ '.' ∧ c ≠ '/'

/-- A path, part by part, whose name has an extension. -/
structure Extended (path : String) (before : List (List Char)) (stem extension : List Char) :
    Prop where
  split : parts path.toList = before ++ [stem ++ '.' :: extension]
  stem : stem ≠ []
  last : '.' ∉ extension

section Extended

variable {path other : String} {before before' : List (List Char)}
  {stem stem' extension extension' : List Char}

theorem Extended.splitName_eq (extended : Extended path before stem extension) :
    splitName (stem ++ '.' :: extension) = (stem, some extension) :=
  splitName_eq_some.mpr ⟨extended.stem, rfl, extended.last⟩

theorem Extended.toList_eq (extended : Extended path before stem extension) :
    path.toList = ofParts (before ++ [stem]) ++ '.' :: extension := by
  rw [← ofParts_concat, ← extended.split, ofParts_parts]

theorem Extended.clear (extended : Extended path before stem extension) :
    ∀ c ∈ extension, c ≠ '.' ∧ c ≠ '/' := by
  intro c mem
  refine ⟨?_, ?_⟩
  · rintro rfl
    exact extended.last mem
  · rintro rfl
    refine slash_not_mem_last extended.split ?_
    exact List.mem_append_right _ (List.mem_cons_of_mem _ mem)

/-- What stands before the last dot determines the parts before it. -/
theorem Extended.of_base {base tail : List Char} (extended : Extended path before stem extension)
    (whole : path.toList = base ++ '.' :: tail) (clear : ∀ c ∈ tail, c ≠ '.' ∧ c ≠ '/') :
    parts base = before ++ [stem] := by
  obtain ⟨above, last, split⟩ := parts_concat base
  have slashless : '/' ∉ '.' :: tail := by
    intro mem
    rcases List.mem_cons.mp mem with dot | mem
    · exact absurd dot (by decide)
    · exact (clear '/' mem).2 rfl
  have same := extended.split
  rw [whole, parts_append split slashless] at same
  obtain ⟨rfl, name⟩ := List.append_inj' same rfl
  have here := atLastDot?_append last fun mem => (clear '.' mem).1 rfl
  rw [(List.cons.inj name).1, atLastDot?_append stem extended.last] at here
  cases here
  exact split

theorem sameButExtension_iff (extended : Extended path before stem extension)
    (extended' : Extended other before' stem' extension') :
    SameButExtension path other ↔ before = before' ∧ stem = stem' := by
  constructor
  · rintro ⟨base, left, right, whole, whole', clear⟩
    have first := extended.of_base whole fun c mem => clear c (List.mem_append_left _ mem)
    have second := extended'.of_base whole' fun c mem => clear c (List.mem_append_right _ mem)
    rw [first] at second
    obtain ⟨same, last⟩ := List.append_inj' second rfl
    exact ⟨same, (List.cons.inj last).1⟩
  · rintro ⟨rfl, rfl⟩
    refine ⟨_, extension, extension', extended.toList_eq, extended'.toList_eq, ?_⟩
    intro c mem
    exact (List.mem_append.mp mem).elim (extended.clear c) (extended'.clear c)

end Extended

end Path

/-! ### Places -/

theorem FileTree.destination_named (place : Place) {parts : List (List Char)}
    (named : ∀ part ∈ parts, Path.Named part) :
    destination place parts = place ++ parts.map String.ofList := by
  induction parts generalizing place with
  | nil => rw [List.map_nil, List.append_nil]; rfl
  | cons part rest ih =>
      have later := ih (place ++ [String.ofList part]) fun other mem =>
        named other (List.mem_cons_of_mem _ mem)
      rw [destination, List.foldl_cons, stepTo_named (named part List.mem_cons_self),
        ← destination, later, List.map_cons, List.append_assoc, List.singleton_append]

/-! ### Documents -/

namespace Config

open DocDrift.Path (Plain Extended SameButExtension)

/-- The parts of the path of a document below the directory of documents. -/
def documentParts (before : List (List Char)) (stem : List Char) : List (List Char) :=
  before ++ [stem ++ ['.', 'm', 'd']]

section Documents

variable {config : Config} {path other : String} {before before' : List (List Char)}
  {stem stem' extension extension' : List Char}

theorem extended_of_tracks (plain : Plain path) (tracked : config.tracks path = true) :
    ∃ before stem extension, Extended path before stem extension := by
  obtain ⟨before, last, split⟩ := Path.parts_concat path.toList
  have named := plain last (split ▸ List.mem_append_right _ List.mem_cons_self)
  rw [tracks, plain.withoutHere_eq, Path.extension?_eq split named] at tracked
  split at tracked
  case isTrue => cases tracked
  case isFalse =>
    cases found : (Path.splitName last).2 with
    | none =>
        rw [found] at tracked
        cases tracked
    | some extension =>
        obtain ⟨some, name, clear⟩ := Path.splitName_eq_some.mp (Prod.ext rfl found)
        exact ⟨before, _, extension, name ▸ split, some, clear⟩

theorem parts_documentPath (config : Config) : ∃ above, ∀ path before stem extension,
    Plain path → Extended path before stem extension →
    Path.parts (config.documentPath path).toList = above ++ documentParts before stem := by
  obtain ⟨above, joined⟩ := Path.parts_join config.outputDirectory
  refine ⟨above, fun path before stem extension plain extended => ?_⟩
  have split := joined path plain.relative
  rw [extended.split, ← List.append_assoc] at split
  have named := plain _ (extended.split ▸ List.mem_append_right _ List.mem_cons_self)
  rw [documentPath, plain.withoutHere_eq, String.ofList_toList, String.toList_ofList,
    Path.parts_withExtension split named (by decide), extended.splitName_eq, List.append_assoc]
  rfl

theorem documentParts_ne_nil (before : List (List Char)) (stem : List Char) :
    documentParts before stem ≠ [] :=
  List.append_ne_nil_of_right_ne_nil _ (List.cons_ne_nil _ _)

theorem documentParts_inj :
    documentParts before stem = documentParts before' stem' ↔ before = before' ∧ stem = stem' := by
  constructor
  · intro same
    obtain ⟨front, last⟩ := List.append_inj' same rfl
    exact ⟨front, List.append_cancel_right (List.cons.inj last).1⟩
  · rintro ⟨rfl, rfl⟩
    rfl

/-- Two tracked files have the same document just if they are the same but for the extension. -/
theorem documentPath_eq_iff (plain : Plain path) (extended : Extended path before stem extension)
    (plain' : Plain other) (extended' : Extended other before' stem' extension') :
    config.documentPath path = config.documentPath other ↔ SameButExtension path other := by
  obtain ⟨above, split⟩ := parts_documentPath config
  have first := split path _ _ _ plain extended
  have second := split other _ _ _ plain' extended'
  rw [Path.sameButExtension_iff extended extended', ← documentParts_inj]
  constructor
  · intro same
    rw [same, second] at first
    exact (List.append_cancel_left first).symm
  · intro same
    rw [same, ← second] at first
    rw [← String.toList_inj, ← Path.ofParts_parts (config.documentPath path).toList, first,
      Path.ofParts_parts]

theorem documentParts_named (plain : Plain path)
    (extended : Extended path before stem extension) :
    ∀ part ∈ documentParts before stem, Path.Named part := by
  intro part mem
  rcases List.mem_append.mp mem with early | last
  · exact plain part (extended.split ▸ List.mem_append_left _ early)
  · rw [List.mem_singleton.mp last]
    refine Path.named_of_length ?_
    rw [List.length_append]
    exact Nat.lt_add_left _ (by decide)

/-- The documents lie below one place, each where its parts say. -/
theorem goal_document (config : Config) (root : String) (tree : FileTree) :
    ∃ place, ∀ path before stem extension, Plain path → Extended path before stem extension →
      tree.goal (Path.join root (config.documentPath path)) =
        place ++ (documentParts before stem).map String.ofList := by
  obtain ⟨above, split⟩ := parts_documentPath config
  obtain ⟨front, joined⟩ := Path.parts_join_above root above
  refine ⟨FileTree.destination (if front.head? == some [] then [] else tree.here) front, ?_⟩
  intro path before stem extension plain extended
  have named := documentParts_named plain extended
  obtain ⟨first, more, begins⟩ := List.exists_cons_of_ne_nil (documentParts_ne_nil before stem)
  have some : first ≠ [] :=
    (Path.named_iff.mp (named first (begins ▸ List.mem_cons_self))).1
  have whole := joined _ first more some (begins ▸ split path _ _ _ plain extended)
  rw [FileTree.goal, Path.steps, FileTree.destination_filter, whole, FileTree.destination_append,
    FileTree.start, Path.isAbsolute_of_above whole some, ← begins,
    FileTree.destination_named _ named]

/-- Nor do two documents lie at one place otherwise. -/
theorem goal_document_eq_iff (root : String) (tree : FileTree) (plain : Plain path)
    (extended : Extended path before stem extension) (plain' : Plain other)
    (extended' : Extended other before' stem' extension') :
    tree.goal (Path.join root (config.documentPath path)) =
        tree.goal (Path.join root (config.documentPath other)) ↔ SameButExtension path other := by
  obtain ⟨place, lies⟩ := goal_document config root tree
  rw [lies path _ _ _ plain extended, lies other _ _ _ plain' extended', List.append_right_inj,
    Path.sameButExtension_iff extended extended', ← documentParts_inj]
  exact List.map_inj_right fun _ _ same => String.ofList_inj.mp same

end Documents

end Config

end DocDrift
