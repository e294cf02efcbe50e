import DocDrift.FileTree
import DocDrift.Proofs.Tables
import Mathlib.Data.List.Induction

/-!
The places that a path leads through. Which places these are is a matter of the path alone; whether
a walk along them succeeds depends on what the tree has there. In a well-formed tree, where
everything lies in a directory, a walk succeeds exactly if it passes through directories to
something that is there.
-/

set_option autoImplicit false

namespace DocDrift.FileTree

/-! ### Routes -/

def stepTo (place : Place) (part : List Char) : Place :=
  if Path.isIdle part then place
  else if part == Path.up then place.dropLast
  else place ++ [String.ofList part]

/-- The places to which parts lead one after another. -/
def visits (place : Place) : List (List Char) → List Place
  | [] => []
  | part :: rest => stepTo place part :: visits (stepTo place part) rest

/-- The place to which parts lead in the end. -/
def destination (place : Place) (parts : List (List Char)) : Place :=
  parts.foldl stepTo place

/-- The places that a path leads through, from where it begins. -/
def route (tree : FileTree) (path : String) : List Place :=
  visits (tree.start path) (Path.steps path)

def goal (tree : FileTree) (path : String) : Place :=
  destination (tree.start path) (Path.steps path)

theorem visits_append (place : Place) (parts more : List (List Char)) :
    visits place (parts ++ more) = visits place parts ++ visits (destination place parts) more := by
  induction parts generalizing place with
  | nil => rfl
  | cons part rest ih =>
      rw [List.cons_append, visits, visits, ih, List.cons_append]
      rfl

theorem destination_append (place : Place) (parts more : List (List Char)) :
    destination place (parts ++ more) = destination (destination place parts) more := by
  rw [destination, List.foldl_append]
  rfl

theorem destination_mem_visits (place : Place) {parts : List (List Char)} (some : parts ≠ []) :
    destination place parts ∈ visits place parts := by
  obtain ⟨before, last, rfl⟩ := List.eq_nil_or_concat parts |>.resolve_left some
  rw [List.concat_eq_append, visits_append, destination_append]
  exact List.mem_append_right _ List.mem_cons_self

/-- Parts that lead nowhere add nothing to a route but where it stands. -/
theorem visits_filter (place : Place) (parts : List (List Char)) {visited : Place}
    (mem : visited ∈ visits place parts) :
    visited = place ∨ visited ∈ visits place (parts.filter (fun part => !Path.isIdle part)) := by
  induction parts generalizing place with
  | nil => cases mem
  | cons part rest ih =>
      rw [visits] at mem
      cases idle : Path.isIdle part with
      | true =>
          have stays : stepTo place part = place := if_pos idle
          rw [stays] at mem
          rw [List.filter_cons_of_neg (by simp [idle])]
          rcases List.mem_cons.mp mem with same | later
          · exact .inl same
          · exact ih place later
      | false =>
          rw [List.filter_cons_of_pos (by simp [idle]), visits]
          rcases List.mem_cons.mp mem with same | later
          · exact .inr (List.mem_cons.mpr (.inl same))
          · rcases ih _ later with same | further
            · exact .inr (List.mem_cons.mpr (.inl same))
            · exact .inr (List.mem_cons_of_mem _ further)

theorem destination_filter (place : Place) (parts : List (List Char)) :
    destination place (parts.filter (fun part => !Path.isIdle part)) =
      destination place parts := by
  induction parts generalizing place with
  | nil => rfl
  | cons part rest ih =>
      cases idle : Path.isIdle part with
      | true =>
          have stays : stepTo place part = place := if_pos idle
          rw [List.filter_cons_of_neg (by simp [idle]), ih]
          change _ = destination (stepTo place part) rest
          rw [stays]
      | false =>
          rw [List.filter_cons_of_pos (by simp [idle])]
          exact ih _

/-! ### Directories -/

def HasDirectory (tree : FileTree) (place : Place) : Prop :=
  tree.node? place = some .directory

/-- A tree has something at a place that is no directory. -/
def HasFile (tree : FileTree) (place : Place) : Prop :=
  ∃ node, tree.node? place = some node ∧ node ≠ .directory

theorem not_hasFile_of_hasDirectory {tree : FileTree} {place : Place}
    (directory : tree.HasDirectory place) : ¬tree.HasFile place := by
  rintro ⟨node, present, different⟩
  rw [HasDirectory, present] at directory
  exact different (Option.some.inj directory)

theorem node?_cases (tree : FileTree) (place : Place) :
    tree.node? place = none ∨ tree.HasDirectory place ∨ tree.HasFile place := by
  cases present : tree.node? place with
  | none => exact .inl rfl
  | some node =>
      cases node with
      | directory => exact .inr (.inl present)
      | file contents => exact .inr (.inr ⟨_, present, Node.noConfusion⟩)
      | store store => exact .inr (.inr ⟨_, present, Node.noConfusion⟩)

theorem needDirectory_ok {tree : FileTree} {place : Place} :
    tree.needDirectory place = .ok () ↔ tree.HasDirectory place := by
  unfold needDirectory HasDirectory
  cases tree.node? place with
  | none => exact ⟨nofun, nofun⟩
  | some node =>
      cases node with
      | directory => exact ⟨fun _ => rfl, fun _ => rfl⟩
      | file contents => exact ⟨nofun, nofun⟩
      | store store => exact ⟨nofun, nofun⟩

theorem needDirectory_error {tree : FileTree} {place : Place} {fault : FileFault}
    (failed : tree.needDirectory place = .error fault) :
    fault = .notFound ∨ fault = .notDirectory ∧ tree.HasFile place := by
  unfold needDirectory at failed
  cases present : tree.node? place with
  | none =>
      rw [present] at failed
      cases failed
      exact .inl rfl
  | some node =>
      rw [present] at failed
      cases node with
      | directory => cases failed
      | file contents =>
          cases failed
          exact .inr ⟨rfl, _, present, Node.noConfusion⟩
      | store store =>
          cases failed
          exact .inr ⟨rfl, _, present, Node.noConfusion⟩

/-- A tree in which everything lies in a directory, and which has its current directory. -/
structure WellFormed (tree : FileTree) : Prop where
  here : tree.HasDirectory tree.here
  above : ∀ place node, tree.node? place = some node → tree.HasDirectory place.dropLast

theorem wellFormed_withHere (name : String) : (withHere name).WellFormed := by
  refine ⟨?_, ?_⟩
  · simp [HasDirectory, withHere, node?, Keyed.find?]
  · intro place node present
    by_cases top : place = []
    · rw [top]
      rfl
    · by_cases same : place = [name]
      · rw [same]
        rfl
      · simp [withHere, node?, Keyed.find?, top, Ne.symm same] at present

theorem WellFormed.start {tree : FileTree} (formed : tree.WellFormed) (path : String) :
    tree.HasDirectory (tree.start path) := by
  unfold FileTree.start
  split
  · rfl
  · exact formed.here

/-- Whatever lies above something is a directory. -/
theorem WellFormed.ancestor {tree : FileTree} (formed : tree.WellFormed) {place above : Place}
    {node : Node} (present : tree.node? place = some node) (lies : above <+: place)
    (different : above ≠ place) : tree.HasDirectory above := by
  obtain ⟨rest, rfl⟩ := lies
  induction rest using List.reverseRecOn generalizing node with
  | nil => exact absurd (List.append_nil above).symm different
  | append_singleton rest last ih =>
      have parent := formed.above _ node present
      rw [← List.append_assoc, List.dropLast_concat] at parent
      cases rest with
      | nil => rwa [List.append_nil] at parent
      | cons next more =>
          refine ih parent (fun same => ?_)
          have lengths := congrArg List.length same
          rw [List.length_append, List.length_cons] at lengths
          omega

/-! ### Walks -/

theorem walk_cons_error {tree : FileTree} {place : Place} {part : List Char}
    {rest : List (List Char)} {fault : FileFault}
    (needed : tree.needDirectory place = .error fault) :
    tree.walk place (part :: rest) = .error fault := by
  rw [walk, needed]
  rfl

theorem walk_cons {tree : FileTree} (formed : tree.WellFormed) {place : Place}
    (directory : tree.HasDirectory place) (part : List Char) (rest : List (List Char)) :
    tree.walk place (part :: rest) =
      if (tree.node? (stepTo place part)).isSome then tree.walk (stepTo place part) rest
      else .error .notFound := by
  have opened : tree.walk place (part :: rest) =
      if Path.isIdle part then tree.walk place rest
      else if part == Path.up then tree.walk place.dropLast rest
      else if (tree.node? (place ++ [String.ofList part])).isSome then
        tree.walk (place ++ [String.ofList part]) rest
      else .error .notFound := by
    rw [walk, needDirectory_ok.mpr directory]
    rfl
  rw [opened, stepTo]
  cases Path.isIdle part with
  | true =>
      have present : (tree.node? place).isSome := by rw [directory, Option.isSome_some]
      rw [if_pos rfl, if_pos rfl, if_pos present]
  | false =>
      cases part == Path.up with
      | true =>
          have present : (tree.node? place.dropLast).isSome := by
            rw [formed.above place _ directory, Option.isSome_some]
          simp only [Bool.false_eq_true, if_false, if_true, present]
      | false => simp only [Bool.false_eq_true, if_false]

/-- Parts lead from directory to directory to something that is there. -/
def Passable (tree : FileTree) (place : Place) : List (List Char) → Prop
  | [] => True
  | part :: rest =>
      tree.HasDirectory place ∧ (tree.node? (stepTo place part)).isSome ∧
        Passable tree (stepTo place part) rest

theorem walk_of_passable {tree : FileTree} (formed : tree.WellFormed) {place : Place}
    {parts : List (List Char)} (passable : tree.Passable place parts) :
    tree.walk place parts = .ok (destination place parts) := by
  induction parts generalizing place with
  | nil => rfl
  | cons part rest ih =>
      obtain ⟨directory, present, onward⟩ := passable
      rw [walk_cons formed directory, if_pos present]
      exact ih onward

theorem passable_of_walk {tree : FileTree} (formed : tree.WellFormed) {place final : Place}
    {parts : List (List Char)} (walked : tree.walk place parts = .ok final) :
    tree.Passable place parts ∧ final = destination place parts := by
  induction parts generalizing place with
  | nil =>
      cases walked
      exact ⟨trivial, rfl⟩
  | cons part rest ih =>
      cases needed : tree.needDirectory place with
      | error fault =>
          rw [walk_cons_error needed] at walked
          cases walked
      | ok _ =>
          have directory := needDirectory_ok.mp needed
          rw [walk_cons formed directory] at walked
          split at walked
          case isTrue present =>
            obtain ⟨onward, same⟩ := ih walked
            exact ⟨⟨directory, present, onward⟩, same⟩
          case isFalse absent => cases walked

/-- A walk that fails has come to something that is not there, or to a file in its way. -/
theorem walk_error {tree : FileTree} (formed : tree.WellFormed) {place : Place}
    {parts : List (List Char)} {fault : FileFault}
    (failed : tree.walk place parts = .error fault) :
    fault = .notFound ∨
      fault = .notDirectory ∧ (tree.HasFile place ∨ ∃ visited ∈ visits place parts,
        tree.HasFile visited) := by
  induction parts generalizing place with
  | nil => cases failed
  | cons part rest ih =>
      cases needed : tree.needDirectory place with
      | error other =>
          rw [walk_cons_error needed] at failed
          cases failed
          rcases needDirectory_error needed with missing | ⟨same, file⟩
          · exact .inl missing
          · exact .inr ⟨same, .inl file⟩
      | ok _ =>
          rw [walk_cons formed (needDirectory_ok.mp needed)] at failed
          split at failed
          case isTrue present =>
            rcases ih failed with missing | ⟨same, file | ⟨visited, mem, file⟩⟩
            · exact .inl missing
            · exact .inr ⟨same, .inr ⟨_, List.mem_cons_self, file⟩⟩
            · exact .inr ⟨same, .inr ⟨visited, List.mem_cons_of_mem _ mem, file⟩⟩
          case isFalse absent =>
            cases failed
            exact .inl rfl

/-- What is passed on a walk is there, and all of it but the last is a directory. -/
theorem Passable.visited {tree : FileTree} {place : Place} {parts : List (List Char)}
    (passable : tree.Passable place parts) {visited : Place} (mem : visited ∈ visits place parts) :
    (tree.node? visited).isSome ∧
      (tree.HasDirectory visited ∨ visited = destination place parts) := by
  induction parts generalizing place with
  | nil => cases mem
  | cons part rest ih =>
      obtain ⟨directory, present, onward⟩ := passable
      rcases List.mem_cons.mp mem with rfl | later
      · refine ⟨present, ?_⟩
        cases rest with
        | nil => exact .inr rfl
        | cons next more => exact .inl onward.1
      · exact ih onward later

/-- Parts can be passed if everything that they lead through is a directory, but for the last. -/
theorem passable_of_directories {tree : FileTree} {place : Place} {parts : List (List Char)}
    (directory : tree.HasDirectory place)
    (directories : ∀ visited ∈ visits place parts, tree.HasDirectory visited) :
    tree.Passable place parts := by
  induction parts generalizing place with
  | nil => trivial
  | cons part rest ih =>
      have next := directories _ List.mem_cons_self
      refine ⟨directory, ?_, ?_⟩
      · rw [next, Option.isSome_some]
      · exact ih next (fun visited mem => directories visited (List.mem_cons_of_mem _ mem))

end DocDrift.FileTree
