import DocDrift.Analysis
import DocDrift.Proofs.Change.Hierarchy
import DocDrift.Proofs.Change.Severity
import DocDrift.Proofs.Scoring.Rules
import DocDrift.Proofs.Source.Layout

/-!
Changes that are made of two texts do not contradict themselves. The flags of a textual change are
set only where hunks are counted, and layout excludes all others; the severity of a structural change
is the one that its sets imply, and an interface that came or went is among the types that did. So an
analysis is always scored.
-/

set_option autoImplicit false

namespace DocDrift

/-! ### Textual changes -/

theorem ChangeCounts.total_withHunk (counts : ChangeCounts) (hunks : List Hunk) :
    (hunks.foldl withHunk counts).total = counts.total + hunks.length := by
  induction hunks generalizing counts with
  | nil => rfl
  | cons hunk rest ih =>
      rw [List.foldl_cons, ih, List.length_cons]
      dsimp only [withHunk]
      omega

theorem ChangeCounts.total_ofHunks (hunks : List Hunk) : (ofHunks hunks).total = hunks.length := by
  rw [ofHunks, total_withHunk, none, Nat.zero_add]

theorem TextChange.validate_ofHunks (old new : List Char) (hunks : List Hunk) :
    (ofHunks old new hunks).validate = .ok () := by
  cases hunks with
  | nil => rfl
  | cons hunk rest =>
      have counted : ((ChangeCounts.ofHunks (hunk :: rest)).total == 0) = false := by
        rw [ChangeCounts.total_ofHunks]
        rfl
      have some : (hunk :: rest).isEmpty = false := rfl
      unfold ofHunks
      dsimp only
      rw [some, if_neg Bool.false_ne_true]
      split
      case isTrue layout => simp [validate, counted]
      case isFalse content => simp [validate, counted]

theorem TextChange.validate_between (old new : String) : (between old new).validate = .ok () :=
  validate_ofHunks _ _ _

/-! ### Structural changes -/

section Lacking

variable {α : Type} {key : α → String}

/-- The names of the declarations in one list whose keys another list does not have. -/
theorem mem_lacking {items source : List α} {name : String} :
    name ∈ ((firstByKey key items).filter
        (fun item => !(firstByKey key source).any (fun other => key other == key item))).map
        (fun item => nameOfKey (key item)) ↔
      ∃ item ∈ items, (∀ other ∈ source, key other ≠ key item) ∧ nameOfKey (key item) = name := by
  simp only [List.mem_map, List.mem_filter, Bool.not_eq_true', ← Bool.not_eq_true, any_firstByKey,
    not_not, firstWith_none, and_assoc]
  exact exists_firstByKey
    (P := fun wanted => (∀ other ∈ source, key other ≠ wanted) ∧ nameOfKey wanted = name)

end Lacking

theorem mem_interfaces {summary : Summary} {declared : TypeDeclaration} :
    declared ∈ summary.interfaces ↔ declared ∈ summary.types ∧ declared.kind = .ofInterface := by
  rw [Summary.interfaces, List.mem_filter, beq_iff_eq]

/-- An interface whose key is missing among the interfaces of a summary is missing among its types,
for a name has no mark that would make it the key of another kind of type. -/
theorem missing_interface {source : Summary} {declared : TypeDeclaration}
    (unmarked : Unmarked source.types) (plain : '#' ∉ declared.name.toList)
    (isInterface : declared.kind = .ofInterface)
    (missing : ∀ other ∈ source.interfaces, other.key ≠ declared.key) :
    ∀ other ∈ source.types, other.key ≠ declared.key := by
  intro other mem same
  have identical := (key_inj (unmarked other mem) plain).mp same
  have kind : other.kind = .ofInterface := (congrArg Prod.snd identical).trans isInterface
  exact missing other (mem_interfaces.mpr ⟨mem, kind⟩) same

/-- Interfaces that one summary has and another has not are among the types of which that holds. -/
theorem lacking_interfaces {items source : Summary} {name : String}
    (unmarked : Unmarked items.types) (unmarked' : Unmarked source.types)
    (lacking : ∃ item ∈ items.interfaces, (∀ other ∈ source.interfaces, other.key ≠ item.key) ∧
      nameOfKey item.key = name) :
    ∃ item ∈ items.types, (∀ other ∈ source.types, other.key ≠ item.key) ∧
      nameOfKey item.key = name := by
  obtain ⟨item, mem, missing, named⟩ := lacking
  obtain ⟨there, isInterface⟩ := mem_interfaces.mp mem
  exact ⟨item, there, missing_interface unmarked' (unmarked item there) isInterface missing, named⟩

namespace Delta

theorem validate_iff (delta : Delta) : delta.validate = .ok () ↔
    delta.severity = delta.impliedSeverity ∧
      ∀ name ∈ delta.interfaces.added ++ delta.interfaces.removed,
        name ∈ delta.types.added ∨ name ∈ delta.types.removed := by
  unfold validate
  split
  case isTrue wrong => exact ⟨nofun, fun valid => absurd valid.1 wrong⟩
  case isFalse right =>
    rw [not_not] at right
    dsimp only
    split
    case h_1 name found =>
      have unlisted := List.find?_some found
      have mem := List.mem_of_find?_eq_some found
      refine ⟨nofun, ?_⟩
      rintro ⟨_severity, listed⟩
      simp only [Bool.not_eq_true', Bool.or_eq_false_iff, List.contains_eq_mem,
        decide_eq_false_iff_not] at unlisted
      rcases listed name mem with added | removed
      · exact absurd added unlisted.1
      · exact absurd removed unlisted.2
    case h_2 none =>
      refine ⟨fun _ => ⟨right, ?_⟩, fun _ => rfl⟩
      intro name mem
      have listed := List.find?_eq_none.mp none name mem
      simpa [or_iff_not_imp_left] using listed

theorem validate_empty : empty.validate = .ok () := rfl

/-- The change between two summaries does not contradict itself. -/
theorem validate_between {old new : Summary} (unmarked : Unmarked old.types)
    (unmarked' : Unmarked new.types) : (between old new).validate = .ok () := by
  rw [validate_iff]
  refine ⟨rfl, ?_⟩
  intro name mem
  rcases List.mem_append.mp mem with came | went
  · left
    exact mem_lacking.mpr (lacking_interfaces unmarked' unmarked (mem_lacking.mp came))
  · right
    exact mem_lacking.mpr (lacking_interfaces unmarked unmarked' (mem_lacking.mp went))

end Delta

/-! ### What is scored -/

namespace Significance

variable (policy : Policy) (change : TextChange) (delta : Delta) (context : SymbolContext)

/-- A change that is scored has a reason about its score, which one that cannot be has not. -/
theorem of_ne_unscored (fault : InputFault) : of policy change delta context ≠ unscored fault := by
  obtain ⟨text, reason⟩ := Rule.threshold_reason policy
    (scoreOf (pointsOf policy change delta context).1)
  have kept : "score " ++ text ∈ (of policy change delta context).recommendation.reasons := by
    rw [of, Rule.applyAll_reasons, ← reason]
    exact List.mem_append_right _ List.mem_cons_self
  intro same
  rw [same] at kept
  have equal : "score " ++ text = "cannot score: " ++ fault.report := List.mem_singleton.mp kept
  have chars := congrArg String.toList equal
  rw [String.toList_append, String.toList_append] at chars
  cases chars

variable {change delta}

theorem ofValid_eq (valid : change.validate = .ok ()) (valid' : delta.validate = .ok ()) :
    ofValid policy change delta context = of policy change delta context := by
  rw [ofValid, valid, valid']

end Significance

namespace Analysis

/-- Whatever is known of the structure of two texts does not contradict itself. -/
theorem validate_deltaBetween (old new : String) : (deltaBetween old new).validate = .ok () := by
  unfold deltaBetween
  split
  case h_1 before after accepted accepted' =>
    exact Delta.validate_between (Summary.ofSource_unmarked accepted)
      (Summary.ofSource_unmarked accepted')
  case h_2 => exact Delta.validate_empty

/-- Two texts are always scored, whatever is known of the symbols. -/
theorem ofValid_between (policy : Policy) (old new : String) (context : SymbolContext) :
    Significance.ofValid policy (TextChange.between old new) (deltaBetween old new) context =
      Significance.of policy (TextChange.between old new) (deltaBetween old new) context :=
  Significance.ofValid_eq policy context (TextChange.validate_between old new)
    (validate_deltaBetween old new)

end Analysis

end DocDrift
