import DocDrift.Change.Encoding
import DocDrift.Proofs.Json.Holding
import DocDrift.Proofs.Store.Rereading

/-!
The JSON of changes, part by part: the values of a form are the encodings of the values that fit it,
and each is decoded as the value that was encoded. Counts have to be small enough to be kept exactly
and changes by name have to be in the order of the names, in which a change is made.
-/

set_option autoImplicit false

namespace DocDrift

/-! ### Faithful encodings -/

namespace Json

/-- An encoding whose results, for the values that fit, are the values of a form, and which a
decoding undoes. -/
structure Faithful {α : Type} (schema : Schema) (encode : α → Json) (read : Json → Option α)
    (fits : α → Prop) : Prop where
  holds : ∀ {value : α}, fits value → schema.Holds (encode value)
  only : ∀ {json : Json}, schema.Holds json → ∃ value, fits value ∧ json = encode value
  decodes : ∀ value : α, read (encode value) = some value

namespace Faithful

variable {α : Type} {schema : Schema} {encode : α → Json} {read : Json → Option α} {fits : α → Prop}

theorem boolean : Faithful .boolean Json.bool Json.bool? (fun _ => True) where
  holds _ := ⟨_, rfl⟩
  only := fun ⟨value, same⟩ => ⟨value, trivial, same⟩
  decodes _ := rfl

theorem text : Faithful .text Json.text Json.text? (fun _ => True) where
  holds _ := ⟨_, rfl⟩
  only := fun ⟨value, same⟩ => ⟨value, trivial, same⟩
  decodes _ := rfl

theorem count : Faithful .count Json.ofNat Json.nat? (· ≤ Read.greatestWhole) where
  holds := by
    intro value small
    exact ⟨value, ⟨Int.natCast_nonneg value, Int.ofNat_le.mpr small⟩, rfl⟩
  only := by
    rintro json ⟨value, within, rfl⟩
    have exact : Schema.count.exact = true := rfl
    obtain ⟨count, small, rfl⟩ := Schema.count_of_exact exact within
    exact ⟨count, small, rfl⟩
  decodes value := by
    change (if (0 : Int) ≤ value then some (value : Int).toNat else none) = some value
    rw [if_pos (Int.natCast_nonneg value), Int.toNat_natCast]

/-- Words from a list are faithful if no two values have the same one. -/
theorem word {all : List α} {label : α → String}
    (known : ∀ value, Json.word? all label (.text (label value)) = some value) :
    Faithful (.choice (all.map label)) (fun value => .text (label value)) (Json.word? all label)
      (fun _ => True) where
  holds := by
    intro value _
    have among := List.mem_of_find?_eq_some (known value)
    exact ⟨label value, List.mem_map_of_mem among, rfl⟩
  only := by
    rintro json ⟨word, listed, rfl⟩
    obtain ⟨value, _among, rfl⟩ := List.mem_map.mp listed
    exact ⟨value, trivial, rfl⟩
  decodes := known

theorem option (codes : Faithful schema encode read (fun _ => True))
    (present : ∀ value, encode value ≠ .null) :
    Faithful (.optional schema) (Json.ofOption encode) (Json.optional? read) (fun _ => True) where
  holds := by
    rintro (_ | value) _
    · exact .inl rfl
    · exact .inr (codes.holds trivial)
  only := by
    rintro json (rfl | held)
    · exact ⟨none, trivial, rfl⟩
    · obtain ⟨value, _, rfl⟩ := codes.only held
      exact ⟨some value, trivial, rfl⟩
  decodes := by
    rintro (_ | value)
    · rfl
    · rw [ofOption, optional?]
      · rw [codes.decodes]
        rfl
      · exact present value

theorem texts : Faithful (.list .text) Json.ofTexts (Json.each? Json.text?) (fun _ => True) where
  holds := by
    intro words _
    refine ⟨words.map .text, fun item mem => ?_, rfl⟩
    obtain ⟨word, _among, rfl⟩ := List.mem_map.mp mem
    exact ⟨word, rfl⟩
  only := by
    rintro json ⟨items, each, rfl⟩
    induction items with
    | nil => exact ⟨[], trivial, rfl⟩
    | cons item items ih =>
        obtain ⟨⟨word, rfl⟩, others⟩ := List.forall_mem_cons.mp each
        obtain ⟨words, _, same⟩ := ih others
        refine ⟨word :: words, trivial, ?_⟩
        rw [Json.list.inj same]
        rfl
  decodes _ := each?_map (fun _ _ => rfl)

/-- Values by name in the order of the names are faithful if the values are. -/
theorem nameMap (codes : Faithful schema encode read fits) :
    Faithful (.map schema) (Json.ofNameMap encode) (Json.nameMap? read)
      (fun map => map.Ascending ∧ ∀ entry ∈ map, fits entry.2) where
  holds := by
    rintro map ⟨ascending, each⟩
    refine ⟨map.map fun entry => (entry.1, encode entry.2), ?_, fun entry mem => ?_, rfl⟩
    · exact List.pairwise_map.mpr ascending
    · obtain ⟨before, among, rfl⟩ := List.mem_map.mp mem
      exact codes.holds (each before among)
  only := by
    rintro json ⟨entries, ascending, each, rfl⟩
    induction entries with
    | nil => exact ⟨[], ⟨.nil, List.forall_mem_nil _⟩, rfl⟩
    | cons entry entries ih =>
        obtain ⟨later, rising⟩ := List.pairwise_cons.mp ascending
        obtain ⟨held, others⟩ := List.forall_mem_cons.mp each
        obtain ⟨map, ⟨sorted, fit⟩, same⟩ := ih rising others
        obtain ⟨value, first, encoded⟩ := codes.only held
        obtain rfl := Json.object.inj same
        refine ⟨(entry.1, value) :: map, ⟨List.pairwise_cons.mpr ⟨fun other mem => ?_, sorted⟩,
          List.forall_mem_cons.mpr ⟨first, fit⟩⟩, ?_⟩
        · exact later (other.1, encode other.2) (List.mem_map.mpr ⟨other, mem, rfl⟩)
        · rw [ofNameMap, List.map_cons, ← encoded]
  decodes map := by
    change (map.map fun entry => (entry.1, encode entry.2)).mapM
      (fun entry => (read entry.2).map (entry.1, ·)) = some map
    induction map with
    | nil => rfl
    | cons entry map ih =>
        rw [List.map_cons, List.mapM_cons, ih, codes.decodes]
        rfl

/-- The first field of a record is the encoding of a value. -/
theorem field (codes : Faithful schema encode read fits) {name : String} {fallback : Option Json}
    {fields : List (String × Schema × Option Json)} {entries : List (String × Json)}
    (each : Schema.FieldsHold ((name, schema, fallback) :: fields) entries) :
    ∃ value more, entries = (name, encode value) :: more ∧ fits value ∧
      Schema.FieldsHold fields more := by
  obtain ⟨json, more, held, others, rfl⟩ := each
  obtain ⟨value, fit, rfl⟩ := codes.only held
  exact ⟨value, more, rfl, fit, others⟩

/-- The encoding of a value is the first field of a record. -/
theorem fieldsHold (codes : Faithful schema encode read fits) {name : String}
    {fallback : Option Json} {fields : List (String × Schema × Option Json)} {value : α}
    (fit : fits value) {more : List (String × Json)} (others : Schema.FieldsHold fields more) :
    Schema.FieldsHold ((name, schema, fallback) :: fields) ((name, encode value) :: more) :=
  ⟨encode value, more, codes.holds fit, others, rfl⟩

end Faithful

end Json

open Json (Faithful)

/-! ### Words -/

theorem Visibility.faithful : Faithful schema toJson ofJson? (fun _ => True) :=
  .word (fun visibility => by cases visibility <;> decide)

theorem TypeKind.faithful : Faithful schema toJson ofJson? (fun _ => True) :=
  .word (fun kind => by cases kind <;> decide)

theorem Severity.faithful : Faithful schema toJson ofJson? (fun _ => True) :=
  .word (fun severity => by cases severity <;> decide)

/-! ### Records -/

namespace ChangeCounts

/-- Counts that are kept exactly. -/
def Bounded (counts : ChangeCounts) : Prop :=
  counts.total ≤ Json.Read.greatestWhole ∧ counts.additions ≤ Json.Read.greatestWhole ∧
    counts.deletions ≤ Json.Read.greatestWhole ∧ counts.modifications ≤ Json.Read.greatestWhole

instance (counts : ChangeCounts) : Decidable counts.Bounded :=
  inferInstanceAs (Decidable (_ ∧ _ ∧ _ ∧ _))

theorem faithful : Faithful schema toJson ofJson? Bounded where
  holds := by
    rintro counts ⟨total, additions, deletions, modifications⟩
    refine ⟨_, ?_, rfl⟩
    exact Faithful.count.fieldsHold total (Faithful.count.fieldsHold additions
      (Faithful.count.fieldsHold deletions (Faithful.count.fieldsHold modifications rfl)))
  only := by
    rintro json ⟨_, each, rfl⟩
    obtain ⟨total, _, rfl, fewTotal, each⟩ := Faithful.count.field each
    obtain ⟨additions, _, rfl, fewAdditions, each⟩ := Faithful.count.field each
    obtain ⟨deletions, _, rfl, fewDeletions, each⟩ := Faithful.count.field each
    obtain ⟨modifications, _, rfl, fewModifications, each⟩ := Faithful.count.field each
    obtain rfl := each
    exact ⟨⟨total, additions, deletions, modifications⟩,
      ⟨fewTotal, fewAdditions, fewDeletions, fewModifications⟩, rfl⟩
  decodes counts := by
    simp [ofJson?, toJson, Json.at?, Json.field?, Faithful.count.decodes]

end ChangeCounts

namespace TextChange

/-- A change whose counts are kept exactly. -/
def Bounded (change : TextChange) : Prop :=
  change.counts.Bounded

instance (change : TextChange) : Decidable change.Bounded :=
  inferInstanceAs (Decidable change.counts.Bounded)

theorem faithful : Faithful schema toJson ofJson? Bounded where
  holds := by
    intro change bounded
    refine ⟨_, ?_, rfl⟩
    exact Faithful.boolean.fieldsHold trivial (Faithful.boolean.fieldsHold trivial
      (Faithful.boolean.fieldsHold trivial (Faithful.boolean.fieldsHold trivial
        (ChangeCounts.faithful.fieldsHold bounded rfl))))
  only := by
    rintro json ⟨_, each, rfl⟩
    obtain ⟨layoutOnly, _, rfl, _, each⟩ := Faithful.boolean.field each
    obtain ⟨commentsOnly, _, rfl, _, each⟩ := Faithful.boolean.field each
    obtain ⟨structural, _, rfl, _, each⟩ := Faithful.boolean.field each
    obtain ⟨semantic, _, rfl, _, each⟩ := Faithful.boolean.field each
    obtain ⟨counts, _, rfl, bounded, each⟩ := ChangeCounts.faithful.field each
    obtain rfl := each
    exact ⟨⟨layoutOnly, commentsOnly, structural, semantic, counts⟩, bounded, rfl⟩
  decodes change := by
    simp [ofJson?, toJson, Json.at?, Json.field?, Faithful.boolean.decodes,
      ChangeCounts.faithful.decodes]

end TextChange

namespace TypeModifiers

theorem faithful : Faithful schema toJson ofJson? (fun _ => True) where
  holds := fun _ =>
    ⟨_, Faithful.boolean.fieldsHold trivial (Faithful.boolean.fieldsHold trivial rfl), rfl⟩
  only := by
    rintro json ⟨_, each, rfl⟩
    obtain ⟨isAbstract, _, rfl, _, each⟩ := Faithful.boolean.field each
    obtain ⟨isFinal, _, rfl, _, each⟩ := Faithful.boolean.field each
    obtain rfl := each
    exact ⟨⟨isAbstract, isFinal⟩, trivial, rfl⟩
  decodes modifiers := by
    simp [ofJson?, toJson, Json.at?, Json.field?, Faithful.boolean.decodes]

end TypeModifiers

namespace ValueChange

variable {α : Type} {inner : Schema} {encode : α → Json} {read : Json → Option α}

theorem faithful (codes : Faithful inner encode read (fun _ => True)) :
    Faithful (schema inner) (toJson encode) (ofJson? read) (fun _ => True) where
  holds := fun _ => ⟨_, codes.fieldsHold trivial (codes.fieldsHold trivial rfl), rfl⟩
  only := by
    rintro json ⟨_, each, rfl⟩
    obtain ⟨old, _, rfl, _, each⟩ := codes.field each
    obtain ⟨new, _, rfl, _, each⟩ := codes.field each
    obtain rfl := each
    exact ⟨⟨old, new⟩, trivial, rfl⟩
  decodes change := by
    simp [ofJson?, toJson, Json.at?, Json.field?, codes.decodes]

theorem faithful_option (codes : Faithful inner encode read (fun _ => True)) :
    Faithful (.optional (schema inner)) (.ofOption (toJson encode))
      (Json.optional? (ofJson? read)) (fun _ => True) :=
  (faithful codes).option (fun _ => nofun)

end ValueChange

namespace ListChange

theorem faithful : Faithful schema toJson ofJson? (fun _ => True) where
  holds := fun _ =>
    ⟨_, Faithful.texts.fieldsHold trivial (Faithful.texts.fieldsHold trivial rfl), rfl⟩
  only := by
    rintro json ⟨_, each, rfl⟩
    obtain ⟨added, _, rfl, _, each⟩ := Faithful.texts.field each
    obtain ⟨removed, _, rfl, _, each⟩ := Faithful.texts.field each
    obtain rfl := each
    exact ⟨⟨added, removed⟩, trivial, rfl⟩
  decodes changes := by
    simp [ofJson?, toJson, Json.at?, Json.field?, Faithful.texts.decodes]

end ListChange

namespace ChangeSet

variable {μ : Type} {inner : Schema} {encode : μ → Json} {read : Json → Option μ} {fits : μ → Prop}

/-- Changes by name in the order of the names, each of which fits. -/
def Sorted (fits : μ → Prop) (changes : ChangeSet μ) : Prop :=
  changes.modified.Ascending ∧ ∀ entry ∈ changes.modified, fits entry.2

instance [DecidablePred fits] (changes : ChangeSet μ) : Decidable (changes.Sorted fits) :=
  inferInstanceAs
    (Decidable (changes.modified.Ascending ∧ ∀ entry ∈ changes.modified, fits entry.2))

theorem faithful (codes : Faithful inner encode read fits) :
    Faithful (schema inner) (toJson encode) (ofJson? read) (Sorted fits) where
  holds := by
    intro changes sorted
    refine ⟨_, ?_, rfl⟩
    exact Faithful.texts.fieldsHold trivial (Faithful.texts.fieldsHold trivial
      (codes.nameMap.fieldsHold sorted rfl))
  only := by
    rintro json ⟨_, each, rfl⟩
    obtain ⟨added, _, rfl, _, each⟩ := Faithful.texts.field each
    obtain ⟨removed, _, rfl, _, each⟩ := Faithful.texts.field each
    obtain ⟨modified, _, rfl, sorted, each⟩ := codes.nameMap.field each
    obtain rfl := each
    exact ⟨⟨added, removed, modified⟩, sorted, rfl⟩
  decodes changes := by
    simp [ofJson?, toJson, Json.at?, Json.field?, Faithful.texts.decodes, codes.nameMap.decodes]

end ChangeSet

namespace MemberDelta

theorem faithful : Faithful schema toJson ofJson? (fun _ => True) where
  holds := by
    intro delta _
    refine ⟨_, ?_, rfl⟩
    exact (ValueChange.faithful_option .text).fieldsHold trivial
      ((ValueChange.faithful_option Visibility.faithful).fieldsHold trivial rfl)
  only := by
    rintro json ⟨_, each, rfl⟩
    obtain ⟨signature, _, rfl, _, each⟩ := (ValueChange.faithful_option .text).field each
    obtain ⟨visibility, _, rfl, _, each⟩ :=
      (ValueChange.faithful_option Visibility.faithful).field each
    obtain rfl := each
    exact ⟨⟨signature, visibility⟩, trivial, rfl⟩
  decodes delta := by
    simp [ofJson?, toJson, Json.at?, Json.field?, (ValueChange.faithful_option .text).decodes,
      (ValueChange.faithful_option Visibility.faithful).decodes]

theorem faithful_set :
    Faithful (ChangeSet.schema schema) (ChangeSet.toJson toJson) (ChangeSet.ofJson? ofJson?)
      (ChangeSet.Sorted (fun _ => True)) :=
  ChangeSet.faithful faithful

end MemberDelta

/-- A name that may be there or not. -/
theorem Json.Faithful.textOption :
    Faithful (.optional .text) (Json.ofOption .text) (Json.optional? Json.text?) (fun _ => True) :=
  .option .text (fun _ => nofun)

namespace TypeDelta

/-- Changes of members in the order of their names. -/
def Sorted (delta : TypeDelta) : Prop :=
  delta.methods.Sorted (fun _ => True) ∧ delta.properties.Sorted (fun _ => True)

instance : DecidablePred Sorted :=
  fun _ => inferInstanceAs (Decidable (_ ∧ _))

theorem faithful : Faithful schema toJson ofJson? Sorted where
  holds := by
    rintro delta ⟨methods, properties⟩
    refine ⟨_, ?_, rfl⟩
    exact TypeKind.faithful.fieldsHold trivial
      ((ValueChange.faithful_option .textOption).fieldsHold trivial
        (ListChange.faithful.fieldsHold trivial
          ((ValueChange.faithful_option TypeModifiers.faithful).fieldsHold trivial
            (MemberDelta.faithful_set.fieldsHold methods
              (MemberDelta.faithful_set.fieldsHold properties rfl)))))
  only := by
    rintro json ⟨_, each, rfl⟩
    obtain ⟨kind, _, rfl, _, each⟩ := TypeKind.faithful.field each
    obtain ⟨parent, _, rfl, _, each⟩ := (ValueChange.faithful_option .textOption).field each
    obtain ⟨interfaces, _, rfl, _, each⟩ := ListChange.faithful.field each
    obtain ⟨modifiers, _, rfl, _, each⟩ :=
      (ValueChange.faithful_option TypeModifiers.faithful).field each
    obtain ⟨methods, _, rfl, sortedMethods, each⟩ := MemberDelta.faithful_set.field each
    obtain ⟨properties, _, rfl, sortedProperties, each⟩ := MemberDelta.faithful_set.field each
    obtain rfl := each
    exact ⟨⟨kind, parent, interfaces, modifiers, methods, properties⟩,
      ⟨sortedMethods, sortedProperties⟩, rfl⟩
  decodes delta := by
    simp [ofJson?, toJson, Json.at?, Json.field?, TypeKind.faithful.decodes,
      (ValueChange.faithful_option .textOption).decodes, ListChange.faithful.decodes,
      (ValueChange.faithful_option TypeModifiers.faithful).decodes,
      MemberDelta.faithful_set.decodes]

theorem faithful_set :
    Faithful (ChangeSet.schema schema) (ChangeSet.toJson toJson) (ChangeSet.ofJson? ofJson?)
      (ChangeSet.Sorted Sorted) :=
  ChangeSet.faithful faithful

end TypeDelta

namespace Delta

/-- Changes by name in the order of the names, those inside of types as well. -/
def Sorted (delta : Delta) : Prop :=
  delta.types.Sorted TypeDelta.Sorted ∧ delta.interfaces.Sorted TypeDelta.Sorted ∧
    delta.functions.Sorted (fun _ => True) ∧ delta.imports.Sorted (fun _ => True)

instance (delta : Delta) : Decidable delta.Sorted :=
  inferInstanceAs (Decidable (_ ∧ _ ∧ _ ∧ _))

theorem imports_faithful :
    Faithful (ChangeSet.schema (ValueChange.schema (.optional .text)))
      (ChangeSet.toJson (ValueChange.toJson (.ofOption .text)))
      (ChangeSet.ofJson? (ValueChange.ofJson? (Json.optional? Json.text?)))
      (ChangeSet.Sorted (fun _ => True)) :=
  ChangeSet.faithful (ValueChange.faithful .textOption)

theorem faithful : Faithful schema toJson ofJson? Sorted where
  holds := by
    rintro delta ⟨types, interfaces, functions, imports⟩
    refine ⟨_, ?_, rfl⟩
    exact Faithful.boolean.fieldsHold trivial
      (TypeDelta.faithful_set.fieldsHold types (TypeDelta.faithful_set.fieldsHold interfaces
        (MemberDelta.faithful_set.fieldsHold functions (imports_faithful.fieldsHold imports
          (Severity.faithful.fieldsHold trivial rfl)))))
  only := by
    rintro json ⟨_, each, rfl⟩
    obtain ⟨spaceChanged, _, rfl, _, each⟩ := Faithful.boolean.field each
    obtain ⟨types, _, rfl, sortedTypes, each⟩ := TypeDelta.faithful_set.field each
    obtain ⟨interfaces, _, rfl, sortedInterfaces, each⟩ := TypeDelta.faithful_set.field each
    obtain ⟨functions, _, rfl, sortedFunctions, each⟩ := MemberDelta.faithful_set.field each
    obtain ⟨imports, _, rfl, sortedImports, each⟩ := imports_faithful.field each
    obtain ⟨severity, _, rfl, _, each⟩ := Severity.faithful.field each
    obtain rfl := each
    exact ⟨⟨spaceChanged, types, interfaces, functions, imports, severity⟩,
      ⟨sortedTypes, sortedInterfaces, sortedFunctions, sortedImports⟩, rfl⟩
  decodes delta := by
    simp [ofJson?, toJson, Json.at?, Json.field?, Faithful.boolean.decodes,
      TypeDelta.faithful_set.decodes, MemberDelta.faithful_set.decodes, imports_faithful.decodes,
      Severity.faithful.decodes]

end Delta

/-! ### Changes that are made -/

theorem ChangeSet.sorted_between {α μ : Type} {key : α → String} {differ : α → α → Option μ}
    {fits : μ → Prop} (each : ∀ {old new change}, differ old new = some change → fits change)
    (old new : List α) : (ChangeSet.between key differ old new).Sorted fits := by
  refine ⟨NameMap.ascending_ofList _, fun entry mem => ?_⟩
  obtain ⟨item, _among, made⟩ := List.mem_filterMap.mp (NameMap.mem_of_mem_ofList mem)
  obtain ⟨other, _found, made⟩ := Option.bind_eq_some_iff.mp made
  obtain ⟨change, changed, made⟩ := Option.bind_eq_some_iff.mp made
  obtain rfl := Option.some.inj made
  exact each changed

theorem TypeDelta.sorted_of_differ {old new : TypeDeclaration} {change : TypeDelta}
    (changed : TypeDeclaration.differ old new = some change) : change.Sorted := by
  unfold TypeDeclaration.differ at changed
  dsimp only at changed
  split at changed
  case isTrue =>
    obtain rfl := Option.some.inj changed
    exact ⟨ChangeSet.sorted_between (fun _ => trivial) _ _,
      ChangeSet.sorted_between (fun _ => trivial) _ _⟩
  case isFalse => cases changed

/-- The change between two summaries has its parts in order. -/
theorem Delta.sorted_between (old new : Summary) : (Delta.between old new).Sorted :=
  ⟨ChangeSet.sorted_between TypeDelta.sorted_of_differ _ _,
    ChangeSet.sorted_between TypeDelta.sorted_of_differ _ _,
    ChangeSet.sorted_between (fun _ => trivial) _ _,
    ChangeSet.sorted_between (fun _ => trivial) _ _⟩

end DocDrift
