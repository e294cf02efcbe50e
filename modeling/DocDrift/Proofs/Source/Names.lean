import DocDrift.Proofs.Scoring.Privacy
import DocDrift.Proofs.Source.Layout
import DocDrift.Proofs.Source.Slices
import DocDrift.Proofs.Source.Statements

/-!
The names in the summary of a source, and the texts that are made of names: the keys of types and
the symbols of members. Types, methods and functions are named by words, which hold none of the
characters that join names. The name of a property holds what stands between its mark and its word
as well.
-/

set_option autoImplicit false

namespace DocDrift

/-- The characters that names are joined by, and the white space of ASCII. -/
def reserved : List Char :=
  ['#', ':', '$', '\\', ' ', '\t', '\n', '\x0b', '\x0c', '\r']

def Unreserved (text : String) : Prop :=
  ∀ c ∈ reserved, c ∉ text.toList

/-- A name that can be joined to others and found again. -/
def Bare (name : String) : Prop :=
  name ≠ "" ∧ Unreserved name

instance (text : String) : Decidable (Unreserved text) :=
  List.decidableBAll (fun c => c ∉ text.toList) reserved

instance (name : String) : Decidable (Bare name) :=
  inferInstanceAs (Decidable (name ≠ "" ∧ Unreserved name))

/-- The name of a property stands in a text behind the mark of a variable: a word, with separators in
front of it. It is bare just if these hold nothing reserved. -/
structure NamesProperty (text name : String) : Prop where
  filled : name ≠ ""
  slice : ∃ gap word, name = gap ++ word.text ∧ Source.Stands text.toList gap word ∧
    (Bare name ↔ Unreserved gap)

/-- The names in the summary of a text. -/
structure Summary.NamesOf (text : String) (summary : Summary) : Prop where
  types : ∀ declared ∈ summary.types, Bare declared.name
  functions : ∀ function ∈ summary.functions, Bare function.name
  methods : ∀ declared ∈ summary.types, ∀ method ∈ declared.methods, Bare method.name
  properties : ∀ declared ∈ summary.types, ∀ property ∈ declared.properties,
    NamesProperty text property.name

/-- Keys and symbols tell what they were made of, among the declarations of some summaries. -/
structure NamesTell (types : List TypeDeclaration) (functions : List Member) : Prop where
  keys : ∀ declared ∈ types, ∀ other ∈ types,
    declared.key = other.key ↔ declared.identity = other.identity
  names : ∀ declared ∈ types, nameOfKey declared.key = declared.name
  symbols : ∀ declared ∈ types, ∀ other ∈ types, ∀ member member',
    memberSymbol declared.name member = memberSymbol other.name member' ↔
      declared.name = other.name ∧ member = member'
  members : ∀ declared ∈ types, ∀ member,
    (∀ other ∈ types, memberSymbol declared.name member ≠ other.name) ∧
      ∀ function ∈ functions, memberSymbol declared.name member ≠ function.name

namespace Source

/-! ### Words -/

theorem Word.filled (word : Word) : word.text ≠ "" := by
  intro empty
  have spelled := word.spelled
  rw [empty] at spelled
  cases spelled

theorem Word.bare (word : Word) : Bare word.text := by
  have foreign : reserved.all (fun c => !startsWord c && !continuesWord c) = true := by decide
  refine ⟨word.filled, fun c mem => word.lacks ?_⟩
  simpa using List.all_eq_true.mp foreign c mem

theorem PropertyName.filled (name : PropertyName) : name.text ≠ "" := by
  intro empty
  have parts : name.gap = "" ∧ name.word.text = "" := String.append_eq_empty_iff.mp empty
  exact name.word.filled parts.2

theorem PropertyName.bare_iff (name : PropertyName) : Bare name.text ↔ Unreserved name.gap := by
  constructor
  · rintro ⟨_, unreserved⟩ c mem inside
    apply unreserved c mem
    rw [PropertyName.text, String.toList_append]
    exact List.mem_append_left _ inside
  · intro unreserved
    refine ⟨name.filled, ?_⟩
    intro c mem inside
    rw [PropertyName.text, String.toList_append] at inside
    rcases List.mem_append.mp inside with gap | word
    · exact unreserved c mem gap
    · exact name.word.bare.2 c mem word

/-! ### Declarations -/

theorem declarations_stand {text : String} {items : List Item}
    (accepted : declarations text = .ok items) :
    ∀ item ∈ items, ∀ property ∈ item.properties,
      Stands text.toList property.name.gap property.name.word := by
  obtain ⟨tokens, finish, scanned, grounded⟩ := declarations_grounded accepted
  intro item mem property mem'
  obtain ⟨before, dollar, token, after, there, marked, gap, spelled⟩ :=
    grounded item mem property mem'
  rw [← gap]
  exact tokensOf_stands scanned there marked spelled

theorem summarize_names {text : String} {items : List Item}
    (stand : ∀ item ∈ items, ∀ property ∈ item.properties,
      Stands text.toList property.name.gap property.name.word) :
    (summarize items).NamesOf text where
  types declared mem := by
    obtain ⟨type, _, rfl⟩ := List.mem_map.mp mem
    exact type.name.bare
  functions function mem := by
    obtain ⟨callable, _, rfl⟩ := List.mem_map.mp mem
    exact callable.name.bare
  methods declared mem method mem' := by
    obtain ⟨type, _, rfl⟩ := List.mem_map.mp mem
    obtain ⟨callable, _, rfl⟩ := List.mem_map.mp mem'
    exact callable.name.bare
  properties declared mem property mem' := by
    obtain ⟨type, listed, rfl⟩ := List.mem_map.mp mem
    obtain ⟨item, inItems, inItem⟩ := List.mem_flatMap.mp listed
    obtain ⟨own, mine, rfl⟩ := List.mem_map.mp mem'
    have stands := stand item inItems own (List.mem_flatMap.mpr ⟨type, inItem, mine⟩)
    exact ⟨own.name.filled, own.name.gap, own.name.word, rfl, stands, own.name.bare_iff⟩

end Source

theorem Summary.ofSource_names {text : String} {summary : Summary}
    (accepted : Summary.ofSource text = .ok summary) : summary.NamesOf text := by
  obtain ⟨items, declared, rfl⟩ := Summary.ofSource_summarizes accepted
  exact Source.summarize_names (Source.declarations_stand declared)

/-! ### Joined names -/

theorem namesTell_of_bare {types : List TypeDeclaration} {functions : List Member}
    (bare : ∀ declared ∈ types, Bare declared.name)
    (bare' : ∀ function ∈ functions, Bare function.name) : NamesTell types functions where
  keys declared mem other mem' := by
    apply key_inj
    · exact (bare declared mem).2 '#' (by decide)
    · exact (bare other mem').2 '#' (by decide)
  names declared mem := nameOfKey_key ((bare declared mem).2 '#' (by decide))
  symbols declared mem other mem' member member' := by
    have plain := (bare declared mem).2 ':' (by decide)
    have plain' := (bare other mem').2 ':' (by decide)
    constructor
    · intro same
      have symbols : MemberIdentity.symbol ⟨declared.identity, .method, member⟩ =
          MemberIdentity.symbol ⟨other.identity, .method, member'⟩ := same
      exact namesakes_of_symbol plain plain' symbols
    · rintro ⟨owners, rfl⟩
      rw [owners]
  members declared _ member := by
    have colon : ':' ∈ (memberSymbol declared.name member).toList :=
      colon_mem_symbol ⟨declared.identity, .method, member⟩
    constructor
    · intro other mem same
      rw [same] at colon
      exact (bare other mem).2 ':' (by decide) colon
    · intro function mem same
      rw [same] at colon
      exact (bare' function mem).2 ':' (by decide) colon

/-- In accepted sources types, methods and functions have bare names, and so has a property just if
nothing reserved stands between its mark and its word. Keys and symbols tell the declarations of two
sources apart, whatever the members are called. -/
theorem names_of_sources {text other : String} {summary summary' : Summary}
    (accepted : Summary.ofSource text = .ok summary)
    (accepted' : Summary.ofSource other = .ok summary') :
    summary.NamesOf text ∧
      NamesTell (summary.types ++ summary'.types) (summary.functions ++ summary'.functions) := by
  have named := Summary.ofSource_names accepted
  have named' := Summary.ofSource_names accepted'
  refine ⟨named, namesTell_of_bare ?_ ?_⟩
  · exact List.forall_mem_append.mpr ⟨named.types, named'.types⟩
  · exact List.forall_mem_append.mpr ⟨named.functions, named'.functions⟩

def countingSource : String :=
  "class Counter \x7b private $count, $ total; public function add(int $step) \x7b\x7d \x7d"

/-- A class with two properties, one of them behind a blank, and a method. -/
def countingSummary : Summary :=
  { space := none
    imports := []
    types := [
      { kind := .ofClass
        name := "Counter"
        parent := none
        interfaces := []
        modifiers := ⟨false, false⟩
        methods := [⟨"add", .isPublic, "(int $step)", none⟩]
        properties := [⟨"count", .isPrivate, "", none⟩, ⟨" total", .isPrivate, "", none⟩]
        docblock := none }]
    functions := [] }

theorem names_of_countingSource :
    Summary.ofSource countingSource = .ok countingSummary ∧
      Summary.ofSource flatSource = .ok fooSummary ∧ countingSummary.NamesOf countingSource ∧
      NamesTell (countingSummary.types ++ fooSummary.types)
        (countingSummary.functions ++ fooSummary.functions) := by
  have accepted : Summary.ofSource countingSource = .ok countingSummary :=
    ok_of_toOption (by decide +kernel)
  have accepted' : Summary.ofSource flatSource = .ok fooSummary :=
    ok_of_toOption (by decide +kernel)
  exact ⟨accepted, accepted', names_of_sources accepted accepted'⟩

/-- A blank behind the mark of a variable gets into the name of a property. -/
theorem property_name_holds_blank :
    ∃ summary, Summary.ofSource "class A \x7b public $ x; \x7d" = .ok summary ∧
      ∃ declared ∈ summary.types, ∃ property ∈ declared.properties,
        property.name = " x" ∧ ¬Bare property.name := by
  let declared : TypeDeclaration :=
    { kind := .ofClass
      name := "A"
      parent := none
      interfaces := []
      modifiers := ⟨false, false⟩
      methods := []
      properties := [⟨" x", .isPublic, "", none⟩]
      docblock := none }
  refine ⟨⟨none, [], [declared], []⟩, ok_of_toOption (by decide +kernel), declared, ?_, ?_⟩
  · exact List.mem_singleton_self declared
  · exact ⟨_, List.mem_singleton_self _, rfl, by decide +kernel⟩

end DocDrift
