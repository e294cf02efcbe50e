import DocDrift.Proofs.Json.Rereading
import DocDrift.Proofs.Tables

/-!
Values that already have the form asked for. Such a value is accepted as it is; a record is brought into
the order of its form, whatever the order of its entries was.
-/

set_option autoImplicit false

namespace DocDrift.Schema

/-- A value that a form accepts and leaves as it is. -/
def Keeps (schema : Schema) (json : Json) : Prop :=
  schema.check json = some json

theorem keeps_integer {low high : Int} (name : String) {value : Int}
    (within : low ≤ value ∧ value ≤ high) : Keeps (.integer low high name) (.whole value) := by
  rw [Keeps, check, if_pos within]

theorem keeps_real (value : Float) : Keeps .real (.real value) := by
  rw [Keeps, check]

theorem keeps_text (value : String) : Keeps .text (.text value) := by
  rw [Keeps, check]

theorem keeps_choice {words : List String} {word : String} (mem : word ∈ words) :
    Keeps (.choice words) (.text word) := by
  rw [Keeps, check, if_pos (List.contains_iff_mem.mpr mem)]

theorem keeps_list {inner : Schema} {items : List Json} (each : ∀ item ∈ items, inner.Keeps item) :
    Keeps (.list inner) (.list items) := by
  have same : items.mapM inner.check = some (items.map id) := mapM_eq_some_map each
  rw [Keeps, check, same, List.map_id]
  rfl

theorem keeps_texts (items : List String) : Keeps (.list .text) (.ofTexts items) := by
  apply keeps_list
  intro item mem
  obtain ⟨word, _, rfl⟩ := List.mem_map.mp mem
  exact keeps_text word

/-! ### Records -/

/-- A field of a record with what is found there and what becomes of it. -/
structure Part where
  name : String
  given : Json
  kept : Json

theorem checkFields_eq {fields : List (String × Schema × Option Json)}
    {entry : String → Option Json} {parts : List Part}
    (each : List.Forall₂ (fun field part =>
      field.1 = part.name ∧ field.2.1.check part.given = some part.kept) fields parts)
    (found : ∀ part ∈ parts, entry part.name = some part.given) :
    checkFields fields entry = some (parts.map fun part => (part.name, part.kept)) := by
  induction each with
  | nil => rw [checkFields, List.map_nil]
  | @cons field part fields parts accepted behind ih =>
      obtain ⟨name, schema, fallback⟩ := field
      obtain ⟨rfl, checked⟩ := accepted
      rw [checkFields, found part List.mem_cons_self]
      dsimp only
      rw [checked, ih fun other mem => found other (List.mem_cons_of_mem part mem)]
      rfl

theorem check_record (form : String) {fields : List (String × Schema × Option Json)}
    (entries : List (String × Json)) (parts : List Part) (distinct : (entries.map Prod.fst).Nodup)
    (each : List.Forall₂ (fun field part =>
      field.1 = part.name ∧ field.2.1.check part.given = some part.kept) fields parts)
    (there : ∀ part ∈ parts, (part.name, part.given) ∈ entries) :
    check (.record form fields) (.object entries) =
      some (.object (parts.map fun part => (part.name, part.kept))) := by
  rw [check, checkFields_eq each]
  · rfl
  · intro part mem
    have reversed : (entries.reverse.map Prod.fst).Nodup := by
      rw [List.map_reverse]
      exact List.nodup_reverse.mpr distinct
    have first := Json.find?_of_nodup reversed (List.mem_reverse.mpr (there part mem))
    rw [first]
    rfl

/-- The fields of a record that keep their values. -/
abbrev FieldsKeep (fields : List (String × Schema × Option Json)) (entries : List (String × Json)) :
    Prop :=
  List.Forall₂ (fun field entry => field.1 = entry.1 ∧ field.2.1.Keeps entry.2) fields entries

theorem fieldsKeep_map {α β : Type} {schema : Schema} {standard : List (String × β)}
    (fallback : β → Option Json) (encode : α → Json) {fields : List (String × α)}
    (names : standard.map Prod.fst = fields.map Prod.fst)
    (keeps : ∀ field ∈ fields, schema.Keeps (encode field.2)) :
    FieldsKeep (standard.map fun field => (field.1, schema, fallback field.2))
      (fields.map fun field => (field.1, encode field.2)) := by
  induction fields generalizing standard with
  | nil =>
      obtain rfl := List.map_eq_nil_iff.mp names
      exact .nil
  | cons field fields ih =>
      cases standard with
      | nil => cases names
      | cons first standard =>
          obtain ⟨name, others⟩ := List.cons.inj names
          exact .cons ⟨name, keeps field List.mem_cons_self⟩
            (ih others fun other mem => keeps other (List.mem_cons_of_mem field mem))

/-- A record in any order is brought into the order of its form. -/
theorem check_of_perm (form : String) {fields : List (String × Schema × Option Json)}
    {entries written : List (String × Json)} (distinct : (written.map Prod.fst).Nodup)
    (keeps : FieldsKeep fields written) (perm : entries.Perm written) :
    check (.record form fields) (.object entries) = some (.object written) := by
  have each : List.Forall₂ (fun field part =>
      field.1 = part.name ∧ field.2.1.check part.given = some part.kept) fields
      (written.map fun entry => Part.mk entry.1 entry.2 entry.2) :=
    List.forall₂_map_right_iff.mpr keeps
  have checked := check_record form entries _ ((perm.map Prod.fst).nodup_iff.mpr distinct) each ?_
  · rw [checked, List.map_map]
    exact congrArg (fun same => some (Json.object same)) (List.map_id written)
  · intro part mem
    obtain ⟨entry, there, rfl⟩ := List.mem_map.mp mem
    exact perm.mem_iff.mpr there

theorem keeps_record (form : String) {fields : List (String × Schema × Option Json)}
    {entries : List (String × Json)} (distinct : (entries.map Prod.fst).Nodup)
    (keeps : FieldsKeep fields entries) : Keeps (.record form fields) (.object entries) :=
  check_of_perm form distinct keeps (List.Perm.refl entries)

end DocDrift.Schema
