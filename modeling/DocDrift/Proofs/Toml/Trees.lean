import DocDrift.Toml.Document
import Mathlib.Data.List.Nodup

/-!
What documents describe. Statements that open a new table and set values in it, one under each key,
add that table with these values to what is described; statements that open tables of a list add the
list of these.
-/

set_option autoImplicit false

namespace DocDrift.Toml

/-! ### Entries -/

namespace Entries

def keys (entries : Entries) : List String :=
  entries.map Prod.fst

theorem find?_of_not_mem {entries : Entries} {key : String} (fresh : key ∉ entries.keys) :
    entries.find? key = none := by
  have none : List.find? (fun entry => entry.1 == key) entries = none := by
    apply List.find?_eq_none.mpr
    intro entry mem same
    apply fresh
    rw [← beq_iff_eq.mp same]
    exact List.mem_map_of_mem mem
  rw [find?, none]
  rfl

theorem find?_last {before : Entries} {key : String} (fresh : key ∉ before.keys) (tree : Tree) :
    find? (before ++ [(key, tree)]) key = some tree := by
  have none := find?_of_not_mem fresh
  rw [find?, Option.map_eq_none_iff] at none
  rw [find?, List.find?_append, none]
  simp

theorem set_of_not_mem {entries : Entries} {key : String} (fresh : key ∉ entries.keys)
    (tree : Tree) : entries.set key tree = entries ++ [(key, tree)] := by
  induction entries with
  | nil => rfl
  | cons entry rest ih =>
      simp only [keys, List.map_cons, List.mem_cons, not_or] at fresh
      rw [set, if_neg (by simpa using Ne.symm fresh.1), ih fresh.2]
      rfl

theorem set_last {before : Entries} {key : String} (fresh : key ∉ before.keys)
    (old new : Tree) : set key new (before ++ [(key, old)]) = before ++ [(key, new)] := by
  induction before with
  | nil => simp [set]
  | cons entry rest ih =>
      simp only [keys, List.map_cons, List.mem_cons, not_or] at fresh
      rw [List.cons_append, set, if_neg (by simpa using Ne.symm fresh.1), ih fresh.2]
      rfl

end Entries

/-! ### Tables on a path -/

/-- What is described with the table at the end of a path still open. -/
structure Reaches (path : KeyPath) (around : Entries → Entries) : Prop where
  changeAt : ∀ (change : Origin → Entries → Option Entries) (inner : Entries),
    changeAt false change path .opened (around inner) = (change .opened inner).map around

/-- A table behind others. -/
def besideTable (before : Entries) (key : String) (inner : Entries) : Entries :=
  before ++ [(key, .table .opened inner)]

/-- The last table of a list behind other entries. -/
def besideElements (before : Entries) (key : String) (tables : List Entries) (inner : Entries) :
    Entries :=
  before ++ [(key, .elements (tables ++ [inner]))]

theorem Reaches.table {before : Entries} {key : String} (fresh : key ∉ before.keys) :
    Reaches [key] (besideTable before key) where
  changeAt change inner := by
    rw [Toml.changeAt, besideTable, Entries.find?_last fresh]
    simp only [Bool.false_and, Bool.false_eq_true, if_false]
    rw [Toml.changeAt]
    cases change .opened inner with
    | none => rfl
    | some changed => simp [Entries.set_last fresh, besideTable]

theorem Reaches.elements {before : Entries} {key : String} (fresh : key ∉ before.keys)
    (tables : List Entries) : Reaches [key] (besideElements before key tables) where
  changeAt change inner := by
    rw [Toml.changeAt, besideElements, Entries.find?_last fresh]
    simp only [List.getLast?_concat, Option.getD_some, List.dropLast_concat]
    rw [Toml.changeAt]
    cases change .opened inner with
    | none => rfl
    | some changed => simp [Entries.set_last fresh, besideElements]

/-- A path is followed in two parts. -/
theorem changeAt_append (dots : Bool) (change : Origin → Entries → Option Entries)
    (path more : KeyPath) (origin : Origin) (entries : Entries) :
    changeAt dots change (path ++ more) origin entries =
      changeAt dots (changeAt dots change more) path origin entries := by
  induction path generalizing origin entries with
  | nil => rfl
  | cons key path ih => simp only [List.cons_append, changeAt, ih]

theorem Reaches.append {path more : KeyPath} {around within : Entries → Entries}
    (outer : Reaches path around) (inner : Reaches more within) :
    Reaches (path ++ more) (around ∘ within) where
  changeAt change entries := by
    rw [changeAt_append, Function.comp_apply, outer.changeAt, inner.changeAt, Option.map_map]

/-! ### Values of a table -/

/-- Values under keys. -/
def leaves (fields : List (String × Json)) : Entries :=
  fields.map fun field => (field.1, .value field.2)

theorem keys_leaves (fields : List (String × Json)) :
    (leaves fields).keys = fields.map Prod.fst := by
  simp [leaves, Entries.keys]

/-- Statements that set values, one under each key. -/
inductive Sets : Document → List (String × Json) → Prop
  | none : Sets [] []
  | entry {key : String} {value : Value} {json : Json} {document : Document}
      {fields : List (String × Json)} (means : value.toJson? = some json)
      (behind : Sets document fields) :
      Sets (.entry [key] value :: document) ((key, json) :: fields)

theorem Sets.append {first second : Document} {fields more : List (String × Json)}
    (front : Sets first fields) (back : Sets second more) :
    Sets (first ++ second) (fields ++ more) := by
  induction front with
  | none => exact back
  | entry means behind ih => exact .entry means ih

theorem Sets.map {α : Type} {items : List α} {key : α → String} {value : α → Value}
    {json : α → Json} (means : ∀ item ∈ items, (value item).toJson? = some (json item)) :
    Sets (items.map fun item => .entry [key item] (value item))
      (items.map fun item => (key item, json item)) := by
  induction items with
  | nil => exact .none
  | cons item items ih =>
      apply Sets.entry (means item List.mem_cons_self)
      exact ih (fun other mem => means other (List.mem_cons_of_mem item mem))

theorem setValue_fresh {inner : Entries} {key : String} (fresh : key ∉ inner.keys) (json : Json) :
    setValue [key] json .opened inner = some (inner ++ [(key, .value json)]) := by
  simp [setValue, KeyPath.split, changeAt, Entries.find?_of_not_mem fresh,
    Entries.set_of_not_mem fresh]

/-- The values that are set stand behind those that the open table has. -/
theorem Sets.follow {document : Document} {fields : List (String × Json)}
    (sets : Sets document fields) {path : KeyPath} {around : Entries → Entries}
    (reaches : Reaches path around) (inner : Entries)
    (distinct : (inner.keys ++ fields.map Prod.fst).Nodup) (rest : Document) :
    Document.follow path (around inner) (document ++ rest) =
      Document.follow path (around (inner ++ leaves fields)) rest := by
  induction sets generalizing inner with
  | none => simp [leaves]
  | @entry key value json document fields means behind ih =>
      have fresh : key ∉ inner.keys := by
        intro mem
        exact (List.nodup_append.mp distinct).2.2 key mem key (by simp) rfl
      have later : ((inner ++ [(key, Tree.value json)]).keys ++ fields.map Prod.fst).Nodup := by
        simpa [Entries.keys] using distinct
      rw [List.cons_append, Document.follow, means]
      simp only [Option.bind_eq_bind, Option.bind_some]
      rw [reaches.changeAt, setValue_fresh fresh]
      simp only [Option.map_some, Option.bind_some]
      rw [ih _ later]
      simp [leaves]

/-! ### Tables -/

theorem openTable_fresh {entries : Entries} {key : String} (fresh : key ∉ entries.keys) :
    openTable [key] entries = some (besideTable entries key []) := by
  simp [openTable, KeyPath.split, changeAt, Entries.find?_of_not_mem fresh,
    Entries.set_of_not_mem fresh, besideTable]

theorem follow_table {document : Document} {fields : List (String × Json)}
    (sets : Sets document fields) (distinct : (fields.map Prod.fst).Nodup) {entries : Entries}
    {key : String} (fresh : key ∉ entries.keys) (opened : KeyPath) (rest : Document) :
    Document.follow opened entries (.table [key] :: document ++ rest) =
      Document.follow [key] (besideTable entries key (leaves fields)) rest := by
  rw [List.cons_append, Document.follow, openTable_fresh fresh]
  simp only [Option.bind_eq_bind, Option.bind_some]
  exact sets.follow (Reaches.table fresh) [] distinct rest

/-! ### Lists of tables -/

/-- The entry of a list of tables, which is there only if some table is. -/
def elementsEntry (key : String) (tables : List (List (String × Json))) : Entries :=
  if tables.isEmpty then [] else [(key, .elements (tables.map leaves))]

theorem openElement_first {path : KeyPath} {around : Entries → Entries}
    (reaches : Reaches path around) {inner : Entries} {key : String} (fresh : key ∉ inner.keys) :
    openElement (path ++ [key]) (around inner) = some (around (besideElements inner key [] [])) := by
  simp [openElement, KeyPath.split, reaches.changeAt, Entries.find?_of_not_mem fresh,
    Entries.set_of_not_mem fresh, besideElements]

theorem openElement_next {path : KeyPath} {around : Entries → Entries}
    (reaches : Reaches path around) {inner : Entries} {key : String} (fresh : key ∉ inner.keys)
    (tables : List Entries) :
    openElement (path ++ [key]) (around (inner ++ [(key, .elements tables)])) =
      some (around (besideElements inner key tables [])) := by
  simp [openElement, KeyPath.split, reaches.changeAt, Entries.find?_last fresh,
    Entries.set_last fresh, besideElements]

section Elements

variable {α : Type} {path : KeyPath} {around : Entries → Entries} {inner : Entries} {key : String}
  {table : α → Document} {fields : α → List (String × Json)} {items : List α}

/-- More tables of a list that has some. -/
theorem follow_moreElements (reaches : Reaches path around) (fresh : key ∉ inner.keys)
    (sets : ∀ item ∈ items, Sets (table item) (fields item))
    (distinct : ∀ item ∈ items, ((fields item).map Prod.fst).Nodup) (tables : List Entries)
    (opened : KeyPath) (rest : Document) :
    ∃ last, Document.follow opened (around (inner ++ [(key, .elements tables)]))
        (items.flatMap (fun item => .element (path ++ [key]) :: table item) ++ rest) =
      Document.follow last
        (around (inner ++ [(key, .elements (tables ++ items.map (leaves ∘ fields)))])) rest := by
  induction items generalizing tables opened with
  | nil => exact ⟨opened, by simp⟩
  | cons item items ih =>
      have within := reaches.append (Reaches.elements fresh tables)
      have values := (sets item List.mem_cons_self).follow within []
        (distinct item List.mem_cons_self)
        (items.flatMap (fun item => .element (path ++ [key]) :: table item) ++ rest)
      obtain ⟨last, others⟩ := ih (fun other mem => sets other (List.mem_cons_of_mem item mem))
        (fun other mem => distinct other (List.mem_cons_of_mem item mem))
        (tables ++ [leaves (fields item)]) (path ++ [key])
      refine ⟨last, ?_⟩
      rw [List.flatMap_cons, List.cons_append, List.cons_append, Document.follow,
        openElement_next reaches fresh tables]
      simp only [Option.bind_eq_bind, Option.bind_some, List.append_assoc]
      apply values.trans
      simpa [besideElements] using others

/-- A list of tables is added, if there are any; what is open behind it depends on that. -/
theorem follow_elements (reaches : Reaches path around) (fresh : items ≠ [] → key ∉ inner.keys)
    (sets : ∀ item ∈ items, Sets (table item) (fields item))
    (distinct : ∀ item ∈ items, ((fields item).map Prod.fst).Nodup) (opened : KeyPath)
    (rest : Document) :
    ∃ last, Document.follow opened (around inner)
        (items.flatMap (fun item => .element (path ++ [key]) :: table item) ++ rest) =
      Document.follow last (around (inner ++ elementsEntry key (items.map fields))) rest := by
  cases items with
  | nil => exact ⟨opened, by simp [elementsEntry]⟩
  | cons item items =>
      have fresh := fresh (List.cons_ne_nil item items)
      have within := reaches.append (Reaches.elements fresh [])
      have values := (sets item List.mem_cons_self).follow within []
        (distinct item List.mem_cons_self)
        (items.flatMap (fun item => .element (path ++ [key]) :: table item) ++ rest)
      obtain ⟨last, others⟩ := follow_moreElements reaches fresh
        (fun other mem => sets other (List.mem_cons_of_mem item mem))
        (fun other mem => distinct other (List.mem_cons_of_mem item mem))
        [leaves (fields item)] (path ++ [key]) rest
      refine ⟨last, ?_⟩
      rw [List.flatMap_cons, List.cons_append, List.cons_append, Document.follow,
        openElement_first reaches fresh]
      simp only [Option.bind_eq_bind, Option.bind_some, List.append_assoc]
      apply values.trans
      simpa [besideElements, elementsEntry] using others

end Elements

/-! ### Values of trees -/

theorem entriesToJson_append (first second : Entries) :
    entriesToJson (first ++ second) = entriesToJson first ++ entriesToJson second := by
  induction first with
  | nil => rfl
  | cons entry first ih => simp [entriesToJson, ih]

theorem entriesToJson_leaves (fields : List (String × Json)) :
    entriesToJson (leaves fields) = fields := by
  induction fields with
  | nil => rfl
  | cons field fields ih =>
      change (field.1, _) :: entriesToJson (leaves fields) = _
      rw [ih, Tree.toJson]

theorem tablesToJson_leaves (tables : List (List (String × Json))) :
    tablesToJson (tables.map leaves) = tables.map .object := by
  induction tables with
  | nil => rfl
  | cons fields tables ih => simp [tablesToJson, entriesToJson_leaves, ih]

theorem entriesToJson_elementsEntry (key : String) (tables : List (List (String × Json))) :
    entriesToJson (elementsEntry key tables) =
      if tables.isEmpty then [] else [(key, .list (tables.map .object))] := by
  unfold elementsEntry
  split
  · rfl
  · rw [entriesToJson, Tree.toJson, tablesToJson_leaves, entriesToJson]

end DocDrift.Toml
