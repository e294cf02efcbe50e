import DocDrift.Proofs.Json.Forms

/-!
The values of a form. A reader of a form gives nothing else; and where the form is exact, without
numbers that round and without values that are written like what is not there, each of its values is
read again from its own text.
-/

set_option autoImplicit false

namespace DocDrift

/-! ### The values of a form -/

namespace Schema

mutual

def Holds : Schema → Json → Prop
  | .boolean, json => ∃ value, json = .bool value
  | .integer low high _, json => ∃ value : Int, (low ≤ value ∧ value ≤ high) ∧ json = .whole value
  | .real, json => ∃ value, json = .real value
  | .text, json => ∃ value, json = .text value
  | .optional inner, json => json = .null ∨ Holds inner json
  | .list inner, json => ∃ items, (∀ item ∈ items, Holds inner item) ∧ json = .list items
  | .map inner, json =>
      ∃ entries, NameMap.Ascending entries ∧ (∀ entry ∈ entries, Holds inner entry.2) ∧
        json = .object entries
  | .choice words, json => ∃ word ∈ words, json = .text word
  | .record _ fields, json => ∃ entries, FieldsHold fields entries ∧ json = .object entries

/-- The fields of a record of a form, all of them in order. -/
def FieldsHold : List (String × Schema × Option Json) → List (String × Json) → Prop
  | [], entries => entries = []
  | (name, schema, _) :: fields, entries =>
      ∃ value more, Holds schema value ∧ FieldsHold fields more ∧ entries = (name, value) :: more

end

/-- Whether a value of a form may be written as nothing is. -/
def nullable : Schema → Bool
  | .optional _ => true
  | .real => true
  | _ => false

mutual

/-- Whether the values of a form are kept as they are when they are written and read again. -/
def exact : Schema → Bool
  | .integer low high _ => 0 ≤ low && high ≤ Json.Read.greatestWhole
  | .real => false
  | .optional inner => inner.exact && !inner.nullable
  | .list inner => inner.exact
  | .map inner => inner.exact
  | .record _ fields => decide (fields.map Prod.fst).Nodup && exactFields fields
  | .boolean => true
  | .text => true
  | .choice _ => true

/-- Whether the fields of a record are exact and have no values for when they are absent. -/
def exactFields : List (String × Schema × Option Json) → Bool
  | [] => true
  | (_, schema, fallback) :: fields => schema.exact && fallback.isNone && exactFields fields

end

end Schema

namespace Json.Read

/-! ### What a reader gives -/

variable {α β : Type}

/-- Whatever a reader gives has a property. -/
def Gives (reader : Read α) (holds : α → Prop) : Prop :=
  ∀ (cursor after : Cursor) (value : α), reader.run cursor = .ok (value, after) → holds value

theorem gives_pure {holds : α → Prop} {value : α} (held : holds value) :
    Gives (pure value) holds := by
  intro cursor after found read
  cases read
  exact held

theorem gives_bind {reader : Read α} {next : α → Read β} {between : α → Prop} {holds : β → Prop}
    (first : Gives reader between) (second : ∀ value, between value → Gives (next value) holds) :
    Gives (reader >>= next) holds := by
  intro cursor after result read
  obtain ⟨value, reached, readFirst, readSecond⟩ := bind_ok read
  exact second value (first _ _ value readFirst) _ _ result readSecond

theorem gives_then {reader : Read α} {next : α → Read β} {holds : β → Prop}
    (second : ∀ value, Gives (next value) holds) : Gives (reader >>= next) holds :=
  have first : Gives reader (fun _ => True) := fun _ _ _ _ => trivial
  gives_bind first (fun value _ => second value)

/-- Behind a reader that gives nothing nothing is read. -/
theorem gives_never {reader : Read α} {next : α → Read β} {holds : β → Prop}
    (never : Gives reader (fun _ => False)) : Gives (reader >>= next) holds :=
  gives_bind never (fun _ => False.elim)

theorem gives_failHere {holds : α → Prop} (fault : Fault) :
    Gives (failHere fault) holds := by
  intro cursor after value read
  cases read

theorem gives_failAhead {holds : α → Prop} (fault : Fault) :
    Gives (failAhead fault) holds := by
  intro cursor after value read
  cases read

theorem gives_failClosing {holds : α → Prop} (close : Char) (fault : Fault) :
    Gives (failClosing close fault) holds :=
  fun _ _ _ read => absurd read failClosing_ne_ok

theorem gives_refuse {holds : α → Prop} (expected : String) : Gives (refuse expected) holds := by
  unfold refuse
  refine gives_then (fun found => ?_)
  split
  case h_1 | h_2 | h_3 =>
    exact gives_then (fun _ => gives_then (fun _ => gives_failHere _))
  case h_4 => exact gives_then (fun _ => gives_then (fun _ => gives_failHere _))
  case h_5 | h_6 => exact gives_failHere _
  case h_7 =>
    split
    · exact gives_then (fun _ => gives_failHere _)
    · exact gives_failAhead _
  case h_8 => exact gives_failAhead _

/-! ### Plain values -/

theorem boolean_gives : Gives boolean (Schema.boolean.Holds ·) := by
  unfold boolean
  refine gives_then (fun c => ?_)
  split
  case h_1 =>
    exact gives_then (fun _ => gives_then (fun _ => gives_pure ⟨true, rfl⟩))
  case h_2 =>
    exact gives_then (fun _ => gives_then (fun _ => gives_pure ⟨false, rfl⟩))
  case h_3 => exact gives_refuse _

theorem integer_gives (low high : Int) (name : String) :
    Gives (integer low high name) ((Schema.integer low high name).Holds ·) := by
  unfold integer
  refine gives_then (fun c => ?_)
  split
  case isTrue =>
    refine gives_then (fun number => ?_)
    cases number with
    | whole value =>
        dsimp only
        split
        case isTrue within => exact gives_pure ⟨value, within, rfl⟩
        case isFalse => exact gives_failHere _
    | real value => exact gives_failHere _
  case isFalse => exact gives_refuse _

theorem floating_gives : Gives floating (Schema.real.Holds ·) := by
  unfold floating
  refine gives_then (fun c => ?_)
  split
  case isTrue =>
    refine gives_then (fun number => ?_)
    cases number with
    | whole value => exact gives_pure ⟨Float.ofInt value, rfl⟩
    | real value => exact gives_pure ⟨value, rfl⟩
  case isFalse => exact gives_refuse _

theorem text_gives : Gives (Read.value .text) (Schema.text.Holds ·) := by
  have read : Gives (do return Json.text (← textFor "a string")) (Schema.text.Holds ·) :=
    gives_then (fun value => gives_pure ⟨value, rfl⟩)
  rw [Read.value]
  exact read

theorem choice_gives (words : List String) :
    Gives (choice words) ((Schema.choice words).Holds ·) := by
  unfold choice
  refine gives_then (fun c => ?_)
  have known : ∀ word, Gives (if words.contains word then return .text word
      else failHere (.unknownWord word words) : Read Json) ((Schema.choice words).Holds ·) := by
    intro word
    split
    case isTrue among => exact gives_pure ⟨word, List.contains_iff_mem.mp among, rfl⟩
    case isFalse => exact gives_failHere _
  dsimp only
  split
  case h_1 => exact gives_then (fun _ => gives_then known)
  case h_2 =>
    refine gives_then (fun _ => gives_then (fun word => gives_bind (known word) ?_))
    intro found held
    -- What stands behind the word can only be refused; what is given is the word.
    refine gives_then (fun _ => ?_)
    split
    case h_1 | h_3 => exact gives_never (gives_failAhead _)
    case h_2 =>
      refine gives_then (fun _ => gives_then (fun _ => ?_))
      split
      case h_2 => exact gives_never (gives_refuse _)
      case h_1 =>
        refine gives_then (fun _ => gives_then (fun _ => gives_then (fun _ => ?_)))
        split
        case h_1 | h_3 => exact gives_failHere _
        case h_2 => exact gives_then (fun _ => gives_pure held)
  case h_3 => exact gives_failAhead _

/-! ### Lists and maps -/

theorem gives_items {item : Read Json} {holds : Json → Prop} (each : Gives item holds)
    (count : Nat) {found : List Json} (before : ∀ value ∈ found, holds value) :
    Gives (items item count found) (fun result => ∀ value ∈ result, holds value) := by
  induction count generalizing found with
  | zero => exact gives_pure before
  | succ count ih =>
      unfold items
      refine gives_then (fun more => ?_)
      split
      case isTrue =>
        exact gives_bind each (fun value held => ih (List.forall_mem_cons.mpr ⟨held, before⟩))
      case isFalse => exact gives_pure before

theorem gives_entries {item : Read Json} {holds : Json → Prop} (each : Gives item holds)
    (count : Nat) {found : List (String × Json)} (before : ∀ entry ∈ found, holds entry.2) :
    Gives (entries item count found) (fun result => ∀ entry ∈ result, holds entry.2) := by
  induction count generalizing found with
  | zero => exact gives_pure before
  | succ count ih =>
      unfold entries
      refine gives_then (fun name? => ?_)
      split
      case h_1 => exact gives_pure before
      case h_2 =>
        refine gives_then (fun _ => gives_bind each (fun value held => ?_))
        exact ih (List.forall_mem_cons.mpr ⟨held, before⟩)

theorem list_gives {inner : Schema} (each : Gives (Read.value inner) (inner.Holds ·)) :
    Gives (Read.value (.list inner)) ((Schema.list inner).Holds ·) := by
  rw [Read.value]
  refine gives_then (fun c => ?_)
  split
  case h_1 =>
    refine gives_then (fun _ => gives_then (fun cursor => ?_))
    refine gives_bind (gives_items each _ (List.forall_mem_nil _)) (fun found held => ?_)
    refine gives_then (fun _ => gives_pure ⟨_, fun item mem => ?_, rfl⟩)
    exact held item (List.mem_reverse.mp mem)
  case h_2 => exact gives_refuse _

theorem map_gives {inner : Schema} (each : Gives (Read.value inner) (inner.Holds ·)) :
    Gives (Read.value (.map inner)) ((Schema.map inner).Holds ·) := by
  rw [Read.value]
  refine gives_then (fun c => ?_)
  split
  case h_1 =>
    refine gives_then (fun _ => gives_then (fun cursor => ?_))
    refine gives_bind (gives_entries each _ (List.forall_mem_nil _)) (fun found held => ?_)
    have ascending := NameMap.ascending_ofList found.reverse
    refine gives_then (fun _ => gives_pure ⟨_, ascending, fun entry mem => ?_, rfl⟩)
    exact held entry (List.mem_reverse.mp (NameMap.mem_of_mem_ofList mem))
  case h_2 => exact gives_refuse _

/-! ### Records -/

/-- The entries that are found have what the reader of their name gives. -/
theorem gives_recordEntries {readers : List FieldReader} {holds : String → Json → Prop}
    (each : ∀ name reader, readers.find? (fun reader => reader.name == name) = some reader →
      Gives reader.read (holds name))
    (count : Nat) (first : Bool) {found : List (String × Json)}
    (before : ∀ entry ∈ found, holds entry.1 entry.2) :
    Gives (recordEntries readers count first found) (fun result =>
      ∀ entries, result = .ok entries → ∀ entry ∈ entries, holds entry.1 entry.2) := by
  induction count generalizing first found with
  | zero =>
      refine gives_pure (fun entries same => ?_)
      cases same
      exact before
  | succ count ih =>
      unfold recordEntries
      refine gives_then (fun name? => ?_)
      split
      case h_1 =>
        refine gives_pure (fun entries same => ?_)
        cases same
        exact before
      case h_2 name =>
        split
        case h_1 =>
          exact gives_then (fun _ => gives_then (fun _ => gives_then (fun _ => ih false before)))
        case h_2 reader known =>
          split
          case isTrue =>
            refine gives_pure (fun entries same => ?_)
            cases same
          case isFalse =>
            refine gives_then (fun _ => gives_bind (each name reader known) (fun value held => ?_))
            exact ih false (List.forall_mem_cons.mpr ⟨held, before⟩)

theorem ok_of_map_ok {ε : Type} {result : Except ε α} {change : α → β} {value : β}
    (mapped : result.map change = .ok value) :
    ∃ found, result = .ok found ∧ change found = value := by
  cases result with
  | error _ => cases mapped
  | ok found => exact ⟨found, rfl, Except.ok.inj mapped⟩

theorem holds_whenAbsent {schema : Schema} {value : Json}
    (absent : Schema.whenAbsent? (schema, none) = some value) : schema.Holds value := by
  cases schema with
  | optional inner => exact .inl (Option.some.inj absent).symm
  | _ => cases absent

theorem exactFields_cons {name : String} {schema : Schema} {fallback : Option Json}
    {fields : List (String × Schema × Option Json)}
    (exact : Schema.exactFields ((name, schema, fallback) :: fields) = true) :
    schema.exact = true ∧ fallback = none ∧ Schema.exactFields fields = true := by
  rw [Schema.exactFields] at exact
  obtain ⟨both, rest⟩ := Bool.and_eq_true_iff.mp exact
  obtain ⟨first, none⟩ := Bool.and_eq_true_iff.mp both
  exact ⟨first, Option.isNone_iff_eq_none.mp none, rest⟩

/-- A record that is filled from entries which hold what its fields ask for is of its form. -/
theorem fieldsHold_filled {fields : List (String × Schema × Option Json)}
    (exact : Schema.exactFields fields = true) {found result : List (String × Json)}
    (values : ∀ entry ∈ found, ∀ field ∈ fields, field.1 = entry.1 → field.2.1.Holds entry.2)
    (fill : filled found (fieldReaders fields) = .ok result) :
    Schema.FieldsHold fields result := by
  induction fields generalizing result with
  | nil =>
      rw [fieldReaders] at fill
      cases fill
      rfl
  | cons field rest ih =>
      obtain ⟨name, schema, fallback⟩ := field
      obtain ⟨_exact, rfl, others⟩ := exactFields_cons exact
      rw [fieldReaders, filled] at fill
      have later := fun entry mem field among =>
        values entry mem field (List.mem_cons_of_mem _ among)
      split at fill
      case h_1 => cases fill
      case h_2 value given =>
        have held : schema.Holds value := by
          cases located : found.find? (fun entry => entry.1 == name) with
          | none =>
              rw [located] at given
              exact holds_whenAbsent given
          | some entry =>
              rw [located] at given
              obtain rfl := Option.some.inj given
              have same := List.find?_some located
              exact values entry (List.mem_of_find?_eq_some located) _ List.mem_cons_self
                (beq_iff_eq.mp same).symm
        obtain ⟨more, fillMore, rfl⟩ := ok_of_map_ok fill
        exact ⟨value, more, held, ih others later fillMore, rfl⟩

/-- The items of a list that stands for a record are its fields. -/
theorem gives_recordItems (expected : String) {fields : List (String × Schema × Option Json)}
    (exact : Schema.exactFields fields = true)
    (each : ∀ field ∈ fields, Gives (Read.value field.2.1) (field.2.1.Holds ·)) (index : Nat) :
    Gives (recordItems expected (fieldReaders fields) index)
      (fun result => ∀ entries, result = .ok entries → Schema.FieldsHold fields entries) := by
  induction fields generalizing index with
  | nil =>
      rw [fieldReaders]
      refine gives_pure (fun entries same => ?_)
      cases same
      rfl
  | cons field rest ih =>
      obtain ⟨name, schema, fallback⟩ := field
      obtain ⟨_exact, rfl, others⟩ := exactFields_cons exact
      have later := ih others (fun field among => each field (List.mem_cons_of_mem _ among))
      rw [fieldReaders, recordItems]
      refine gives_then (fun more => ?_)
      split
      case isTrue =>
        refine gives_bind (each _ List.mem_cons_self) (fun value held => ?_)
        refine gives_bind (later (index + 1)) (fun result holds => ?_)
        refine gives_pure (fun entries same => ?_)
        obtain ⟨more, rfl, rfl⟩ := ok_of_map_ok same
        exact ⟨value, more, held, holds more rfl, rfl⟩
      case isFalse =>
        refine gives_pure (fun entries same => ?_)
        cases same

theorem record_gives (form : String) {fields : List (String × Schema × Option Json)}
    (distinct : (fields.map Prod.fst).Nodup) (exact : Schema.exactFields fields = true)
    (each : ∀ field ∈ fields, Gives (Read.value field.2.1) (field.2.1.Holds ·)) :
    Gives (Read.value (.record form fields)) ((Schema.record form fields).Holds ·) := by
  -- The names are distinct, so the reader that is found for a name is that of its field.
  have named : ∀ name reader,
      (fieldReaders fields).find? (fun reader => reader.name == name) = some reader →
        Gives reader.read (fun value =>
          ∀ field ∈ fields, field.1 = name → field.2.1.Holds value) := by
    intro name reader known cursor after value read field mem same
    obtain ⟨other, located, reads⟩ := find?_fieldReaders distinct mem
    rw [same, known] at located
    cases located
    rw [reads] at read
    exact each field mem _ _ _ read
  rw [Read.value]
  unfold Read.record
  refine gives_then (fun c => ?_)
  split
  case h_1 =>
    refine gives_then (fun _ => gives_then (fun cursor => ?_))
    refine gives_bind (gives_recordEntries named _ true (List.forall_mem_nil _))
      (fun found values => ?_)
    split
    case h_1 => exact gives_failClosing _ _
    case h_2 result fill =>
      cases found with
      | error fault => cases fill
      | ok entries =>
          refine gives_then (fun _ => gives_pure ⟨result, ?_, rfl⟩)
          exact fieldsHold_filled exact (values entries rfl) fill
  case h_2 =>
    refine gives_then (fun _ => ?_)
    refine gives_bind (gives_recordItems _ exact each 0) (fun result holds => ?_)
    split
    case h_1 => exact gives_failClosing _ _
    case h_2 entries =>
      exact gives_then (fun _ => gives_pure ⟨entries, holds entries rfl, rfl⟩)
  case h_3 => exact gives_refuse _

/-! ### Values of a form -/

mutual

-- The induction is on the form, as the readers are defined by it.
/-- A reader of an exact form gives values of the form. -/
theorem value_gives (schema : Schema) (exact : schema.exact = true) :
    Gives (Read.value schema) (schema.Holds ·) := by
  match schema, exact with
  | .boolean, _ => rw [Read.value]; exact boolean_gives
  | .integer low high name, _ => rw [Read.value]; exact integer_gives low high name
  | .real, _ => rw [Read.value]; exact floating_gives
  | .text, _ => exact text_gives
  | .choice words, _ => rw [Read.value]; exact choice_gives words
  | .optional inner, exact =>
      rw [Schema.exact] at exact
      have each := value_gives inner (Bool.and_eq_true_iff.mp exact).1
      rw [Read.value]
      refine gives_then (fun c => ?_)
      split
      case isTrue => exact gives_then (fun _ => gives_then (fun _ => gives_pure (.inl rfl)))
      case isFalse => exact fun cursor after value read => .inr (each cursor after value read)
  | .list inner, exact => exact list_gives (value_gives inner (by rwa [Schema.exact] at exact))
  | .map inner, exact => exact map_gives (value_gives inner (by rwa [Schema.exact] at exact))
  | .record form fields, exact =>
      rw [Schema.exact] at exact
      obtain ⟨distinct, all⟩ := Bool.and_eq_true_iff.mp exact
      exact record_gives form (of_decide_eq_true distinct) all (fields_give fields all)

theorem fields_give (fields : List (String × Schema × Option Json))
    (exact : Schema.exactFields fields = true) :
    ∀ field ∈ fields, Gives (Read.value field.2.1) (field.2.1.Holds ·) := by
  match fields, exact with
  | [], _ => exact List.forall_mem_nil _
  | (_, schema, _) :: rest, exact =>
      obtain ⟨first, _none, others⟩ := exactFields_cons exact
      exact List.forall_mem_cons.mpr ⟨value_gives schema first, fields_give rest others⟩

end

theorem document_gives {schema : Schema} (exact : schema.exact = true) :
    Gives (document schema) (schema.Holds ·) := by
  unfold document
  refine gives_bind (value_gives schema exact) (fun found held => gives_then (fun more => ?_))
  split
  · exact gives_pure held
  · exact gives_failAhead _

end Json.Read

/-! ### Values that are read again -/

namespace Schema

open Json (Solid Rereads FieldsReread)

/-- A whole number of an exact form is a count. -/
theorem count_of_exact {low high value : Int} {name : String}
    (exact : (integer low high name).exact = true) (within : low ≤ value ∧ value ≤ high) :
    ∃ count : Nat, count ≤ Json.Read.greatestWhole ∧ value = count := by
  rw [Schema.exact] at exact
  obtain ⟨least, greatest⟩ := Bool.and_eq_true_iff.mp exact
  have least := of_decide_eq_true least
  have greatest := of_decide_eq_true greatest
  exact ⟨value.toNat, by omega, by omega⟩

theorem solid_of_holds {schema : Schema} (exact : schema.exact = true)
    (present : schema.nullable = false) {json : Json} (holds : schema.Holds json) : json.Solid := by
  cases schema with
  | boolean =>
      obtain ⟨value, rfl⟩ := holds
      exact Json.solid_bool value
  | integer low high name =>
      obtain ⟨value, within, rfl⟩ := holds
      obtain ⟨count, _small, rfl⟩ := count_of_exact exact within
      exact Json.solid_ofNat count
  | text =>
      obtain ⟨value, rfl⟩ := holds
      exact Json.solid_text value
  | list inner =>
      obtain ⟨items, _each, rfl⟩ := holds
      exact Json.solid_list items
  | map inner =>
      obtain ⟨entries, _ascending, _each, rfl⟩ := holds
      exact Json.solid_object entries
  | choice words =>
      obtain ⟨word, _known, rfl⟩ := holds
      exact Json.solid_text word
  | record form fields =>
      obtain ⟨entries, _each, rfl⟩ := holds
      exact Json.solid_object entries
  | optional inner => cases present
  | real => cases present

mutual

/-- A value of an exact form is read again from its text. -/
theorem rereads_of_holds (schema : Schema) (exact : schema.exact = true) (json : Json)
    (holds : schema.Holds json) : Rereads schema json json := by
  match schema, exact, holds with
  | .boolean, _, ⟨value, same⟩ => exact same ▸ .boolean value
  | .integer low high name, exact, ⟨value, within, same⟩ =>
      obtain ⟨count, small, rfl⟩ := count_of_exact exact within
      exact same ▸ .whole name small within
  | .text, _, ⟨value, same⟩ => exact same ▸ .text value
  | .choice words, _, ⟨word, known, same⟩ => exact same ▸ .choice known
  | .optional inner, exact, holds =>
      rw [Schema.exact] at exact
      obtain ⟨first, present⟩ := Bool.and_eq_true_iff.mp exact
      obtain rfl | held := holds
      · exact .nothing inner
      · have solid := solid_of_holds first ((Bool.not_eq_true' _).mp present) held
        exact .something solid (rereads_of_holds inner first json held)
  | .list inner, exact, ⟨items, each, same⟩ =>
      have inside := rereads_of_holds inner (by rwa [Schema.exact] at exact)
      exact same ▸ .list (List.forall₂_same.mpr (fun item mem => inside item (each item mem)))
  | .map inner, exact, ⟨entries, ascending, each, same⟩ =>
      have inside := rereads_of_holds inner (by rwa [Schema.exact] at exact)
      exact same ▸ .map ascending (fun entry mem => inside entry.2 (each entry mem))
  | .record form fields, exact, ⟨entries, each, same⟩ =>
      rw [Schema.exact] at exact
      obtain ⟨distinct, all⟩ := Bool.and_eq_true_iff.mp exact
      have read := fieldsReread_of_hold fields all entries each
      exact same ▸ .record form (of_decide_eq_true distinct) read

theorem fieldsReread_of_hold (fields : List (String × Schema × Option Json))
    (exact : exactFields fields = true) (entries : List (String × Json))
    (each : FieldsHold fields entries) : FieldsReread fields entries entries := by
  match fields, exact, each with
  | [], _, each => exact each ▸ .nil
  | (_, schema, _) :: rest, exact, ⟨value, more, held, others, same⟩ =>
      obtain ⟨first, _none, later⟩ := Json.Read.exactFields_cons exact
      exact same ▸ .cons (rereads_of_holds schema first value held)
        (fieldsReread_of_hold rest later more others)

end

theorem ofText_compact {schema : Schema} (exact : schema.exact = true) {json : Json}
    (holds : schema.Holds json) : Json.ofText schema json.compact = .ok json :=
  (rereads_of_holds schema exact json holds).ofText

/-- A text holds no values but those of the form that is asked for. -/
theorem holds_of_ofText {schema : Schema} (exact : schema.exact = true) {text : String}
    {json : Json} (held : Json.ofText schema text = .ok json) : schema.Holds json := by
  obtain ⟨found, read, rfl⟩ := Json.Read.ok_of_map_ok held
  exact Json.Read.document_gives exact _ _ found.1 read

end Schema

end DocDrift
