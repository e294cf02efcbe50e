import DocDrift.Proofs.Json.Reading
import Mathlib.Data.List.Forall2
import Mathlib.Data.List.Nodup

/-!
What is read again of JSON text that was written. A value is read in a form as another one if a
reader of the form takes exactly its text, whatever may stand behind a value; lists and records are
read item by item and field by field.
-/

set_option autoImplicit false

namespace DocDrift.Json

open Read

/-! ### The text of a value -/

theorem quoted_toList (text : String) :
    (quoted text).toList = '"' :: text.toList.flatMap escaped ++ ['"'] :=
  String.toList_ofList

/-- Texts with commas between them. -/
def separated : List (List Char) → List Char
  | [] => []
  | first :: rest => first ++ rest.flatMap (',' :: ·)

theorem intercalate_toList (texts : List String) :
    (",".intercalate texts).toList = separated (texts.map String.toList) := by
  induction texts with
  | nil => simp [separated]
  | cons first rest ih =>
      cases rest with
      | nil => simp [separated]
      | cons second more =>
          rw [String.intercalate_cons_cons, String.toList_append, String.toList_append, ih]
          simp [separated]

theorem compactItems_eq (items : List Json) : compactItems items = items.map compact := by
  induction items with
  | nil => rfl
  | cons item rest ih => rw [compactItems, ih, List.map_cons]

theorem compactFields_eq (fields : List (String × Json)) :
    compactFields fields =
      fields.map (fun field => quoted field.1 ++ ":" ++ field.2.compact) := by
  induction fields with
  | nil => rfl
  | cons field rest ih =>
      obtain ⟨name, value⟩ := field
      rw [compactFields, ih, List.map_cons]

theorem list_toList (items : List Json) :
    (list items).compact.toList =
      '[' :: (separated (items.map (fun item => item.compact.toList)) ++ [']']) := by
  rw [compact, String.toList_append, String.toList_append, compactItems_eq, intercalate_toList,
    List.map_map]
  rfl

def fieldText (field : String × Json) : List Char :=
  ('"' :: field.1.toList.flatMap escaped ++ ['"']) ++ ':' :: field.2.compact.toList

theorem object_toList (fields : List (String × Json)) :
    (object fields).compact.toList = '{' :: (separated (fields.map fieldText) ++ ['}']) := by
  have texts : (compactFields fields).map String.toList = fields.map fieldText := by
    rw [compactFields_eq, List.map_map]
    refine List.map_congr_left (fun field _ => ?_)
    simp [fieldText, quoted_toList]
  rw [compact, String.toList_append, String.toList_append, intercalate_toList, texts]
  rfl

/-! ### Values that are read again -/

/-- What may stand behind a value: nothing, a comma or a closing mark. -/
def Ends : List Char → Prop
  | [] => True
  | c :: _ => c = ',' ∨ c = '}' ∨ c = ']'

/-- A value whose text is read in a form as another value. -/
structure Rereads (schema : Schema) (written read : Json) : Prop where
  begins : ∃ c more, written.compact.toList = c :: more ∧ isSpace c = false ∧ c ≠ ']'
  yields : ∀ rest, Ends rest → Yields (Read.value schema) written.compact.toList read rest

namespace Rereads

theorem boolean (value : Bool) : Rereads .boolean (.bool value) (.bool value) where
  begins := by
    cases value with
    | true => exact ⟨'t', "rue".toList, by decide, rfl, by decide⟩
    | false => exact ⟨'f', "alse".toList, by decide, rfl, by decide⟩
  yields rest _ := by
    have text : (Json.bool value).compact = if value then "true" else "false" := by
      rw [compact]
    rw [text, Read.value]
    exact yields_boolean value rest

theorem text (value : String) : Rereads .text (.text value) (.text value) where
  begins := ⟨'"', _, quoted_toList value, rfl, by decide⟩
  yields rest _ := by
    have written : (Json.text value).compact.toList =
        '"' :: value.toList.flatMap escaped ++ ['"'] := quoted_toList value
    have reads : Yields (textFor "a string") ('"' :: value.toList.flatMap escaped ++ ['"']) value
        rest := by
      unfold textFor
      refine yields_bind [] _ (yields_opening (c := '"') rfl _) ?_
      refine yields_bind ['"'] _ (yields_skip ['"'] _) ?_
      have string := yields_string value.toList rest
      rwa [String.ofList_toList] at string
    rw [written, Read.value]
    exact yields_map Json.text reads

theorem choice {words : List String} {word : String} (known : word ∈ words) :
    Rereads (.choice words) (.text word) (.text word) where
  begins := ⟨'"', _, quoted_toList word, rfl, by decide⟩
  yields rest _ := by
    have written : (Json.text word).compact.toList =
        '"' :: word.toList.flatMap escaped ++ ['"'] := quoted_toList word
    rw [written, Read.value]
    unfold Read.choice
    refine yields_bind [] _ (yields_opening (c := '"') rfl _) ?_
    refine yields_bind ['"'] _ (yields_skip ['"'] _) ?_
    refine yields_then (yields_string word.toList rest) ?_
    dsimp only
    rw [String.ofList_toList, if_pos (List.contains_iff_mem.mpr known)]
    exact yields_pure _ _

end Rereads

/-! ### Lists -/

theorem ends_separated (texts : List (List Char)) {mark : Char} (rest : List Char)
    (closing : mark = '}' ∨ mark = ']') : Ends (texts.flatMap (',' :: ·) ++ mark :: rest) := by
  cases texts with
  | nil => exact .inr closing
  | cons text more => exact .inl rfl

theorem yields_closeList (rest : List Char) : Yields closeList [']'] () rest := by
  unfold closeList
  exact yields_bind [] _ (yields_peekPart rfl rest) (yields_skip [']'] rest)

theorem yields_noItem (first : Bool) (rest : List Char) :
    Yields (hasItem first) [] false (']' :: rest) := by
  unfold hasItem
  exact yields_bind [] [] (yields_peekPart rfl rest) (yields_pure _ _)

/-- The comma in front of all items and fields but the first. -/
def comma (first : Bool) : List Char :=
  if first then [] else [',']

theorem yields_hasItem (first : Bool) {c : Char} (part : isSpace c = false) (item : c ≠ ']')
    (rest : List Char) : Yields (hasItem first) (comma first) true (c :: rest) := by
  unfold hasItem
  cases first with
  | true =>
      refine yields_bind [] [] (yields_peekPart part rest) ?_
      split
      · contradiction
      · rename_i same
        exact absurd (Option.some.inj same) item
      · exact yields_pure _ _
  | false =>
      refine yields_bind [] [','] (yields_peekPart (c := ',') rfl _) ?_
      refine yields_bind [','] [] (yields_skip [','] _) ?_
      refine yields_bind [] [] (yields_peekPart part rest) ?_
      split
      · contradiction
      · rename_i same
        exact absurd (Option.some.inj same) item
      · exact yields_pure _ _

theorem yields_item {item : Read Json} {c : Char} {text more rest : List Char} {value : Json}
    {count : Nat} {found result : List Json} (part : isSpace c = false) (begins : c ≠ ']')
    (reads : Yields item (c :: text) value (more ++ rest))
    (others : Yields (items item count (value :: found)) more result rest) :
    Yields (items item (count + 1) found) (comma found.isEmpty ++ (c :: text ++ more)) result
      rest := by
  unfold items
  refine yields_bind (comma found.isEmpty) _ (yields_hasItem _ part begins _) ?_
  rw [if_pos rfl]
  exact yields_bind _ _ reads others

theorem yields_items {inner : Schema} {written read : List Json}
    (each : List.Forall₂ (Rereads inner) written read) {count : Nat} (enough : written.length < count)
    {found : List Json} (nonempty : found ≠ []) (rest : List Char) :
    Yields (items (Read.value inner) count found)
      ((written.map (fun item => item.compact.toList)).flatMap (',' :: ·)) (read.reverse ++ found)
      (']' :: rest) := by
  -- The reader takes up the items in reverse; behind the first one each has a comma in front.
  induction each generalizing count found with
  | nil =>
      obtain ⟨count, rfl⟩ := Nat.exists_eq_succ_of_ne_zero (Nat.ne_of_gt enough)
      unfold items
      exact yields_bind [] [] (yields_noItem _ rest) (yields_pure _ _)
  | @cons item value written read rereads each ih =>
      obtain ⟨count, rfl⟩ := Nat.exists_eq_succ_of_ne_zero (Nat.ne_of_gt (Nat.zero_lt_of_lt enough))
      obtain ⟨c, text, begins, part, notClosing⟩ := rereads.begins
      have others := ih (Nat.lt_of_succ_lt_succ enough) (List.cons_ne_nil value found)
      have reads := rereads.yields _ (ends_separated
        (written.map (fun item => item.compact.toList)) rest (.inr rfl))
      rw [begins] at reads
      have step := yields_item part notClosing reads others
      have later : found.isEmpty = false := List.isEmpty_eq_false_iff.mpr nonempty
      rw [later] at step
      rw [List.map_cons, List.flatMap_cons, begins, List.reverse_cons, List.append_assoc]
      exact step

theorem length_le_flatMap (texts : List (List Char)) :
    texts.length ≤ (texts.flatMap (',' :: ·)).length := by
  induction texts with
  | nil => exact Nat.le_refl _
  | cons text rest ih =>
      rw [List.flatMap_cons, List.length_append, List.length_cons, List.length_cons]
      omega

theorem length_le_separated (texts : List (List Char)) :
    texts.length ≤ (separated texts).length + 1 := by
  cases texts with
  | nil => exact Nat.zero_le _
  | cons text rest =>
      have longer := length_le_flatMap rest
      rw [separated, List.length_append, List.length_cons]
      omega

theorem yields_allItems {inner : Schema} {written read : List Json}
    (each : List.Forall₂ (Rereads inner) written read) {count : Nat} (enough : written.length < count)
    (rest : List Char) :
    Yields (items (Read.value inner) count [])
      (separated (written.map (fun item => item.compact.toList))) read.reverse (']' :: rest) := by
  obtain ⟨count, rfl⟩ := Nat.exists_eq_succ_of_ne_zero (Nat.ne_of_gt (Nat.zero_lt_of_lt enough))
  cases each with
  | nil =>
      unfold items
      exact yields_bind [] [] (yields_noItem _ rest) (yields_pure _ _)
  | @cons item value written read rereads each =>
      obtain ⟨c, text, begins, part, notClosing⟩ := rereads.begins
      have others := yields_items each (Nat.lt_of_succ_lt_succ enough) (List.cons_ne_nil value []) rest
      have reads := rereads.yields _ (ends_separated
        (written.map (fun item => item.compact.toList)) rest (.inr rfl))
      rw [begins] at reads
      rw [List.map_cons, separated, begins, List.reverse_cons]
      exact yields_item part notClosing reads others

theorem Rereads.list {inner : Schema} {written read : List Json}
    (each : List.Forall₂ (Rereads inner) written read) :
    Rereads (.list inner) (.list written) (.list read) where
  begins := ⟨'[', _, list_toList written, rfl, by decide⟩
  yields rest _ := by
    rw [list_toList, Read.value]
    refine yields_bind [] _ (yields_opening (c := '[') rfl _) ?_
    refine yields_bind ['['] _ (yields_skip ['['] _) ?_
    refine yields_get (fun cursor begins => ?_)
    have enough : written.length < cursor.rest.length + 1 := by
      have longer := length_le_separated (written.map (fun item => item.compact.toList))
      rw [begins]
      simp only [List.append_eq, List.length_append, List.length_map, List.length_singleton]
        at longer ⊢
      omega
    refine yields_bind _ [']'] (yields_allItems each enough rest) ?_
    refine yields_bind [']'] [] (yields_closeList rest) ?_
    rw [List.reverse_reverse]
    exact yields_pure _ _

/-! ### Records -/

/-- The fields of an object whose texts are read, in the order of a form, as other values. -/
inductive FieldsReread :
    List (String × Schema × Option Json) → List (String × Json) → List (String × Json) → Prop
  | nil : FieldsReread [] [] []
  | cons {name : String} {schema : Schema} {fallback : Option Json} {value other : Json}
      {fields : List (String × Schema × Option Json)} {written read : List (String × Json)}
      (rereads : Rereads schema value other) (rest : FieldsReread fields written read) :
      FieldsReread ((name, schema, fallback) :: fields) ((name, value) :: written)
        ((name, other) :: read)

theorem yields_closeObject (rest : List Char) : Yields closeObject ['}'] () rest := by
  unfold closeObject
  exact yields_bind [] _ (yields_peekPart rfl rest) (yields_skip ['}'] rest)

theorem yields_noField (first : Bool) (rest : List Char) :
    Yields (fieldName? first) [] none ('}' :: rest) := by
  unfold fieldName?
  exact yields_bind [] [] (yields_peekPart rfl rest) (yields_pure _ _)

theorem yields_fieldName (first : Bool) (name : String) (rest : List Char) :
    Yields (fieldName? first) (comma first ++ ('"' :: name.toList.flatMap escaped ++ ['"']))
      (some name) rest := by
  have string := yields_map some (yields_string name.toList rest)
  rw [String.ofList_toList] at string
  unfold fieldName?
  cases first with
  | true =>
      refine yields_bind [] _ (yields_peekPart (c := '"') rfl _) ?_
      exact yields_bind ['"'] _ (yields_skip ['"'] _) string
  | false =>
      refine yields_bind [] _ (yields_peekPart (c := ',') rfl _) ?_
      refine yields_bind [','] _ (yields_skip [','] _) ?_
      refine yields_bind [] _ (yields_peekPart (c := '"') rfl _) ?_
      exact yields_bind ['"'] _ (yields_skip ['"'] _) string

theorem yields_field {readers : List FieldReader} {reader : FieldReader} {name : String}
    {text more rest : List Char} {value : Json} {count : Nat} {found : List (String × Json)}
    {result : Except Fault (List (String × Json))} (first : Bool)
    (known : readers.find? (fun reader => reader.name == name) = some reader)
    (fresh : name ∉ found.map Prod.fst) (reads : Yields reader.read text value (more ++ rest))
    (others : Yields (recordEntries readers count false ((name, value) :: found)) more result rest) :
    Yields (recordEntries readers (count + 1) first found)
      (comma first ++ ('"' :: name.toList.flatMap escaped ++ ['"']) ++ (':' :: (text ++ more)))
      result rest := by
  have new : found.any (fun entry => entry.1 == name) = false := by
    rw [List.any_eq_false]
    intro entry mem same
    exact fresh (List.mem_map.mpr ⟨entry, mem, beq_iff_eq.mp same⟩)
  unfold recordEntries
  refine yields_bind _ _ (yields_fieldName first name _) ?_
  dsimp only
  rw [known]
  dsimp only
  rw [new, if_neg Bool.false_ne_true]
  refine yields_bind [':'] _ (yields_colon _) ?_
  exact yields_bind text more reads others

theorem find?_fieldReaders {fields : List (String × Schema × Option Json)}
    (distinct : (fields.map Prod.fst).Nodup) {name : String} {schema : Schema}
    {fallback : Option Json} (mem : (name, schema, fallback) ∈ fields) :
    ∃ reader, (fieldReaders fields).find? (fun reader => reader.name == name) = some reader ∧
      reader.read = Read.value schema := by
  induction fields with
  | nil => cases mem
  | cons field rest ih =>
      obtain ⟨other, form, standard⟩ := field
      rw [fieldReaders]
      by_cases same : other = name
      · refine ⟨_, List.find?_cons_of_pos (beq_iff_eq.mpr same), ?_⟩
        obtain head | later := List.mem_cons.mp mem
        · cases head
          rfl
        · refine absurd ?_ (List.nodup_cons.mp distinct).1
          exact List.mem_map.mpr ⟨_, later, same.symm⟩
      · have later := (List.mem_cons.mp mem).resolve_left (fun head => same (by cases head; rfl))
        obtain ⟨reader, known, reads⟩ := ih (List.nodup_cons.mp distinct).2 later
        refine ⟨reader, ?_, reads⟩
        refine (List.find?_cons_of_neg (p := fun reader : FieldReader => reader.name == name) ?_).trans
          known
        exact fun equal => same (beq_iff_eq.mp equal)

theorem yields_fields {all fields : List (String × Schema × Option Json)}
    {written read : List (String × Json)} (distinct : (all.map Prod.fst).Nodup)
    (each : FieldsReread fields written read) (within : fields ⊆ all) {count : Nat}
    (enough : written.length < count) (found : List (String × Json))
    (fresh : (found.map Prod.fst ++ fields.map Prod.fst).Nodup) (rest : List Char) :
    Yields (recordEntries (fieldReaders all) count false found)
      ((written.map fieldText).flatMap (',' :: ·)) (.ok (read.reverse ++ found)) ('}' :: rest) := by
  -- No name comes twice in a form, so each field that is read is new among those found before.
  induction each generalizing count found with
  | nil =>
      obtain ⟨count, rfl⟩ := Nat.exists_eq_succ_of_ne_zero (Nat.ne_of_gt enough)
      unfold recordEntries
      exact yields_bind [] [] (yields_noField false rest) (yields_pure _ _)
  | @cons name schema fallback value other fields written read rereads each ih =>
      obtain ⟨count, rfl⟩ := Nat.exists_eq_succ_of_ne_zero (Nat.ne_of_gt (Nat.zero_lt_of_lt enough))
      obtain ⟨reader, known, reads⟩ := find?_fieldReaders distinct (within List.mem_cons_self)
      have moved := List.nodup_middle.mp fresh
      have others := ih (fun field mem => within (List.mem_cons_of_mem _ mem))
        (Nat.lt_of_succ_lt_succ enough) ((name, other) :: found) moved
      have valued := rereads.yields _ (ends_separated (written.map fieldText) rest (.inl rfl))
      rw [← reads] at valued
      have fresh := (List.nodup_cons.mp moved).1
      have step := yields_field false known (fun mem => fresh (List.mem_append_left _ mem)) valued
        others
      rw [List.map_cons, List.flatMap_cons, fieldText, List.reverse_cons, List.append_assoc]
      simp only [comma, List.append_assoc, List.cons_append, List.nil_append] at step ⊢
      exact step

theorem yields_allFields {fields : List (String × Schema × Option Json)}
    {written read : List (String × Json)} (distinct : (fields.map Prod.fst).Nodup)
    (each : FieldsReread fields written read) {count : Nat} (enough : written.length < count)
    (rest : List Char) :
    Yields (recordEntries (fieldReaders fields) count true []) (separated (written.map fieldText))
      (.ok read.reverse) ('}' :: rest) := by
  obtain ⟨count, rfl⟩ := Nat.exists_eq_succ_of_ne_zero (Nat.ne_of_gt (Nat.zero_lt_of_lt enough))
  cases each with
  | nil =>
      unfold recordEntries
      exact yields_bind [] [] (yields_noField true rest) (yields_pure _ _)
  | @cons name schema fallback value other fields written read rereads each =>
      obtain ⟨reader, known, reads⟩ := find?_fieldReaders distinct List.mem_cons_self
      have others := yields_fields distinct each (List.subset_cons_self _ _)
        (Nat.lt_of_succ_lt_succ enough) [(name, other)] distinct rest
      have valued := rereads.yields _ (ends_separated (written.map fieldText) rest (.inl rfl))
      rw [← reads] at valued
      have step := yields_field true known List.not_mem_nil valued others
      rw [List.map_cons, separated, fieldText, List.reverse_cons]
      simp only [comma, List.append_assoc, List.cons_append, List.nil_append] at step ⊢
      exact step

theorem FieldsReread.names {fields : List (String × Schema × Option Json)}
    {written read : List (String × Json)} (each : FieldsReread fields written read) :
    read.map Prod.fst = fields.map Prod.fst := by
  induction each with
  | nil => rfl
  | cons _ _ ih => rw [List.map_cons, List.map_cons, ih]

/-- The fields of a record are those found, in the order of the form. -/
theorem filled_of_found {fields : List (String × Schema × Option Json)}
    {found read : List (String × Json)} (names : read.map Prod.fst = fields.map Prod.fst)
    (all : ∀ entry ∈ read, found.find? (fun other => other.1 == entry.1) = some entry) :
    filled found (fieldReaders fields) = .ok read := by
  induction fields generalizing read with
  | nil =>
      rw [List.map_eq_nil_iff.mp names]
      rfl
  | cons field rest ih =>
      cases read with
      | nil => cases names
      | cons entry more =>
          obtain ⟨name, schema, fallback⟩ := field
          obtain ⟨other, value⟩ := entry
          obtain ⟨rfl, others⟩ := List.cons.inj names
          have kept := all (other, value) List.mem_cons_self
          have filledMore := ih others (fun entry mem => all entry (List.mem_cons_of_mem _ mem))
          rw [fieldReaders, filled, kept, filledMore]
          rfl

theorem find?_of_nodup {entries : List (String × Json)} (distinct : (entries.map Prod.fst).Nodup)
    {entry : String × Json} (mem : entry ∈ entries) :
    entries.find? (fun other => other.1 == entry.1) = some entry := by
  induction entries with
  | nil => cases mem
  | cons first rest ih =>
      obtain rfl | later := List.mem_cons.mp mem
      · exact List.find?_cons_of_pos (beq_self_eq_true _)
      · refine (List.find?_cons_of_neg (p := fun other : String × Json => other.1 == entry.1) ?_).trans
          (ih (List.nodup_cons.mp distinct).2 later)
        intro same
        refine (List.nodup_cons.mp distinct).1 (List.mem_map.mpr ⟨entry, later, ?_⟩)
        exact (beq_iff_eq.mp same).symm

theorem Rereads.record (form : String) {fields : List (String × Schema × Option Json)}
    {written read : List (String × Json)} (distinct : (fields.map Prod.fst).Nodup)
    (each : FieldsReread fields written read) :
    Rereads (.record form fields) (.object written) (.object read) where
  begins := ⟨'{', _, object_toList written, rfl, by decide⟩
  yields rest _ := by
    have readDistinct : (read.reverse.map Prod.fst).Nodup := by
      rw [List.map_reverse, List.nodup_reverse, each.names]
      exact distinct
    have fill : filled read.reverse (fieldReaders fields) = .ok read :=
      filled_of_found each.names
        (fun entry mem => find?_of_nodup readDistinct (List.mem_reverse.mpr mem))
    rw [object_toList, Read.value]
    unfold Read.record
    refine yields_bind [] _ (yields_opening (c := '{') rfl _) ?_
    refine yields_bind ['{'] _ (yields_skip ['{'] _) ?_
    refine yields_get (fun cursor begins => ?_)
    -- A record has at least as many characters behind its opening mark as it has fields.
    have enough : written.length < cursor.rest.length + 1 := by
      have longer := length_le_separated (written.map fieldText)
      rw [begins]
      simp only [List.append_eq, List.length_append, List.length_map, List.length_singleton]
        at longer ⊢
      omega
    refine yields_bind _ ['}'] (yields_allFields distinct each enough rest) ?_
    dsimp only [Except.bind]
    rw [fill]
    exact yields_bind ['}'] [] (yields_closeObject rest) (yields_pure _ _)

/-! ### Whole texts -/

theorem yields_end : Yields peekPart [] none [] := by
  intro cursor begins
  refine ⟨cursor, begins, ?_⟩
  unfold peekPart
  rw [run_bind, run_get]
  dsimp only
  rw [begins, run_bind, run_skip]
  change Except.ok (cursor.rest.head?, cursor) = _
  rw [begins]
  rfl

theorem Rereads.ofText {schema : Schema} {written read : Json}
    (rereads : Rereads schema written read) : ofText schema written.compact = .ok read := by
  have whole : Yields (document schema) written.compact.toList read [] := by
    unfold document
    refine yields_then (rereads.yields [] trivial) ?_
    exact yields_bind [] [] yields_end (yields_pure _ _)
  obtain ⟨after, _, finished⟩ := whole (Cursor.start written.compact) (List.append_nil _).symm
  rw [Json.ofText, finished]
  rfl

end DocDrift.Json
