import DocDrift.Json.Encoding
import DocDrift.Proofs.Json.FloatText
import DocDrift.Proofs.Names

/-!
More values that are read again: whole numbers that are kept exactly, values that may be absent, and
values by name. What may be absent must not be written like what is not there; values by name have
to be in the order of their names, which is the order in which a reader puts them.
-/

set_option autoImplicit false

namespace DocDrift

/-! ### Values by name -/

namespace NameMap

variable {α : Type}

instance (map : NameMap α) : Decidable map.Ascending :=
  inferInstanceAs (Decidable (List.Pairwise (fun entry later => entry.1 < later.1) map))

theorem insert_last {map : NameMap α} {name : String} (value : α)
    (last : ∀ entry ∈ map, entry.1 < name) : map.insert name value = map ++ [(name, value)] := by
  induction map with
  | nil => rfl
  | cons first rest ih =>
      have less := last first List.mem_cons_self
      rw [NameMap.insert, if_neg (fun more => String.lt_irrefl _ (String.lt_trans more less)),
        if_neg, ih (fun entry mem => last entry (List.mem_cons_of_mem _ mem))]
      · rfl
      · rintro rfl
        exact String.lt_irrefl _ less

theorem foldl_insert_ascending {map entries : NameMap α} (ascending : Ascending (map ++ entries)) :
    entries.foldl (fun map entry => NameMap.insert entry.1 entry.2 map) map = map ++ entries := by
  induction entries generalizing map with
  | nil => exact (List.append_nil _).symm
  | cons entry rest ih =>
      have last : ∀ other ∈ map, other.1 < entry.1 := fun other mem =>
        (List.pairwise_append.mp ascending).2.2 other mem entry List.mem_cons_self
      have split : map ++ entry :: rest = map ++ [(entry.1, entry.2)] ++ rest := by
        rw [List.append_assoc]
        rfl
      rw [split] at ascending ⊢
      rw [List.foldl_cons, insert_last entry.2 last]
      exact ih ascending

theorem ofList_of_ascending {entries : NameMap α} (ascending : entries.Ascending) :
    ofList entries = entries :=
  have whole : Ascending ([] ++ entries) := ascending
  foldl_insert_ascending whole

end NameMap

namespace Json

open Read

/-! ### Whole numbers -/

theorem leads_toDigits (value : Nat) : Leads (Nat.toDigits 10 value) := by
  obtain rfl | pos := Nat.eq_zero_or_pos value
  · exact .inl rfl
  · obtain ⟨digit, part, begins, other⟩ := toDigits_first pos
    exact .inr ⟨digit, part, begins, other, begins ▸ toDigits_digits value⟩

theorem yields_whole {text : List Char} {value : Nat} (leads : Leads text)
    (taken : absorb 0 text = (value, text.length)) {rest : List Char} (ends : Ends rest) :
    Yields signedNumber text (.whole value) rest := by
  obtain ⟨c, more, begins, digit, _digits⟩ := leads.cons
  have first : Yields peek [] (some c) (text ++ rest) := by
    rw [begins]
    exact yields_peek c _
  have unsigned : (some c == some '-') = false := by
    refine Bool.eq_false_iff.mpr (fun minus => ?_)
    rw [Option.some.inj (beq_iff_eq.mp minus)] at digit
    cases digit
  obtain ⟨found, peeks, noPoint, noExponent⟩ := yields_peekEnd ends
  unfold signedNumber
  refine yields_bind [] _ first ?_
  rw [unsigned, if_neg Bool.false_ne_true]
  unfold number
  refine yields_bind [] _ first ?_
  dsimp only
  rw [digit, if_neg (by decide)]
  refine yields_then (yields_wholeDigits leads ends.noDigit) ?_
  rw [taken]
  dsimp only
  refine yields_bind [] [] peeks ?_
  rw [noPoint, noExponent, Nat.sub_self, if_neg Bool.false_ne_true, if_neg Bool.false_ne_true,
    if_neg (by decide), if_pos rfl]
  exact yields_pure _ _

theorem absorb_toDigits {value : Nat} (small : value ≤ greatestWhole) :
    absorb 0 (Nat.toDigits 10 value) = (value, (Nat.toDigits 10 value).length) := by
  have all := Nat.ofDigitChars_ten_toDigits (n := value)
  rw [absorb_all (by rwa [all]), all]

theorem ofNat_toList (value : Nat) : (Json.ofNat value).compact.toList = Nat.toDigits 10 value := by
  rw [Json.ofNat, compact]
  exact String.toList_ofList

/-- A whole number within the bounds of its form is read again. -/
theorem Rereads.whole {low high : Int} {value : Nat} (name : String)
    (small : value ≤ greatestWhole) (within : low ≤ value ∧ (value : Int) ≤ high) :
    Rereads (.integer low high name) (.ofNat value) (.ofNat value) := by
  have leads := leads_toDigits value
  have taken := absorb_toDigits small
  have written := ofNat_toList value
  -- Digits are taken as they are from here on, and not for what they make.
  generalize Nat.toDigits 10 value = text at leads taken written
  obtain ⟨c, more, begins, digit, _digits⟩ := leads.cons
  refine ⟨⟨c, more, written.trans begins, isSpace_of_isDigit digit, ?_⟩, fun rest ends => ?_⟩
  · rintro rfl
    cases digit
  · have opens : Yields opening [] c (text ++ rest) := by
      rw [begins]
      exact yields_opening (isSpace_of_isDigit digit) _
    have number : beginsNumber c = true := Bool.or_eq_true_iff.mpr (.inr digit)
    rw [written, Read.value]
    unfold Read.integer
    refine yields_bind [] text opens ?_
    rw [if_pos number]
    refine yields_then (yields_whole leads taken ends) ?_
    dsimp only
    rw [if_pos within]
    exact yields_pure _ _

/-! ### Values that may be absent -/

/-- A value that is written otherwise than what is not there. -/
def Solid (json : Json) : Prop :=
  ∃ c more, json.compact.toList = c :: more ∧ c ≠ 'n'

theorem solid_bool (value : Bool) : (Json.bool value).Solid := by
  cases value with
  | true => exact ⟨'t', "rue".toList, by decide, by decide⟩
  | false => exact ⟨'f', "alse".toList, by decide, by decide⟩

theorem solid_ofNat (value : Nat) : (Json.ofNat value).Solid := by
  obtain ⟨c, more, begins, digit, _digits⟩ := (leads_toDigits value).cons
  refine ⟨c, more, (ofNat_toList value).trans begins, ?_⟩
  rintro rfl
  cases digit

theorem solid_text (value : String) : (Json.text value).Solid :=
  ⟨'"', _, quoted_toList value, by decide⟩

theorem solid_list (items : List Json) : (Json.list items).Solid :=
  ⟨'[', _, list_toList items, by decide⟩

theorem solid_object (fields : List (String × Json)) : (Json.object fields).Solid :=
  ⟨'{', _, object_toList fields, by decide⟩

theorem Rereads.nothing (inner : Schema) : Rereads (.optional inner) .null .null where
  begins := ⟨'n', ['u', 'l', 'l'], by rw [compact]; rfl, rfl, by decide⟩
  yields rest _ := by
    have written : (Json.null).compact.toList = ['n', 'u', 'l', 'l'] := by rw [compact]; rfl
    rw [written, Read.value]
    refine yields_bind [] _ (yields_peekPart (c := 'n') rfl _) ?_
    rw [if_pos (beq_self_eq_true _)]
    refine yields_bind ['n'] _ (yields_skip ['n'] _) ?_
    exact yields_bind ['u', 'l', 'l'] [] (yields_literal _ _) (yields_pure _ _)

theorem Rereads.something {inner : Schema} {written read : Json} (solid : written.Solid)
    (rereads : Rereads inner written read) : Rereads (.optional inner) written read where
  begins := rereads.begins
  yields rest ends := by
    obtain ⟨c, more, begins, part, _other⟩ := rereads.begins
    obtain ⟨c', more', begins', present⟩ := solid
    obtain ⟨rfl, _same⟩ := List.cons.inj (begins.symm.trans begins')
    have reads := rereads.yields rest ends
    rw [begins] at reads ⊢
    rw [Read.value]
    refine yields_bind [] (c :: more) (yields_peekPart part _) ?_
    rw [if_neg (fun none => present (Option.some.inj (beq_iff_eq.mp none)))]
    exact reads

/-! ### Values by name -/

theorem yields_entry {item : Read Json} (name : String) {text more rest : List Char} {value : Json}
    {count : Nat} (found : List (String × Json)) {result : List (String × Json)}
    (reads : Yields item text value (more ++ rest))
    (others : Yields (entries item count ((name, value) :: found)) more result rest) :
    Yields (entries item (count + 1) found)
      (comma found.isEmpty ++ ('"' :: name.toList.flatMap escaped ++ ['"']) ++
        (':' :: (text ++ more))) result rest := by
  unfold entries
  refine yields_bind _ _ (yields_fieldName found.isEmpty name _) ?_
  dsimp only
  refine yields_bind [':'] _ (yields_colon _) ?_
  exact yields_bind text more reads others

theorem yields_entries {inner : Schema} {written : List (String × Json)}
    (each : ∀ entry ∈ written, Rereads inner entry.2 entry.2) {count : Nat}
    (enough : written.length < count) {found : List (String × Json)} (nonempty : found ≠ [])
    (rest : List Char) :
    Yields (entries (Read.value inner) count found) ((written.map fieldText).flatMap (',' :: ·))
      (written.reverse ++ found) ('}' :: rest) := by
  have later : found.isEmpty = false := List.isEmpty_eq_false_iff.mpr nonempty
  induction written generalizing count found with
  | nil =>
      obtain ⟨count, rfl⟩ := Nat.exists_eq_succ_of_ne_zero (Nat.ne_of_gt enough)
      unfold entries
      exact yields_bind [] [] (yields_noField _ rest) (yields_pure _ _)
  | cons entry written ih =>
      obtain ⟨count, rfl⟩ := Nat.exists_eq_succ_of_ne_zero (Nat.ne_of_gt (Nat.zero_lt_of_lt enough))
      have others := ih (fun other mem => each other (List.mem_cons_of_mem _ mem))
        (Nat.lt_of_succ_lt_succ enough) (List.cons_ne_nil entry found) rfl
      have reads := (each entry List.mem_cons_self).yields _
        (ends_separated (written.map fieldText) rest (.inl rfl))
      have step := yields_entry entry.1 found reads others
      rw [later] at step
      rw [List.map_cons, List.flatMap_cons, fieldText, List.reverse_cons, List.append_assoc]
      simp only [comma, List.append_assoc, List.cons_append, List.nil_append] at step ⊢
      exact step

theorem yields_allEntries {inner : Schema} {written : List (String × Json)}
    (each : ∀ entry ∈ written, Rereads inner entry.2 entry.2) {count : Nat}
    (enough : written.length < count) (rest : List Char) :
    Yields (entries (Read.value inner) count []) (separated (written.map fieldText))
      written.reverse ('}' :: rest) := by
  obtain ⟨count, rfl⟩ := Nat.exists_eq_succ_of_ne_zero (Nat.ne_of_gt (Nat.zero_lt_of_lt enough))
  cases written with
  | nil =>
      unfold entries
      exact yields_bind [] [] (yields_noField true rest) (yields_pure _ _)
  | cons entry written =>
      have others := yields_entries (fun other mem => each other (List.mem_cons_of_mem _ mem))
        (Nat.lt_of_succ_lt_succ enough) (List.cons_ne_nil entry []) rest
      have reads := (each entry List.mem_cons_self).yields _
        (ends_separated (written.map fieldText) rest (.inl rfl))
      have step := yields_entry entry.1 [] reads others
      rw [List.map_cons, separated, fieldText, List.reverse_cons]
      simp only [comma, List.append_assoc, List.cons_append, List.nil_append] at step ⊢
      exact step

/-- Values by name are read again in the order of their names. -/
theorem Rereads.map {inner : Schema} {written : List (String × Json)}
    (ascending : NameMap.Ascending written)
    (each : ∀ entry ∈ written, Rereads inner entry.2 entry.2) :
    Rereads (.map inner) (.object written) (.object written) where
  begins := ⟨'{', _, object_toList written, rfl, by decide⟩
  yields rest _ := by
    rw [object_toList, Read.value]
    refine yields_bind [] _ (yields_opening (c := '{') rfl _) ?_
    refine yields_bind ['{'] _ (yields_skip ['{'] _) ?_
    refine yields_get (fun cursor begins => ?_)
    have enough : written.length < cursor.rest.length + 1 := by
      have longer := length_le_separated (written.map fieldText)
      rw [begins]
      simp only [List.append_eq, List.length_append, List.length_map, List.length_singleton]
        at longer ⊢
      omega
    refine yields_bind _ ['}'] (yields_allEntries each enough rest) ?_
    refine yields_bind ['}'] [] (yields_closeObject rest) ?_
    rw [List.reverse_reverse, NameMap.ofList_of_ascending ascending]
    exact yields_pure _ _

end Json

end DocDrift
