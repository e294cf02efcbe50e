import DocDrift.Json.Printer
import DocDrift.Json.Reader

/-!
What a reader of JSON text takes from the front of a text. A reader that yields a value from some
characters leaves what follows them to the next reader, so readers that yield one after another yield
together. A record keeps the first value of each of its fields: a repeated field is refused.
-/

set_option autoImplicit false

namespace DocDrift.Json.Read

/-! ### Running readers -/

section Run

variable {α β : Type}

theorem run_bind (reader : Read α) (next : α → Read β) (cursor : Cursor) :
    (reader >>= next).run cursor =
      match reader.run cursor with
      | .ok (value, after) => (next value).run after
      | .error error => .error error := by
  change (reader cursor >>= fun found => next found.1 found.2) = _
  change _ = match reader cursor with
    | .ok (value, after) => next value after
    | .error error => .error error
  cases reader cursor <;> rfl

theorem bind_ok {reader : Read α} {next : α → Read β} {cursor after : Cursor} {result : β}
    (read : (reader >>= next).run cursor = .ok (result, after)) :
    ∃ value between, reader.run cursor = .ok (value, between) ∧
      (next value).run between = .ok (result, after) := by
  rw [run_bind] at read
  cases first : reader.run cursor with
  | error error =>
      rw [first] at read
      cases read
  | ok found =>
      rw [first] at read
      exact ⟨found.1, found.2, rfl, read⟩

theorem run_peek (cursor : Cursor) : peek.run cursor = .ok (cursor.rest.head?, cursor) := rfl

theorem run_skip (count : Nat) (cursor : Cursor) :
    (skip count).run cursor = .ok ((), cursor.advance count) := rfl

theorem run_get (cursor : Cursor) : (get : Read Cursor).run cursor = .ok (cursor, cursor) := rfl

end Run

/-! ### Yielding -/

/-- A reader yields a value from some characters and leaves what follows them. -/
def Yields {α : Type} (reader : Read α) (text : List Char) (value : α) (rest : List Char) : Prop :=
  ∀ cursor : Cursor, cursor.rest = text ++ rest →
    ∃ after : Cursor, after.rest = rest ∧ reader.run cursor = .ok (value, after)

section Yields

variable {α β : Type}

theorem yields_pure (value : α) (rest : List Char) : Yields (pure value) [] value rest := by
  intro cursor begins
  exact ⟨cursor, begins, rfl⟩

theorem yields_bind {reader : Read α} {next : α → Read β} (text more : List Char)
    {rest : List Char} {value : α} {result : β} (first : Yields reader text value (more ++ rest))
    (second : Yields (next value) more result rest) :
    Yields (reader >>= next) (text ++ more) result rest := by
  intro cursor begins
  rw [List.append_assoc] at begins
  obtain ⟨between, between_rest, read⟩ := first cursor begins
  obtain ⟨after, after_rest, finished⟩ := second between between_rest
  refine ⟨after, after_rest, ?_⟩
  rw [run_bind, read]
  exact finished

theorem yields_then {reader : Read α} {next : α → Read β} {text rest : List Char} {value : α}
    {result : β} (first : Yields reader text value rest)
    (second : Yields (next value) [] result rest) : Yields (reader >>= next) text result rest := by
  have both := yields_bind text [] first second
  rwa [List.append_nil] at both

theorem yields_map {reader : Read α} {text rest : List Char} {value : α} (change : α → β)
    (reads : Yields reader text value rest) :
    Yields (do return change (← reader)) text (change value) rest := by
  intro cursor begins
  obtain ⟨after, after_rest, read⟩ := reads cursor begins
  refine ⟨after, after_rest, ?_⟩
  rw [run_bind, read]
  rfl

theorem advance_rest (text rest : List Char) (cursor : Cursor) (begins : cursor.rest = text ++ rest) :
    (cursor.advance text.length).rest = rest := by
  induction text generalizing cursor with
  | nil => exact begins
  | cons c more ih =>
      rw [List.length_cons, Cursor.advance, begins, List.cons_append]
      exact ih _ rfl

/-- A reader that looks at the place reached reads on from there. -/
theorem yields_get {next : Cursor → Read β} {text rest : List Char} {result : β}
    (reads : ∀ cursor : Cursor, cursor.rest = text ++ rest → Yields (next cursor) text result rest) :
    Yields (get >>= next) text result rest := by
  intro cursor begins
  obtain ⟨after, after_rest, read⟩ := reads cursor begins cursor begins
  refine ⟨after, after_rest, ?_⟩
  rw [run_bind, run_get]
  exact read

theorem yields_skip (text rest : List Char) : Yields (skip text.length) text () rest := by
  intro cursor begins
  exact ⟨_, advance_rest text rest cursor begins, rfl⟩

theorem yields_peek (c : Char) (rest : List Char) : Yields peek [] (some c) (c :: rest) := by
  intro cursor begins
  refine ⟨cursor, begins, ?_⟩
  rw [run_peek, begins]
  rfl

theorem yields_next (c : Char) (rest : List Char) : Yields next [c] (some c) rest := by
  unfold next
  refine yields_bind [] _ (yields_peek c rest) ?_
  exact yields_bind _ [] (yields_skip [c] rest) (yields_pure _ _)

theorem yields_peekPart {c : Char} (part : isSpace c = false) (rest : List Char) :
    Yields peekPart [] (some c) (c :: rest) := by
  intro cursor begins
  rw [List.nil_append] at begins
  refine ⟨cursor, begins, ?_⟩
  unfold peekPart
  rw [run_bind, run_get]
  dsimp only
  rw [begins, List.takeWhile_cons_of_neg (by rw [part]; exact Bool.false_ne_true), run_bind, run_skip]
  dsimp only [List.length_nil, Cursor.advance]
  rw [run_peek, begins]
  rfl

theorem yields_opening {c : Char} (part : isSpace c = false) (rest : List Char) :
    Yields opening [] c (c :: rest) := by
  unfold opening
  exact yields_bind _ [] (yields_peekPart part rest) (yields_pure c _)

theorem yields_literal (text rest : List Char) : Yields (literal text) text () rest := by
  induction text with
  | nil => exact yields_pure _ _
  | cons c more ih =>
      unfold literal
      refine yields_bind [c] _ (yields_next c _) ?_
      dsimp only
      rw [if_pos (beq_self_eq_true c)]
      exact ih

theorem yields_colon (rest : List Char) : Yields colon [':'] () rest := by
  unfold colon
  exact yields_bind [] _ (yields_peekPart rfl rest) (yields_skip [':'] rest)

theorem yields_boolean (value : Bool) (rest : List Char) :
    Yields boolean (if value then "true" else "false").toList (.bool value) rest := by
  unfold boolean
  cases value with
  | true =>
      refine yields_bind [] _ (yields_opening (c := 't') rfl _) ?_
      refine yields_bind ['t'] _ (yields_skip ['t'] _) ?_
      exact yields_bind ['r', 'u', 'e'] [] (yields_literal _ _) (yields_pure _ _)
  | false =>
      refine yields_bind [] _ (yields_opening (c := 'f') rfl _) ?_
      refine yields_bind ['f'] _ (yields_skip ['f'] _) ?_
      exact yields_bind ['a', 'l', 's', 'e'] [] (yields_literal _ _)
        (yields_pure _ _)

/-- A character that stands for itself in a string. -/
def Plain (c : Char) : Prop :=
  c ≠ '"' ∧ c ≠ '\\' ∧ 0x20 ≤ c.toNat

theorem yields_hexEscape {text : List Char} {values : List Nat} (four : text.length = 4)
    (known : text.mapM hexValue? = some values) (rest : List Char) :
    Yields hexEscape text (values.foldl (fun value digit => value * 16 + digit) 0) rest := by
  intro cursor begins
  have found : cursor.rest.take 4 = text := by
    rw [begins, ← four, List.take_left]
  have enough : ¬ text.foldl (fun size c => size + c.utf8Size) 0 < 4 := by
    match text, four with
    | [first, second, third, fourth], _ =>
        have := first.utf8Size_pos
        have := second.utf8Size_pos
        have := third.utf8Size_pos
        have := fourth.utf8Size_pos
        dsimp only [List.foldl]
        omega
  refine ⟨cursor.advance text.length, advance_rest text rest cursor begins, ?_⟩
  unfold hexEscape
  rw [run_bind, run_get]
  dsimp only
  rw [found, run_bind, run_skip]
  dsimp only
  rw [if_neg enough, known]
  rfl

theorem hexValue?_hexDigit {value : Nat} (small : value < 16) :
    hexValue? (hexDigit value) = some value := by
  have all : ∀ value < 16, hexValue? (hexDigit value) = some value := by decide
  exact all value small

theorem yields_unicode {c : Char} (control : c.toNat < 0x20) (rest : List Char) :
    Yields escape ['u', '0', '0', hexDigit (c.toNat / 16), hexDigit (c.toNat % 16)] c rest := by
  have known : ['0', '0', hexDigit (c.toNat / 16), hexDigit (c.toNat % 16)].mapM hexValue? =
      some [0, 0, c.toNat / 16, c.toNat % 16] := by
    simp [hexValue?_hexDigit (show c.toNat / 16 < 16 by omega),
      hexValue?_hexDigit (show c.toNat % 16 < 16 by omega), show hexValue? '0' = some 0 from rfl]
  have value : ([0, 0, c.toNat / 16, c.toNat % 16] : List Nat).foldl
      (fun value digit => value * 16 + digit) 0 = c.toNat := by
    dsimp only [List.foldl]
    omega
  unfold escape
  refine yields_bind ['u'] _ (yields_next 'u' _) ?_
  refine yields_bind _ [] (yields_hexEscape rfl known _) ?_
  rw [value, if_neg (by simp; omega), if_neg (by simp; omega), Char.ofNat_toNat]
  exact yields_pure _ _

section Characters

variable {c : Char} {count : Nat} {found more result rest : List Char}

theorem yields_marked {text : List Char} (escapes : Yields escape text c (more ++ rest))
    (others : Yields (characters count (c :: found)) more result rest) :
    Yields (characters (count + 1) found) ('\\' :: text ++ more) result rest := by
  unfold characters
  refine yields_bind ['\\'] _ (yields_next '\\' _) ?_
  exact yields_bind text more escapes others

theorem yields_unmarked (plain : Plain c)
    (others : Yields (characters count (c :: found)) more result rest) :
    Yields (characters (count + 1) found) (c :: more) result rest := by
  obtain ⟨noQuote, noSlash, printed⟩ := plain
  unfold characters
  refine yields_bind [c] _ (yields_next c _) ?_
  split
  · contradiction
  · rename_i same
    exact absurd (Option.some.inj same) noQuote
  · rename_i same
    exact absurd (Option.some.inj same) noSlash
  · rename_i other _ _ same
    obtain rfl := Option.some.inj same
    rwa [if_neg (by omega)]

theorem eq_of_toNat {code : Nat} (same : (c.toNat == code) = true) : c = Char.ofNat code := by
  rw [← beq_iff_eq.mp same, Char.ofNat_toNat]

theorem yields_escaped (others : Yields (characters count (c :: found)) more result rest) :
    Yields (characters (count + 1) found) (escaped c ++ more) result rest := by
  have named : ∀ {mark : Char}, Yields escape [mark] c (more ++ rest) →
      Yields (characters (count + 1) found) (['\\', mark] ++ more) result rest :=
    fun escapes => yields_marked escapes others
  unfold escaped
  split
  case isTrue same =>
    obtain rfl := beq_iff_eq.mp same
    exact named (yields_bind ['"'] [] (yields_next '"' _) (yields_pure _ _))
  split
  case isTrue same =>
    obtain rfl := beq_iff_eq.mp same
    exact named (yields_bind ['\\'] [] (yields_next '\\' _) (yields_pure _ _))
  split
  case isTrue same =>
    obtain rfl := eq_of_toNat same
    exact named (yields_bind ['b'] [] (yields_next 'b' _) (yields_pure _ _))
  split
  case isTrue same =>
    obtain rfl := eq_of_toNat same
    exact named (yields_bind ['f'] [] (yields_next 'f' _) (yields_pure _ _))
  split
  case isTrue same =>
    obtain rfl := beq_iff_eq.mp same
    exact named (yields_bind ['n'] [] (yields_next 'n' _) (yields_pure _ _))
  split
  case isTrue same =>
    obtain rfl := beq_iff_eq.mp same
    exact named (yields_bind ['r'] [] (yields_next 'r' _) (yields_pure _ _))
  split
  case isTrue same =>
    obtain rfl := beq_iff_eq.mp same
    exact named (yields_bind ['t'] [] (yields_next 't' _) (yields_pure _ _))
  split
  case isTrue control => exact yields_marked (yields_unicode control _) others
  case isFalse noQuote noSlash _ _ _ _ _ printed =>
    refine yields_unmarked ⟨?_, ?_, by omega⟩ others
    · exact fun same => noQuote (beq_iff_eq.mpr same)
    · exact fun same => noSlash (beq_iff_eq.mpr same)

end Characters

theorem yields_characters {text : List Char} {count : Nat} (enough : text.length < count)
    (found rest : List Char) :
    Yields (characters count found) (text.flatMap escaped ++ ['"']) (text.reverse ++ found) rest := by
  induction text generalizing count found with
  | nil =>
      obtain ⟨count, rfl⟩ := Nat.exists_eq_succ_of_ne_zero (Nat.ne_of_gt enough)
      unfold characters
      exact yields_bind ['"'] [] (yields_next '"' _) (yields_pure _ _)
  | cons c more ih =>
      obtain ⟨count, rfl⟩ := Nat.exists_eq_succ_of_ne_zero (Nat.ne_of_gt (Nat.zero_lt_of_lt enough))
      rw [List.flatMap_cons, List.append_assoc, List.reverse_cons, List.append_assoc]
      exact yields_escaped (ih (Nat.lt_of_succ_lt_succ enough) (c :: found))

theorem escaped_of_plain {c : Char} (plain : Plain c) : escaped c = [c] := by
  obtain ⟨noQuote, noSlash, printed⟩ := plain
  unfold escaped
  rw [if_neg (fun same => noQuote (beq_iff_eq.mp same)),
    if_neg (fun same => noSlash (beq_iff_eq.mp same))]
  simp only [beq_iff_eq]
  rw [if_neg (by omega), if_neg (by omega), if_neg, if_neg, if_neg, if_neg (by omega)]
  all_goals
    rintro rfl
    exact absurd printed (by decide)

theorem escaped_ne_nil (c : Char) : escaped c ≠ [] := by
  unfold escaped
  repeat' split
  all_goals exact List.cons_ne_nil _ _

theorem length_le_escaped (text : List Char) : text.length ≤ (text.flatMap escaped).length := by
  induction text with
  | nil => exact Nat.le_refl _
  | cons c more ih =>
      have one := List.length_pos_iff.mpr (escaped_ne_nil c)
      rw [List.flatMap_cons, List.length_append, List.length_cons]
      omega

theorem yields_string (text rest : List Char) :
    Yields string (text.flatMap escaped ++ ['"']) (String.ofList text) rest := by
  unfold string
  refine yields_get (fun cursor begins => ?_)
  have enough : text.length < cursor.rest.length + 1 := by
    have longer := length_le_escaped text
    rw [begins]
    simp only [List.length_append, List.length_singleton]
    omega
  refine yields_then (yields_characters enough [] rest) ?_
  rw [List.append_nil, List.reverse_reverse]
  exact yields_pure _ _

theorem yields_plainString {text : List Char} (plain : ∀ c ∈ text, Plain c) (rest : List Char) :
    Yields string (text ++ ['"']) (String.ofList text) rest := by
  have same : text.flatMap escaped = text := by
    induction text with
    | nil => rfl
    | cons c more ih =>
        rw [List.flatMap_cons, escaped_of_plain (plain c List.mem_cons_self),
          ih (fun other mem => plain other (List.mem_cons_of_mem c mem))]
        rfl
  have reads := yields_string text rest
  rwa [same] at reads

theorem yields_firstName {text : List Char} (plain : ∀ c ∈ text, Plain c) (rest : List Char) :
    Yields (fieldName? true) ('"' :: text ++ ['"']) (some (String.ofList text)) rest := by
  unfold fieldName?
  refine yields_bind [] _ (yields_peekPart (c := '"') rfl _) ?_
  refine yields_bind ['"'] _ (yields_skip ['"'] _) ?_
  exact yields_map some (yields_plainString plain _)

end Yields

/-! ### Records -/

theorem recordEntries_first {readers : List FieldReader} {reader : FieldReader}
    {name text : List Char} {value : Json} (count : Nat) {rest : List Char} {cursor : Cursor}
    (plain : ∀ c ∈ name, Plain c)
    (known : readers.find? (fun reader => reader.name == String.ofList name) = some reader)
    (reads : Yields reader.read text value rest)
    (begins : cursor.rest = ('"' :: name ++ ['"']) ++ (':' :: (text ++ rest))) :
    ∃ after : Cursor, after.rest = rest ∧
      (recordEntries readers (count + 1) true []).run cursor =
        (recordEntries readers count false [(String.ofList name, value)]).run after := by
  obtain ⟨named, named_rest, readName⟩ := yields_firstName plain _ cursor begins
  obtain ⟨colons, colons_rest, readColon⟩ := yields_colon (text ++ rest) named named_rest
  obtain ⟨after, after_rest, readValue⟩ := reads colons colons_rest
  refine ⟨after, after_rest, ?_⟩
  conv => lhs; unfold recordEntries
  rw [run_bind, readName]
  dsimp only
  rw [known]
  dsimp only
  rw [List.any_nil, if_neg Bool.false_ne_true, run_bind, readColon]
  dsimp only
  rw [run_bind, readValue]

theorem recordEntries_keeps {readers : List FieldReader} {count : Nat} {first : Bool}
    {found entries : List (String × Json)} {cursor after : Cursor}
    (read : (recordEntries readers count first found).run cursor = .ok (.ok entries, after))
    {name : String} {value : Json}
    (kept : found.find? (fun entry => entry.1 == name) = some (name, value)) :
    entries.find? (fun entry => entry.1 == name) = some (name, value) := by
  induction count generalizing first found cursor with
  | zero =>
      cases read
      exact kept
  | succ count ih =>
      unfold recordEntries at read
      obtain ⟨name?, named, _readName, read⟩ := bind_ok read
      cases name? with
      | none =>
          cases read
          exact kept
      | some other =>
          dsimp only at read
          cases known : readers.find? (fun reader => reader.name == other) with
          | none =>
              rw [known] at read
              obtain ⟨_, colons, _readColon, read⟩ := bind_ok read
              obtain ⟨_, begun, _begins, read⟩ := bind_ok read
              obtain ⟨_, passed, _pass, read⟩ := bind_ok read
              exact ih read kept
          | some reader =>
              rw [known] at read
              dsimp only at read
              split at read
              case isTrue repeated => cases read
              case isFalse new =>
                obtain ⟨_, colons, _readColon, read⟩ := bind_ok read
                obtain ⟨item, after, _readItem, read⟩ := bind_ok read
                refine ih read ?_
                rw [List.find?_cons_of_neg, kept]
                intro same
                have among := List.mem_of_find?_eq_some kept
                refine new (List.any_eq_true.mpr ⟨_, among, ?_⟩)
                exact beq_iff_eq.mpr (beq_iff_eq.mp same).symm

theorem filled_cons {found fields : List (String × Json)} {reader : FieldReader}
    {rest : List FieldReader} (fill : filled found (reader :: rest) = .ok fields) :
    ∃ value more, (((found.find? (fun entry => entry.1 == reader.name)).map Prod.snd <|>
      reader.absent) = some value) ∧ filled found rest = .ok more ∧
        fields = (reader.name, value) :: more := by
  unfold filled at fill
  split at fill
  case h_1 => cases fill
  case h_2 value present =>
    cases others : filled found rest with
    | error fault =>
        rw [others] at fill
        cases fill
    | ok more =>
        rw [others] at fill
        cases fill
        exact ⟨value, more, present, rfl, rfl⟩

/-- The fields of a record are those of its form, in order. -/
theorem filled_names {found fields : List (String × Json)} {readers : List FieldReader}
    (fill : filled found readers = .ok fields) :
    fields.map Prod.fst = readers.map FieldReader.name := by
  induction readers generalizing fields with
  | nil =>
      cases fill
      rfl
  | cons reader rest ih =>
      obtain ⟨value, more, _present, others, rfl⟩ := filled_cons fill
      rw [List.map_cons, List.map_cons, ih others]

theorem filled_value {found fields : List (String × Json)} {readers : List FieldReader}
    (fill : filled found readers = .ok fields) {name : String} {value : Json}
    (kept : found.find? (fun entry => entry.1 == name) = some (name, value)) :
    ∀ entry ∈ fields, entry.1 = name → entry.2 = value := by
  induction readers generalizing fields with
  | nil =>
      cases fill
      intro entry mem
      cases mem
  | cons reader rest ih =>
      obtain ⟨given, more, present, others, rfl⟩ := filled_cons fill
      intro entry mem same
      rcases List.mem_cons.mp mem with rfl | later
      · change reader.name = name at same
        rw [same, kept] at present
        exact (Option.some.inj present).symm
      · exact ih others entry later same

theorem run_failHere {α : Type} (fault : Fault) (cursor : Cursor) :
    (failHere fault : Read α).run cursor = .error (cursor.errorHere fault) := rfl

theorem failClosing_ne_ok {α : Type} {close : Char} {fault : Fault} {cursor after : Cursor}
    {value : α} : (failClosing close fault : Read α).run cursor ≠ .ok (value, after) := by
  intro read
  obtain ⟨part, between, _readPart, read⟩ := bind_ok read
  dsimp only at read
  split at read
  · obtain ⟨_, skipped, _skip, read⟩ := bind_ok read
    rw [run_failHere] at read
    cases read
  · rw [run_failHere] at read
    cases read

/-- A record that is read has the value that its text gives to its first field. -/
theorem record_first {form : String} {readers : List FieldReader} {reader : FieldReader}
    {name text rest : List Char} {value json : Json} {cursor after : Cursor}
    (plain : ∀ c ∈ name, Plain c)
    (known : readers.find? (fun reader => reader.name == String.ofList name) = some reader)
    (reads : Yields reader.read text value rest)
    (begins : cursor.rest = '{' :: (('"' :: name ++ ['"']) ++ (':' :: (text ++ rest))))
    (read : (record form readers).run cursor = .ok (json, after)) :
    json.field? (String.ofList name) = some value := by
  unfold record at read
  obtain ⟨first, opened, readFirst, read⟩ := bind_ok read
  obtain ⟨_, opened_rest, yieldsFirst⟩ := yields_opening (c := '{') rfl _ cursor begins
  rw [yieldsFirst] at readFirst
  cases readFirst
  obtain ⟨_, skipped, skip, read⟩ := bind_ok read
  obtain ⟨_, skipped_rest, yieldsSkip⟩ := yields_skip ['{'] _ opened opened_rest
  change StateT.run (Read.skip 1) opened = _ at yieldsSkip
  rw [yieldsSkip] at skip
  cases skip
  obtain ⟨_, same, got, read⟩ := bind_ok read
  cases got
  obtain ⟨found, between, entries, read⟩ := bind_ok read
  obtain ⟨later, _later_rest, begun⟩ := recordEntries_first
    _ plain known reads skipped_rest
  rw [begun] at entries
  split at read
  case h_1 fault _failed => exact absurd read failClosing_ne_ok
  case h_2 fields filled =>
    obtain ⟨_, closed, _close, finished⟩ := bind_ok read
    cases finished
    cases found with
    | error fault => cases filled
    | ok pairs =>
        have kept := recordEntries_keeps entries
          (List.find?_cons_of_pos (beq_iff_eq.mpr rfl))
        have values := filled_value filled kept
        have named : String.ofList name ∈ fields.map Prod.fst := by
          have holds := List.find?_some known
          rw [filled_names filled]
          exact List.mem_map.mpr ⟨reader, List.mem_of_find?_eq_some known, beq_iff_eq.mp holds⟩
        rw [Json.field?]
        cases located : fields.reverse.find? (fun field => field.1 == String.ofList name) with
        | none =>
            obtain ⟨entry, mem, same⟩ := List.mem_map.mp named
            refine absurd (beq_iff_eq.mpr same) ?_
            exact List.find?_eq_none.mp located entry (List.mem_reverse.mpr mem)
        | some entry =>
            have mem := List.mem_reverse.mp (List.mem_of_find?_eq_some located)
            have holds := List.find?_some located
            rw [Option.map_some, values entry mem (beq_iff_eq.mp holds)]

end DocDrift.Json.Read
