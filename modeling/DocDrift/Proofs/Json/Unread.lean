import DocDrift.Proofs.Json.FloatText
import DocDrift.Proofs.Json.Holding

/-!
Texts that are written and not read again. A number that is not finite is written as `null`, which a
reader of numbers refuses; with it the record is refused that has such a number in a field.
-/

set_option autoImplicit false

namespace DocDrift

/-! ### Numbers that are not finite -/

namespace Decimal

/-- The exponent field of a number that is not finite has all bits set. -/
theorem power_of_not_isFinite {x : Float} (infinite : x.isFinite = false) :
    (x.toBits.toNat >>> 52) % 2048 = 0x7FF := by
  by_contra below
  have field : @Float.Model.UnpackedFloat.unpackExponent Float.Model.Format.binary64
      x.toModel.toBits.toBitVec ≠ -1#11 := by
    intro top
    have value := congrArg BitVec.toNat top
    rw [Float.Model.UnpackedFloat.unpackExponent, BitVec.toNat_cast, BitVec.extractLsb_toNat]
      at value
    exact below value
  change (Float.Model.UnpackedFloat.unpack Float.Model.Format.binary64
    x.toModel.toBits.toBitVec).isFinite = false at infinite
  rw [Float.Model.UnpackedFloat.unpack] at infinite
  dsimp only at infinite
  rw [if_neg field] at infinite
  split at infinite
  · split at infinite <;> cases infinite
  · cases infinite

theorem finiteText?_of_not_isFinite {x : Float} (infinite : x.isFinite = false)
    (style : FloatStyle) : style.finiteText? x = none := by
  have top := power_of_not_isFinite infinite
  rw [FloatStyle.finiteText?, Value.ofFloat, if_pos (beq_iff_eq.mpr top)]
  split <;> rename_i found
  · split at found <;> cases found
  · rfl

end Decimal

namespace Json

theorem real_compact_of_not_isFinite {x : Float} (infinite : x.isFinite = false) :
    (Json.real x).compact = "null" := by
  rw [compact, realText, Decimal.finiteText?_of_not_isFinite infinite]
  rfl

/-! ### Readers that fail -/

namespace Read

/-- A reader gives nothing of a text. -/
def Fails {α : Type} (reader : Read α) (text : List Char) : Prop :=
  ∀ (cursor after : Cursor) (value : α), cursor.rest = text →
    reader.run cursor ≠ .ok (value, after)

section Fails

variable {α β : Type} {reader : Read α} {next : α → Read β} {text rest : List Char}

theorem fails_of_gives (never : Gives reader fun _ => False) (text : List Char) :
    Fails reader text :=
  fun cursor after value _begins read => never cursor after value read

theorem fails_bind (fails : Fails reader text) : Fails (reader >>= next) text := by
  intro cursor after result begins read
  obtain ⟨value, between, first, _second⟩ := bind_ok read
  exact fails cursor between value begins first

theorem fails_behind {value : α} (text : List Char) (reads : Yields reader text value rest)
    (fails : Fails (next value) rest) : Fails (reader >>= next) (text ++ rest) := by
  intro cursor after result begins read
  obtain ⟨between, between_rest, first⟩ := reads cursor begins
  rw [run_bind, first] at read
  exact fails between after result between_rest read

theorem fails_get {next : Cursor → Read β}
    (fails : ∀ cursor : Cursor, cursor.rest = text → Fails (next cursor) text) :
    Fails (get >>= next) text := by
  intro cursor after result begins read
  rw [run_bind, run_get] at read
  exact fails cursor begins cursor after result begins read

end Fails

theorem floating_fails (rest : List Char) : Fails floating ('n' :: rest) := by
  unfold floating
  refine fails_behind [] (yields_opening (c := 'n') rfl rest) ?_
  rw [if_neg (by decide)]
  exact fails_of_gives (gives_refuse _) _

/-! ### Records with a field that is refused -/

theorem any_name (found : List (String × Json)) (name : String) :
    found.any (fun entry => entry.1 == name) = decide (name ∈ found.map Prod.fst) := by
  simp [List.any_eq]

section Fields

variable {readers : List FieldReader} {reader : FieldReader} {name : String} {count : Nat}
  {found : List (String × Json)}

theorem fails_field {text : List Char} (first : Bool)
    (known : readers.find? (fun reader => reader.name == name) = some reader)
    (fresh : name ∉ found.map Prod.fst) (fails : Fails reader.read text) :
    Fails (recordEntries readers (count + 1) first found)
      (comma first ++ ('"' :: name.toList.flatMap escaped ++ ['"']) ++ (':' :: text)) := by
  unfold recordEntries
  refine fails_behind _ (yields_fieldName first name _) ?_
  dsimp only
  rw [known]
  dsimp only
  rw [if_neg (by rwa [any_name, decide_eq_true_iff])]
  exact fails_behind [':'] (yields_colon _) (fails_bind fails)

/-- A field behind the one that is next is refused. -/
theorem fails_later {text more : List Char} {value : Json} (first : Bool)
    (known : readers.find? (fun reader => reader.name == name) = some reader)
    (fresh : name ∉ found.map Prod.fst) (reads : Yields reader.read text value more)
    (fails : Fails (recordEntries readers count false ((name, value) :: found)) more) :
    Fails (recordEntries readers (count + 1) first found)
      (comma first ++ ('"' :: name.toList.flatMap escaped ++ ['"']) ++ (':' :: (text ++ more))) := by
  unfold recordEntries
  refine fails_behind _ (yields_fieldName first name _) ?_
  dsimp only
  rw [known]
  dsimp only
  rw [if_neg (by rwa [any_name, decide_eq_true_iff])]
  refine fails_behind [':'] (yields_colon _) ?_
  exact fails_behind text reads fails

theorem fails_record {form : String} {text : List Char}
    (fails : ∀ count, text.length < count → Fails (recordEntries readers count true []) text) :
    Fails (record form readers) ('{' :: text) := by
  unfold record
  refine fails_behind [] (yields_opening (c := '{') rfl text) ?_
  refine fails_behind ['{'] (yields_skip ['{'] text) ?_
  refine fails_get fun cursor begins => fails_bind (fails _ ?_)
  rw [begins]
  exact Nat.lt_succ_self _

end Fields

theorem fails_secondField (form : String) {name other : String} {schema otherSchema : Schema}
    {fallback otherFallback : Option Json} {fields : List (String × Schema × Option Json)}
    {written read refused : Json} {more : List (String × Json)}
    (distinct : (((name, schema, fallback) :: (other, otherSchema, otherFallback) :: fields).map
      Prod.fst).Nodup)
    (rereads : Rereads schema written read)
    (fails : ∀ rest, Fails (value otherSchema) (refused.compact.toList ++ rest)) :
    Fails (value (.record form ((name, schema, fallback) :: (other, otherSchema, otherFallback) ::
      fields))) (object ((name, written) :: (other, refused) :: more)).compact.toList := by
  have shape : separated (((name, written) :: (other, refused) :: more).map fieldText) ++ ['}'] =
      comma true ++ ('"' :: name.toList.flatMap escaped ++ ['"']) ++ (':' ::
        (written.compact.toList ++ (comma false ++ ('"' :: other.toList.flatMap escaped ++ ['"']) ++
          (':' :: (refused.compact.toList ++
            ((more.map fieldText).flatMap (',' :: ·) ++ ['}'])))))) := by
    simp [separated, fieldText, comma]
  rw [value, object_toList, shape]
  refine fails_record fun count enough => ?_
  obtain ⟨count, rfl⟩ : ∃ less, count = less + 2 := by
    refine Nat.exists_eq_add_of_le' (Nat.lt_of_le_of_lt ?_ enough)
    simp only [List.length_append, List.length_cons]
    omega
  obtain ⟨reader, known, reads⟩ := find?_fieldReaders distinct List.mem_cons_self
  obtain ⟨otherReader, otherKnown, otherReads⟩ := find?_fieldReaders distinct
    (List.mem_cons_of_mem _ List.mem_cons_self)
  have different : other ≠ name := fun same => (List.nodup_cons.mp distinct).1 (by simp [same])
  have valued := rereads.yields (comma false ++ ('"' :: other.toList.flatMap escaped ++ ['"']) ++
    (':' :: (refused.compact.toList ++ ((more.map fieldText).flatMap (',' :: ·) ++ ['}']))))
    (.inl rfl)
  refine fails_later true known List.not_mem_nil (reads ▸ valued) ?_
  exact fails_field false otherKnown (by simpa using different) (otherReads ▸ fails _)

end Read

theorem ofText_of_fails {schema : Schema} {text : String}
    (fails : Read.Fails (Read.value schema) text.toList) :
    ∃ error, Json.ofText schema text = .error error := by
  have whole : Read.Fails (Read.document schema) text.toList := Read.fails_bind fails
  rw [Json.ofText]
  cases read : (Read.document schema).run (Cursor.start text) with
  | ok found => exact absurd read (whole _ found.2 found.1 rfl)
  | error error => exact ⟨error, rfl⟩

theorem ofText_real_of_not_isFinite {x : Float} (infinite : x.isFinite = false) :
    ∃ error, Json.ofText .real (Json.real x).compact = .error error := by
  rw [real_compact_of_not_isFinite infinite]
  refine ofText_of_fails ?_
  rw [Read.value]
  exact Read.floating_fails _

/-! ### Numbers that survive -/

/-- A number is read again from its text as the same number. -/
def Survives (x : Float) : Prop :=
  Json.ofText .real (Json.real x).compact = .ok (.real x)

theorem Survives.isFinite {x : Float} (survives : Survives x) : x.isFinite = true := by
  by_contra infinite
  obtain ⟨error, failed⟩ := ofText_real_of_not_isFinite (Bool.not_eq_true _ ▸ infinite)
  cases survives.symm.trans failed

/-- A finite number is read as one number, and that is itself just when it survives. -/
theorem rereads_real_iff {x : Float} (finite : x.isFinite = true) :
    ∃ y, Rereads .real (.real x) (.real y) ∧ (Survives x ↔ y = x) := by
  obtain ⟨y, rereads⟩ := Rereads.real finite
  refine ⟨y, rereads, ?_⟩
  rw [Survives, rereads.ofText, Except.ok.injEq, Json.real.injEq]

end Json

end DocDrift
