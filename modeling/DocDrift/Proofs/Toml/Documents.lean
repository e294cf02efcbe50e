import DocDrift.Proofs.Toml.Values

/-!
Documents of TOML text. A document with bare keys, whose values are strings, numbers and lists of
these, is read again from its text, line by line.
-/

set_option autoImplicit false

namespace DocDrift.Toml

open Read

/-! ### Keys -/

/-- A path of keys that are written without quotes. -/
structure KeyPath.Bare (path : KeyPath) : Prop where
  nonempty : path ≠ []
  short : path.length < depthLimit
  bare : ∀ key ∈ path, isBareKey key = true

theorem bareKey_cons {key : String} (bare : isBareKey key = true) :
    ∃ c more, key.toList = c :: more ∧ isBareKeyChar c = true ∧
      ∀ d ∈ key.toList, isBareKeyChar d = true := by
  have parts : key ≠ "" ∧ ∀ c ∈ key.toList, isBareKeyChar c = true := by
    simpa [isBareKey, isBareKeyChar] using bare
  have some : key.toList ≠ [] := by simpa using parts.1
  obtain ⟨c, more, begins⟩ := List.exists_cons_of_ne_nil some
  refine ⟨c, more, begins, ?_, parts.2⟩
  apply parts.2
  rw [begins]
  exact List.mem_cons_self

theorem not_space_of_bare {c : Char} (accepted : isBareKeyChar c = true) : isSpace c = false := by
  have space : c ≠ ' ' := ne_of_accepts accepted rfl
  have tab : c ≠ '\t' := ne_of_accepts accepted rfl
  simp [isSpace, space, tab]

/-- What stands behind a key: a point, the equals sign or a closing bracket. -/
def EndsKey (rest : List Char) : Prop :=
  ∃ mark more, rest = mark :: more ∧ (mark = '.' ∨ mark = '=' ∨ mark = ']')

theorem EndsKey.stops {accepts : Char → Bool} {rest : List Char} (ends : EndsKey rest)
    (clear : accepts '.' = false ∧ accepts '=' = false ∧ accepts ']' = false) :
    Stops accepts rest := by
  obtain ⟨mark, more, rfl, rfl | rfl | rfl⟩ := ends
  · exact stops_cons clear.1 more
  · exact stops_cons clear.2.1 more
  · exact stops_cons clear.2.2 more

def spacedKey : Read String := do
  spaces
  let name ← simpleKey
  spaces
  return name

/-- The blank behind a key, which stands only in front of a value. -/
def blankText (blank : Bool) : List Char :=
  if blank then [' '] else []

theorem takes_blank (blank : Bool) {rest : List Char} (stops : Stops isSpace rest) :
    Takes spaces (blankText blank) () rest := by
  apply takes_spaces _ stops
  cases blank <;> simp [blankText, isSpace]

theorem takes_spacedKey {key : String} (bare : isBareKey key = true) (blank : Bool)
    {rest : List Char} (ends : EndsKey rest) :
    Takes spacedKey (key.toList ++ blankText blank) key rest := by
  obtain ⟨c, more, begins, accepted, chars⟩ := bareKey_cons bare
  have behind : Stops isBareKeyChar (blankText blank ++ rest) := by
    cases blank with
    | true => exact stops_cons rfl _
    | false => exact ends.stops (by decide)
  have name : Takes simpleKey key.toList key (blankText blank ++ rest) := by
    have some : key.toList ≠ [] := by simp [begins]
    have taken := takes_map String.ofList (takes_some some chars behind)
    rw [String.ofList_toList] at taken
    exact takes_first _ taken
  unfold spacedKey
  apply takes_bind [] (key.toList ++ blankText blank)
  · apply takes_spaces (List.forall_mem_nil _)
    rw [begins]
    exact stops_cons (not_space_of_bare accepted) _
  apply takes_bind key.toList (blankText blank) name
  apply takes_last (takes_blank blank (ends.stops (by decide)))
  exact takes_pure key rest

def laterKeys (path : KeyPath) : List Char :=
  path.flatMap fun key => '.' :: key.toList

theorem takes_laterKey {key : String} (bare : isBareKey key = true) (blank : Bool)
    {rest : List Char} (ends : EndsKey rest) :
    Takes (do char '.'; spacedKey) ('.' :: (key.toList ++ blankText blank)) key rest := by
  apply takes_bind ['.'] _ (takes_char '.' _)
  exact takes_spacedKey bare blank ends

theorem repeats_keys {path : KeyPath} (bare : ∀ key ∈ path, isBareKey key = true)
    (nonempty : path ≠ []) (blank : Bool) {rest : List Char} (ends : EndsKey rest)
    (noPoint : rest.head? ≠ some '.') :
    Repeats (do char '.'; spacedKey) (laterKeys path ++ blankText blank) path rest := by
  induction path with
  | nil => contradiction
  | cons key path ih =>
      have isBare := bare key List.mem_cons_self
      cases path with
      | nil =>
          have last := takes_laterKey isBare blank ends
          have once := Repeats.more (List.cons_ne_nil _ _) last
            (.done (fails_bind _ (fails_char noPoint)))
          simpa [laterKeys] using once
      | cons next more =>
          have others := ih (fun other mem => bare other (List.mem_cons_of_mem key mem))
            (List.cons_ne_nil next more)
          have point : EndsKey (laterKeys (next :: more) ++ blankText blank ++ rest) :=
            ⟨'.', _, rfl, .inl rfl⟩
          have first := takes_laterKey isBare false point
          have all := Repeats.more (List.cons_ne_nil _ _) first others
          simpa [laterKeys, blankText] using all

theorem pathText_toList {key : String} {more : KeyPath}
    (bare : ∀ other ∈ key :: more, isBareKey other = true) :
    (pathText (key :: more)).toList = key.toList ++ laterKeys more := by
  induction more generalizing key with
  | nil =>
      have plain : keyText key = key := if_pos (bare key List.mem_cons_self)
      simp [pathText, laterKeys, plain]
  | cons next more ih =>
      have plain : keyText key = key := if_pos (bare key List.mem_cons_self)
      have others := ih (fun other mem => bare other (List.mem_cons_of_mem key mem))
      rw [pathText, List.map_cons, List.map_cons, String.intercalate_cons_cons,
        String.toList_append, String.toList_append, plain]
      rw [pathText, List.map_cons] at others
      rw [others]
      simp [laterKeys]

theorem KeyPath.Bare.takes {path : KeyPath} (bare : path.Bare) (blank : Bool) {rest : List Char}
    (ends : EndsKey rest) (noPoint : rest.head? ≠ some '.') :
    Takes key ((pathText path).toList ++ blankText blank) path rest := by
  obtain ⟨nonempty, short, each⟩ := bare
  have found : Takes (separated (char '.') spacedKey)
      ((pathText path).toList ++ blankText blank) path rest := by
    obtain ⟨first, more, rfl⟩ := List.exists_cons_of_ne_nil nonempty
    have isBare := each first List.mem_cons_self
    rw [pathText_toList each]
    cases more with
    | nil =>
        have noMore : Repeats (do char '.'; spacedKey) [] [] rest :=
          .done (fails_bind _ (fails_char noPoint))
        have one : Takes spacedKey _ first ([] ++ rest) := takes_spacedKey isBare blank ends
        have only := takes_separated one noMore
        simpa [laterKeys] using only
    | cons next more =>
        have others := repeats_keys (fun other mem => each other (List.mem_cons_of_mem first mem))
          (List.cons_ne_nil next more) blank ends noPoint
        have point : EndsKey (laterKeys (next :: more) ++ blankText blank ++ rest) :=
          ⟨'.', _, rfl, .inl rfl⟩
        have all := takes_separated (takes_spacedKey isBare false point) others
        simpa [blankText] using all
  unfold key
  apply takes_last found
  apply takes_last (takes_ensure (decide_eq_true short) rest)
  exact takes_pure path rest

theorem KeyPath.Bare.begins {path : KeyPath} (bare : path.Bare) :
    ∃ c more, (pathText path).toList = c :: more ∧ isBareKeyChar c = true := by
  obtain ⟨first, more, rfl⟩ := List.exists_cons_of_ne_nil bare.nonempty
  obtain ⟨c, others, begins, accepted, _⟩ := bareKey_cons (bare.bare first List.mem_cons_self)
  rw [pathText_toList bare.bare, begins]
  exact ⟨c, _, rfl, accepted⟩

/-! ### Statements -/

/-- A statement with bare keys and a plain value. -/
def Statement.Plain : Statement → Prop
  | .table path => path.Bare
  | .element path => path.Bare
  | .entry path value => path.Bare ∧ value.Plain

theorem Value.Plain.begins {value : Value} (plain : value.Plain) (rest : List Char) :
    Stops isSpace (value.render.toList ++ rest) := by
  cases plain with
  | leaf leaf => exact (leaf.begins rest).imp space_of_gap
  | @list items leaves =>
      match items with
      | [] =>
          rw [render_none]
          exact stops_cons rfl _
      | [item] =>
          rw [render_one]
          exact stops_cons rfl _
      | item :: next :: more =>
          rw [render_lines]
          exact stops_cons rfl _

theorem endsKey_closing (rest : List Char) : EndsKey (']' :: rest) :=
  ⟨']', rest, rfl, .inr (.inr rfl)⟩

theorem takes_tableHeader {path : KeyPath} (bare : path.Bare) (rest : List Char) :
    Takes header ('[' :: ((pathText path).toList ++ [']'])) (.table path) rest := by
  obtain ⟨c, more, begins, accepted⟩ := bare.begins
  have other : c ≠ '[' := ne_of_accepts accepted rfl
  have single : Fails (literal ['[', '[']) ('[' :: ((pathText path).toList ++ [']']) ++ rest) := by
    rw [begins]
    simp [Fails, literal, List.isPrefixOf, other.symm]
  have path := bare.takes false (endsKey_closing rest) (by simp)
  unfold header
  apply takes_second (fails_bind _ single)
  apply takes_bind ['['] _ (takes_char '[' _)
  apply takes_bind (pathText _).toList [']'] (by simpa [blankText] using path)
  apply takes_last (takes_char ']' rest)
  exact takes_pure _ rest

theorem takes_elementHeader {path : KeyPath} (bare : path.Bare) (rest : List Char) :
    Takes header ('[' :: '[' :: ((pathText path).toList ++ [']', ']'])) (.element path) rest := by
  have path := bare.takes false (endsKey_closing (']' :: rest)) (by simp)
  unfold header
  apply takes_first
  apply takes_bind ['[', '['] _ (takes_literal ['[', '['] _)
  apply takes_bind (pathText _).toList [']', ']'] (by simpa [blankText] using path)
  apply takes_last (takes_literal [']', ']'] rest)
  exact takes_pure _ rest

theorem takes_entry {path : KeyPath} {written : Value} (bare : path.Bare) (plain : written.Plain)
    {rest : List Char} (ends : Ends rest) :
    Takes statement ((pathText path).toList ++ ' ' :: '=' :: ' ' :: written.render.toList)
      (.entry path written) rest := by
  obtain ⟨c, more, begins, accepted⟩ := bare.begins
  have other : c ≠ '[' := ne_of_accepts accepted rfl
  have noHeader : ∀ behind, Fails header ((pathText path).toList ++ behind) := by
    intro behind
    rw [begins]
    apply fails_either
    · exact fails_bind _ (fails_literal _ (by simpa using other))
    · exact fails_bind _ (fails_char (by simpa using other))
  have sign : EndsKey ('=' :: ' ' :: (written.render.toList ++ rest)) :=
    ⟨'=', _, rfl, .inr (.inl rfl)⟩
  have keys := bare.takes true sign (by simp)
  have found : Takes (keyValue (value (depthLimit - 1)))
      ((pathText path).toList ++ [' '] ++ '=' :: ' ' :: written.render.toList) (path, written)
      rest := by
    unfold keyValue
    apply takes_bind _ _ keys
    apply takes_bind ['='] _ (takes_char '=' _)
    apply takes_bind [' '] _ (takes_blank true (plain.begins rest))
    apply takes_last (plain.takes ends)
    exact takes_pure _ rest
  rw [List.append_assoc] at found
  unfold statement
  apply takes_second (by simpa using noHeader _)
  apply takes_last found
  exact takes_pure _ rest

/-! ### Lines -/

theorem takes_trailing (rest : List Char) : Takes trailing ['\n'] () rest := by
  unfold trailing
  apply takes_bind [] ['\n'] (takes_spaces (List.forall_mem_nil _) (stops_cons rfl _))
  apply takes_bind [] ['\n'] (takes_nothing (fails_comment (by simp)))
  exact takes_first _ (takes_newline rest)

theorem takes_statementLine {text : List Char} {written : Statement} {rest : List Char}
    (begins : Stops isSpace (text ++ ['\n'] ++ rest))
    (found : Takes statement text written ('\n' :: rest)) :
    Takes line (text ++ ['\n']) [written] rest := by
  unfold line
  apply takes_bind [] _ (takes_spaces (List.forall_mem_nil _) begins)
  apply takes_first
  apply takes_bind text ['\n'] found
  apply takes_last (takes_trailing rest)
  exact takes_pure _ rest

theorem takes_emptyLine (rest : List Char) : Takes line ['\n'] [] rest := by
  have none : Fails statement ('\n' :: rest) := by rfl
  unfold line
  apply takes_bind [] _ (takes_spaces (List.forall_mem_nil _) (stops_cons rfl _))
  apply takes_second (fails_bind _ none)
  apply takes_last (takes_trailing rest)
  exact takes_pure _ rest

theorem Statement.Plain.takes {written : Statement} (plain : written.Plain) (rest : List Char) :
    Takes line written.render.toList [written] rest := by
  cases written with
  | table path =>
      have taken := takes_statementLine (stops_cons rfl _)
        (takes_first _ (takes_tableHeader plain ('\n' :: rest)))
      simpa [Statement.render] using taken
  | element path =>
      have taken := takes_statementLine (stops_cons rfl _)
        (takes_first _ (takes_elementHeader plain ('\n' :: rest)))
      simpa [Statement.render] using taken
  | entry path value =>
      obtain ⟨bare, plain⟩ := plain
      have ends : Ends ('\n' :: rest) := by
        intro c first
        cases first
        exact .inl rfl
      have begins : Stops isSpace ((pathText path).toList ++ ' ' :: '=' :: ' ' ::
          value.render.toList ++ ['\n'] ++ rest) := by
        obtain ⟨c, more, begins, accepted⟩ := bare.begins
        rw [begins]
        exact stops_cons (not_space_of_bare accepted) _
      have taken := takes_statementLine begins (takes_entry bare plain ends)
      simpa [Statement.render] using taken

/-- A text of lines with some statements. -/
inductive Lines : List Char → Document → Prop
  | none : Lines [] []
  | line {text others : List Char} {found document : Document} (nonempty : text ≠ [])
      (takes : ∀ rest, Takes line text found rest) (behind : Lines others document) :
      Lines (text ++ others) (found ++ document)

theorem Lines.takes {text : List Char} {document : Document} (lines : Lines text document)
    {count : Nat} (enough : text.length ≤ count) :
    Takes (linesUpTo count) text document [] := by
  induction lines generalizing count with
  | none => cases count <;> rfl
  | @line text others found document nonempty takes behind ih =>
      have pos := List.length_pos_iff.mpr nonempty
      rw [List.length_append] at enough
      obtain ⟨count, rfl⟩ := Nat.exists_eq_succ_of_ne_zero (show count ≠ 0 by omega)
      have more : Takes (accepts finish) [] false (text ++ others ++ []) := by
        obtain ⟨c, more, rfl⟩ := List.exists_cons_of_ne_nil nonempty
        rfl
      unfold linesUpTo
      apply takes_bind [] _ more
      apply takes_bind text others (takes _)
      apply takes_last (ih (by omega))
      exact takes_pure _ []

theorem Statement.render_nonempty (written : Statement) : written.render.toList ≠ [] := by
  cases written <;> simp [Statement.render]

theorem lines_renderRest {document : Document} (plain : ∀ written ∈ document, written.Plain) :
    Lines (renderRest document).toList document := by
  induction document with
  | nil => exact .none
  | cons written document ih =>
      have others := ih (fun other mem => plain other (List.mem_cons_of_mem written mem))
      have first := Lines.line written.render_nonempty (plain written List.mem_cons_self).takes
        others
      rw [renderRest, String.toList_append, String.toList_append]
      split
      · have blank := Lines.line (List.cons_ne_nil '\n' []) takes_emptyLine first
        simpa using blank
      · simpa using first

theorem lines_render {document : Document} (plain : ∀ written ∈ document, written.Plain) :
    Lines document.render.toList document := by
  cases document with
  | nil => exact .none
  | cons written document =>
      have others := lines_renderRest
        (fun other mem => plain other (List.mem_cons_of_mem written mem))
      have all := Lines.line written.render_nonempty (plain written List.mem_cons_self).takes
        others
      rw [Document.render, String.toList_append]
      exact all

theorem Statement.Plain.begins {written : Statement} (plain : written.Plain) :
    ∃ c more, written.render.toList = c :: more ∧ (c = '[' ∨ isBareKeyChar c = true) := by
  cases written with
  | table path =>
      refine ⟨'[', (pathText path).toList ++ [']', '\n'], ?_, .inl rfl⟩
      simp [Statement.render]
  | element path =>
      refine ⟨'[', '[' :: (pathText path).toList ++ [']', ']', '\n'], ?_, .inl rfl⟩
      simp [Statement.render]
  | entry path value =>
      obtain ⟨c, more, begins, accepted⟩ := plain.1.begins
      refine ⟨c, more ++ " = ".toList ++ value.render.toList ++ ['\n'], ?_, .inr accepted⟩
      simp [Statement.render, begins]

theorem no_byteOrderMark {document : Document} (plain : ∀ written ∈ document, written.Plain) :
    document.render.toList.head? ≠ some (Char.ofNat 0xFEFF) := by
  intro mark
  cases document with
  | nil => cases mark
  | cons written document =>
      obtain ⟨c, more, begins, known⟩ := (plain written List.mem_cons_self).begins
      rw [Document.render, String.toList_append, begins] at mark
      obtain rfl : c = Char.ofNat 0xFEFF := Option.some.inj mark
      exact absurd known (by decide)

/-- A document of plain statements is read again from its text. -/
theorem ofText?_render {document : Document} (plain : ∀ written ∈ document, written.Plain) :
    Document.ofText? document.render = some document := by
  have read := (lines_render plain).takes (Nat.le_refl _)
  have noMark : (document.render.toList.head? == some (Char.ofNat 0xFEFF)) = false :=
    beq_eq_false_iff_ne.mpr (no_byteOrderMark plain)
  unfold Takes at read
  rw [List.append_nil] at read
  unfold Document.ofText?
  dsimp only
  rw [noMark, if_neg Bool.false_ne_true, read]
  rfl

end DocDrift.Toml
