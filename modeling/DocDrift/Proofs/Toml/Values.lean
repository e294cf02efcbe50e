import DocDrift.Proofs.Toml.Numbers

/-!
Values of TOML text. Strings, numbers and lists of these are read again from the text that is written
for them; a list has its items on lines of their own if there is more than one.
-/

set_option autoImplicit false

namespace DocDrift.Toml

open Read

/-! ### Blanks -/

/-- A character that may stand in a gap between the items of a list. -/
def isGap (c : Char) : Bool :=
  isSpace c || c == '\n' || c == '\r' || c == '#'

theorem takes_spaces {blanks rest : List Char} (all : ∀ c ∈ blanks, isSpace c = true)
    (stops : Stops isSpace rest) : Takes spaces blanks () rest :=
  takes_last (takes_span all stops) (takes_pure () rest)

theorem fails_comment {rest : List Char} (other : rest.head? ≠ some '#') : Fails comment rest :=
  fails_bind _ (fails_char other)

theorem takes_newline (rest : List Char) : Takes newline ['\n'] () rest :=
  takes_first _ (takes_char '\n' rest)

theorem fails_newline {rest : List Char} (stops : Stops isGap rest) : Fails newline rest := by
  apply fails_either
  · apply fails_char
    intro first
    cases stops '\n' first
  · apply fails_literal
    intro first
    cases stops '\r' first

theorem space_of_gap (c : Char) (clear : isGap c = false) : isSpace c = false := by
  simp only [isGap, Bool.or_eq_false_iff] at clear
  exact clear.1.1.1

theorem comment_of_gap {rest : List Char} (stops : Stops isGap rest) :
    rest.head? ≠ some '#' := by
  intro first
  cases stops '#' first

/-- A text that is taken as a gap, if nothing behind it is one. -/
def Blank (text : List Char) : Prop :=
  ∀ rest, Stops isGap rest → Takes gap text () rest

theorem repeats_gap {rest : List Char} (stops : Stops isGap rest) :
    Repeats (do let _ ← maybe comment; newline; spaces) [] [] rest := by
  apply Repeats.done
  apply fails_behind [] (takes_nothing (fails_comment (comment_of_gap stops)))
  exact fails_bind _ (fails_newline stops)

theorem blank_nil : Blank [] := by
  intro rest stops
  unfold gap
  apply takes_bind [] [] (takes_spaces (List.forall_mem_nil _) (stops.imp space_of_gap))
  apply takes_last (takes_many (repeats_gap stops))
  exact takes_pure () rest

theorem blank_line {blanks : List Char} (all : ∀ c ∈ blanks, isSpace c = true) :
    Blank ('\n' :: blanks) := by
  intro rest stops
  have line : Takes (do let _ ← maybe comment; newline; spaces) ('\n' :: blanks) () ([] ++ rest) := by
    apply takes_bind [] _ (takes_nothing (fails_comment (by simp)))
    apply takes_bind ['\n'] blanks (takes_newline _)
    exact takes_spaces all (stops.imp space_of_gap)
  have lines := takes_many (.more (List.cons_ne_nil _ _) line (repeats_gap stops))
  rw [List.append_nil] at lines
  unfold gap
  apply takes_bind [] _ (takes_spaces (List.forall_mem_nil _) (stops_cons rfl _))
  apply takes_last lines
  exact takes_pure () rest

/-! ### Values -/

/-- A value that is not made of values and is read again from its text. -/
def Value.Leaf : Value → Prop
  | .integer value => -9223372036854775808 ≤ value ∧ value ≤ 9223372036854775807
  | .float x => x.isNaN = false ∧ (x.isFinite = true → Exact x)
  | .text _ => True
  | _ => False

theorem Value.Leaf.takes {value : Value} (leaf : value.Leaf) {rest : List Char}
    (ends : Ends rest) : Takes simpleValue value.render.toList value rest := by
  cases value with
  | boolean _ | moment _ | list _ | inline _ => exact leaf.elim
  | integer number =>
      rw [Value.render]
      exact takes_integer leaf ends
  | float x =>
      rw [Value.render]
      exact takes_floatText leaf.1 leaf.2 ends
  | text content =>
      rw [Value.render]
      unfold simpleValue
      exact takes_first _ (takes_map _ (takes_string content (ends.stops (by decide))))

theorem not_gap_of_digit (c : Char) (digit : c.isDigit = true) : isGap c = false := by
  simp [isGap, isSpace, ne_of_accepts digit]

theorem signed_stops {accepts : Char → Bool} (minus : accepts '-' = false) {text : List Char}
    (stops : Stops accepts text) (negative : Bool) : Stops accepts (signText negative ++ text) := by
  cases negative with
  | true => exact stops_cons minus text
  | false => exact stops

theorem Value.Leaf.begins {value : Value} (leaf : value.Leaf) (rest : List Char) :
    Stops isGap (value.render.toList ++ rest) := by
  cases value with
  | boolean _ | moment _ | list _ | inline _ => exact leaf.elim
  | integer number =>
      rw [Value.render, toString_toList, List.append_assoc]
      apply signed_stops rfl
      exact stops_of_digit not_gap_of_digit (Json.leads_toDigits _) rest
  | float x =>
      rw [Value.render]
      cases finite : x.isFinite with
      | true =>
          obtain ⟨negative, whole, part, text, leads, _, _⟩ := floatText_pointed finite
          rw [text, List.append_assoc, List.append_assoc]
          exact signed_stops rfl (stops_of_digit not_gap_of_digit leads _) negative
      | false =>
          obtain ⟨negative, infinite, _⟩ := infinite_cases leaf.1 finite
          rw [floatText_infinite infinite, List.append_assoc]
          exact signed_stops rfl (stops_cons rfl _) negative
  | text content =>
      obtain ⟨quote, more, text, known⟩ := stringText_begins content
      rw [Value.render, text]
      have quotes : quote = '"' ∨ quote = '\'' := by simpa [isQuote] using known
      obtain rfl | rfl := quotes
      · exact stops_cons rfl _
      · exact stops_cons rfl _

/-- A value that is a leaf, or a list of leaves. -/
inductive Value.Plain : Value → Prop
  | leaf {value : Value} (leaf : value.Leaf) : Plain value
  | list {items : List Value} (leaves : ∀ item ∈ items, item.Leaf) : Plain (.list items)

theorem fails_simple_bracket {c : Char} (bracket : c = '[' ∨ c = ']') (rest : List Char) :
    Fails simpleValue (c :: rest) := by
  obtain rfl | rfl := bracket <;> rfl

theorem fails_value_closing (depth : Nat) (rest : List Char) :
    Fails (value depth) (']' :: rest) := by
  have simple := fails_simple_bracket (.inr rfl) rest
  cases depth with
  | zero => exact simple
  | succ depth =>
      unfold value
      apply fails_either simple
      apply fails_either
      · exact fails_bind _ (fails_char (by simp))
      · exact fails_bind _ (fails_literal _ (by simp))

theorem Value.Leaf.takes_value {leaf : Value} (isLeaf : leaf.Leaf) (depth : Nat) {rest : List Char}
    (ends : Ends rest) : Takes (value depth) leaf.render.toList leaf rest := by
  have simple := isLeaf.takes ends
  cases depth with
  | zero => exact simple
  | succ depth => exact takes_first _ simple

/-- An item of a list with the blanks around it. -/
def padded (item : Read Value) : Read Value := do
  gap
  let value ← item
  gap
  return value

theorem ends_mark {mark : Char} (known : mark = ',' ∨ mark = ']') (rest : List Char) :
    Ends (mark :: rest) := by
  intro c first
  cases first
  exact .inr known

theorem stops_mark {mark : Char} (known : mark = ',' ∨ mark = ']') (rest : List Char) :
    Stops isGap (mark :: rest) :=
  stops_cons (by obtain rfl | rfl := known <;> rfl) rest

theorem takes_padded {before : List Char} (blank : Blank before) {item : Value}
    (leaf : item.Leaf) (depth : Nat) {mark : Char} (known : mark = ',' ∨ mark = ']')
    (rest : List Char) :
    Takes (padded (value depth)) (before ++ item.render.toList) item (mark :: rest) := by
  unfold padded
  apply takes_bind _ _ (blank _ (leaf.begins _))
  apply takes_last (leaf.takes_value depth (ends_mark known rest))
  apply takes_last (blank_nil _ (stops_mark known rest))
  exact takes_pure item _

theorem fails_padded {before : List Char} (blank : Blank before) (depth : Nat) (rest : List Char) :
    Fails (padded (value depth)) (before ++ ']' :: rest) := by
  unfold padded
  apply fails_behind _ (blank _ (stops_mark (.inr rfl) rest))
  exact fails_bind _ (fails_value_closing depth rest)

/-- What stands in front of an item on a line of its own. -/
def indent : List Char :=
  ['\n', ' ', ' ', ' ', ' ']

theorem blank_indent : Blank indent :=
  blank_line (by simp [isSpace])

/-- The items of a list behind the first one, each on a line of its own. -/
theorem repeats_items {items : List Value} (leaves : ∀ item ∈ items, item.Leaf) (depth : Nat)
    (rest : List Char) :
    Repeats (do char ','; padded (value depth))
      (items.flatMap fun item => ',' :: (indent ++ item.render.toList)) items
      (',' :: '\n' :: ']' :: rest) := by
  induction items with
  | nil =>
      apply Repeats.done
      apply fails_behind _ (takes_char ',' _)
      exact fails_padded (blank_line (List.forall_mem_nil _)) depth rest
  | cons item items ih =>
      have others := ih (fun other mem => leaves other (List.mem_cons_of_mem item mem))
      rw [List.flatMap_cons]
      apply Repeats.more (List.cons_ne_nil _ _) _ others
      apply takes_bind [','] _ (takes_char ',' _)
      have leaf := leaves item List.mem_cons_self
      cases items with
      | nil => exact takes_padded blank_indent leaf depth (.inl rfl) _
      | cons next more => exact takes_padded blank_indent leaf depth (.inl rfl) _

theorem renderItems_toList (item : Value) (items : List Value) :
    '\n' :: (renderItems (item :: items)).toList =
      indent ++ item.render.toList ++
        (items.flatMap fun item => ',' :: (indent ++ item.render.toList)) ++ [',', '\n'] := by
  induction items generalizing item with
  | nil => simp [renderItems, indent]
  | cons next items ih =>
      have behind := ih next
      rw [renderItems]
      simp [indent] at behind ⊢
      exact behind

theorem takes_noItems (depth : Nat) (rest : List Char) :
    Takes (listItems (value depth)) [] [] (']' :: rest) := by
  have none : Fails (padded (value depth)) (']' :: rest) := fails_padded blank_nil depth rest
  unfold listItems
  apply takes_bind [] [] (takes_nothing (fails_bind _ none))
  apply takes_last (blank_nil _ (stops_mark (.inr rfl) rest))
  exact takes_pure [] _

theorem takes_listItems {items : List Value} {text rest : List Char} (last more : List Char)
    {item : Read Value} {mark : Option Unit}
    (found : Takes (separated (char ',') (padded item)) text items (last ++ (more ++ rest)))
    (comma : Takes (maybe (char ',')) last mark (more ++ rest)) (blank : Takes gap more () rest) :
    Takes (listItems item) (text ++ (last ++ more)) items rest := by
  unfold listItems
  apply takes_bind text (last ++ more)
  · rw [List.append_assoc]
    exact takes_maybe found
  dsimp only [Option.isSome]
  rw [if_pos rfl]
  apply takes_bind last more comma
  apply takes_last blank
  exact takes_pure items rest

theorem takes_oneItem {item : Value} (leaf : item.Leaf) (depth : Nat) (rest : List Char) :
    Takes (listItems (value depth)) item.render.toList [item] (']' :: rest) := by
  have noComma : Fails (char ',') (']' :: rest) := fails_char (by simp)
  have first := takes_padded blank_nil leaf depth (.inr rfl) rest
  have found := takes_separated first (.done (fails_bind _ noComma))
  have listed := takes_listItems [] [] found (takes_nothing noComma)
    (blank_nil _ (stops_mark (.inr rfl) rest))
  simpa using listed

theorem takes_itemLines {item : Value} {items : List Value}
    (leaves : ∀ other ∈ item :: items, other.Leaf) (depth : Nat) (rest : List Char) :
    Takes (listItems (value depth)) ('\n' :: (renderItems (item :: items)).toList) (item :: items)
      (']' :: rest) := by
  have leaf := leaves item List.mem_cons_self
  have behind := repeats_items (fun other mem => leaves other (List.mem_cons_of_mem item mem))
    depth rest
  have first : Takes (padded (value depth)) (indent ++ item.render.toList) item
      ((items.flatMap fun item => ',' :: (indent ++ item.render.toList)) ++
        ',' :: '\n' :: ']' :: rest) := by
    cases items with
    | nil => exact takes_padded blank_indent leaf depth (.inl rfl) _
    | cons next more => exact takes_padded blank_indent leaf depth (.inl rfl) _
  have found := takes_separated first behind
  have listed := takes_listItems [','] ['\n'] found
    (takes_maybe (takes_char ',' _))
    (blank_line (List.forall_mem_nil _) _ (stops_mark (.inr rfl) rest))
  rw [renderItems_toList]
  simpa using listed

theorem takes_list {items : List Value} {text rest : List Char} (depth : Nat)
    (inside : Takes (listItems (value depth)) text items (']' :: rest)) :
    Takes (value (depth + 1)) ('[' :: (text ++ [']'])) (.list items) rest := by
  unfold value
  apply takes_second (fails_simple_bracket (.inl rfl) _)
  apply takes_first
  apply takes_bind ['['] (text ++ [']']) (takes_char '[' _)
  apply takes_bind text [']'] inside
  apply takes_last (takes_char ']' rest)
  exact takes_pure _ rest

theorem render_none : (Value.list []).render.toList = ['[', ']'] := by
  rw [Value.render]
  decide

theorem render_one (item : Value) :
    (Value.list [item]).render.toList = '[' :: (item.render.toList ++ [']']) := by
  rw [Value.render]
  simp

theorem render_lines (item next : Value) (more : List Value) :
    (Value.list (item :: next :: more)).render.toList =
      '[' :: ('\n' :: (renderItems (item :: next :: more)).toList ++ [']']) := by
  rw [Value.render]
  · simp
  · intro same
    cases same
  · intro only same
    cases same

theorem takes_leaves {items : List Value} (leaves : ∀ item ∈ items, item.Leaf) (depth : Nat)
    (rest : List Char) :
    Takes (value (depth + 1)) (Value.list items).render.toList (.list items) rest := by
  cases items with
  | nil =>
      have none := takes_list depth (takes_noItems depth rest)
      rw [render_none]
      exact none
  | cons item items =>
      cases items with
      | nil =>
          have one := takes_list depth (takes_oneItem (leaves item List.mem_cons_self) depth rest)
          rw [render_one]
          exact one
      | cons next more =>
          have lines := takes_list depth (takes_itemLines leaves depth rest)
          rw [render_lines]
          exact lines

/-- A leaf or a list of leaves is read again. -/
theorem Value.Plain.takes {written : Value} (plain : written.Plain) {rest : List Char}
    (ends : Ends rest) :
    Takes (value (depthLimit - 1)) written.render.toList written rest := by
  cases plain with
  | leaf leaf => exact leaf.takes_value _ ends
  | list leaves => exact takes_leaves leaves 78 rest

end DocDrift.Toml
