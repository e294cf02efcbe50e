import DocDrift.Proofs.IgnoreFile.Marks

/-!
What bringing the block of an ignore file up to date makes of its text. If the first start stands
before the first end, what stands from the one to the other gives way to the block, and nothing else
changes; if the text lacks a mark, the block is appended. The new text is up to date, unless the old
one had just one of the marks.
-/

set_option autoImplicit false

namespace DocDrift.IgnoreFile

open Text (isBlank trim trimEnd Blanks)

/-! ### The block and its marks -/

/-- The block up to the mark of its end. -/
def blockBody : List Char :=
  block.toList.take (block.toList.length - blockEnd.toList.length)

theorem blockStart_first : StandsFirst blockStart.toList block.toList []
    (block.toList.drop blockStart.toList.length) :=
  splitAtFirst?_some (by decide)

theorem blockEnd_first : StandsFirst blockEnd.toList block.toList blockBody [] :=
  splitAtFirst?_some (by decide)

theorem block_opens : ∃ inner, block.toList = blockStart.toList ++ inner :=
  ⟨_, blockStart_first.whole⟩

theorem marks_length : blockEnd.toList.length = blockStart.toList.length := by decide

theorem marks_ne : blockStart.toList ≠ blockEnd.toList := by decide

/-- One of the marks of a block. -/
inductive IsMark : List Char → Prop
  | start : IsMark blockStart.toList
  | stop : IsMark blockEnd.toList

section Updates

variable {mark text before upToEnd after lead tail rest new : List Char}

theorem IsMark.ne_nil (isMark : IsMark mark) : mark ≠ [] := by
  cases isMark <;> decide

theorem IsMark.apart (isMark : IsMark mark) : ∀ c ∈ mark, c ∉ ['\n', '\n'] := by
  have clear : '\n' ∉ mark := by cases isMark <;> decide
  intro c mem newline
  have same : c = '\n' := by simpa using newline
  exact clear (same ▸ mem)

theorem IsMark.last (isMark : IsMark mark) : ∃ start, mark = start ++ ['e'] := by
  cases isMark with
  | start => exact ⟨blockStart.toList.dropLast, by decide⟩
  | stop => exact ⟨blockEnd.toList.dropLast, by decide⟩

/-! ### The cases of an update -/

/-- The first start of a block stands before the first end. -/
structure Framed (text before upToEnd after : List Char) : Prop where
  start : ∃ rest, StandsFirst blockStart.toList text before rest
  stop : StandsFirst blockEnd.toList text upToEnd after
  order : before.length < upToEnd.length

/-- What stands from the first start to the first end gives way to the block. -/
theorem Framed.update_eq (framed : Framed text before upToEnd after) :
    update text = if text = before ++ block.toList ++ after then .upToDate
      else .changed (before ++ block.toList ++ after) := by
  obtain ⟨⟨rest, start⟩, stop, order⟩ := framed
  obtain ⟨inside, whole⟩ : before <+: upToEnd ++ blockEnd.toList := by
    have begins : before <+: text :=
      ⟨blockStart.toList ++ rest, by rw [start.whole, List.append_assoc]⟩
    refine List.prefix_of_prefix_length_le begins ⟨after, stop.whole.symm⟩ ?_
    rw [List.length_append]
    omega
  have same : inside = block.toList ↔ text = before ++ block.toList ++ after := by
    rw [stop.whole, ← whole, List.append_left_inj, List.append_right_inj]
  unfold update
  rw [start.found, stop.found]
  dsimp only
  rw [if_pos order, ← whole, List.drop_left]
  by_cases current : inside = block.toList
  · rw [if_pos (beq_iff_eq.mpr current), if_pos (same.mp current)]
  · rw [if_neg (mt beq_iff_eq.mp current), if_neg (mt same.mpr current)]

/-- The ways in which a text is brought up to date, and when which is taken. -/
inductive Updated (text : List Char) : Update → Prop
  | upToDate (before upToEnd after : List Char) (framed : Framed text before upToEnd after)
      (current : text = before ++ block.toList ++ after) : Updated text .upToDate
  | replaced (before upToEnd after : List Char) (framed : Framed text before upToEnd after)
      (stale : text ≠ before ++ block.toList ++ after) :
      Updated text (.changed (before ++ block.toList ++ after))
  | outOfOrder (before rest upToEnd after : List Char)
      (start : StandsFirst blockStart.toList text before rest)
      (stop : StandsFirst blockEnd.toList text upToEnd after)
      (order : upToEnd.length < before.length) : Updated text .outOfOrder
  | appended (lacking : ¬(blockStart.toList <:+: text ∧ blockEnd.toList <:+: text)) :
      Updated text (.changed (appended text))

/-- The two marks do not stand at the same place. -/
theorem starts_apart (start : StandsFirst blockStart.toList text before rest)
    (stop : StandsFirst blockEnd.toList text upToEnd after) : before.length ≠ upToEnd.length := by
  intro same
  have split := start.whole.symm.trans stop.whole
  rw [List.append_assoc, List.append_assoc] at split
  obtain ⟨_front, back⟩ := List.append_inj split same
  exact marks_ne (List.append_inj back marks_length.symm).1

theorem update_of_disorder (start : StandsFirst blockStart.toList text before rest)
    (stop : StandsFirst blockEnd.toList text upToEnd after)
    (disorder : ¬before.length < upToEnd.length) : update text = .outOfOrder := by
  unfold update
  rw [start.found, stop.found]
  exact if_neg disorder

theorem update_updated (text : List Char) : Updated text (update text) := by
  cases found : splitAtFirst? blockStart.toList text with
  | none =>
      unfold update
      rw [found]
      exact .appended fun both => splitAtFirst?_none found both.1
  | some start =>
      cases found' : splitAtFirst? blockEnd.toList text with
      | none =>
          unfold update
          rw [found, found']
          exact .appended fun both => splitAtFirst?_none found' both.2
      | some stop =>
          have first := splitAtFirst?_some found
          have last := splitAtFirst?_some found'
          by_cases order : start.1.length < stop.1.length
          · have framed : Framed text start.1 stop.1 stop.2 := ⟨⟨start.2, first⟩, last, order⟩
            rw [framed.update_eq]
            split
            case isTrue current => exact .upToDate _ _ _ framed current
            case isFalse stale => exact .replaced _ _ _ framed stale
          · have apart := starts_apart first last
            rw [update_of_disorder first last order]
            exact .outOfOrder _ _ _ _ first last (by omega)

/-! ### A text with the block -/

/-- The block in a text, if no mark begins before it. -/
theorem framed_of_clear (start : NoneBegins blockStart.toList lead (block.toList ++ tail))
    (stop : NoneBegins blockEnd.toList lead (block.toList ++ tail)) :
    Framed (lead ++ block.toList ++ tail) lead (lead ++ blockBody) tail := by
  have first := (blockStart_first.extend tail).behind start
  rw [List.append_nil, ← List.append_assoc] at first
  have last := (blockEnd_first.extend tail).behind stop
  rw [List.nil_append, ← List.append_assoc] at last
  have some : 0 < blockBody.length := by decide
  exact ⟨⟨_, first⟩, last, by rw [List.length_append]; omega⟩

theorem update_of_clear (start : NoneBegins blockStart.toList lead (block.toList ++ tail))
    (stop : NoneBegins blockEnd.toList lead (block.toList ++ tail)) :
    update (lead ++ block.toList ++ tail) = .upToDate := by
  rw [(framed_of_clear start stop).update_eq, if_pos rfl]

/-- No mark begins before the place of the block. -/
theorem Framed.update_replaced (framed : Framed text before upToEnd after) :
    update (before ++ block.toList ++ after) = .upToDate := by
  obtain ⟨⟨rest, start⟩, stop, order⟩ := framed
  obtain ⟨inner, opens⟩ := block_opens
  apply update_of_clear
  · rw [opens, List.append_assoc]
    exact start.noneBegins (Nat.le_refl _) start.whole (Nat.le_refl _) _
  · rw [opens, List.append_assoc]
    exact stop.noneBegins (Nat.le_of_eq marks_length) start.whole (Nat.le_of_lt order) _

/-! ### An appended block -/

/-- What comes before an appended block. -/
def appendLead (text : List Char) : List Char :=
  if (trim text).isEmpty then [] else trimEnd text ++ ['\n', '\n']

theorem appended_eq (text : List Char) :
    appended text = appendLead text ++ block.toList ++ ['\n'] := by
  unfold appended appendLead
  split
  · rfl
  · simp only [List.append_assoc, List.cons_append, List.nil_append]

theorem trimEnd_append (text : List Char) :
    ∃ blanks, text = trimEnd text ++ blanks ∧ Blanks blanks := by
  refine ⟨(text.reverse.takeWhile isBlank).reverse, ?_, ?_⟩
  · rw [trimEnd, ← List.reverse_append, List.takeWhile_append_dropWhile, List.reverse_reverse]
  · intro c mem
    exact List.mem_takeWhile_imp (List.mem_reverse.mp mem)

theorem isMark_last_solid : isBlank 'e' = false := by decide

theorem IsMark.within_trimEnd (isMark : IsMark mark) (within : mark <:+: text) :
    mark <:+: trimEnd text := by
  obtain ⟨blanks, whole, blank⟩ := trimEnd_append text
  obtain ⟨start, rfl⟩ := isMark.last
  rw [whole] at within
  refine infix_of_infix_append within fun mem => ?_
  exact Bool.false_ne_true (isMark_last_solid.symm.trans (blank 'e' mem))

theorem IsMark.appendLead_eq (isMark : IsMark mark) (within : mark <:+: text) :
    appendLead text = trimEnd text ++ ['\n', '\n'] := by
  refine if_neg fun empty => ?_
  have blank : Blanks text := Text.words_eq_nil.mp (Text.trim_eq_nil.mp (List.isEmpty_iff.mp empty))
  obtain ⟨start, rfl⟩ := isMark.last
  have mem : 'e' ∈ text := within.subset (List.mem_append_right start (List.mem_singleton_self 'e'))
  exact Bool.false_ne_true (isMark_last_solid.symm.trans (blank 'e' mem))

theorem trimEnd_prefix_appended (text : List Char) : trimEnd text <+: appended text := by
  rw [appended_eq, appendLead]
  split
  case isTrue empty =>
    have blank : Blanks text :=
      Text.words_eq_nil.mp (Text.trim_eq_nil.mp (List.isEmpty_iff.mp empty))
    have none : trimEnd text = [] := by
      rw [trimEnd, List.reverse_eq_nil_iff, List.dropWhile_eq_nil_iff]
      exact fun c mem => blank c (List.mem_reverse.mp mem)
    rw [none]
    exact List.nil_prefix
  case isFalse =>
    rw [List.append_assoc, List.append_assoc]
    exact List.prefix_append _ _

theorem block_within_appended (text : List Char) : block.toList <:+: appended text :=
  ⟨appendLead text, ['\n'], (appended_eq text).symm⟩

/-- A mark of the text stands where it stood, before the block that is appended. -/
theorem IsMark.early (isMark : IsMark mark) (within : mark <:+: text) :
    ∃ before rest after, StandsFirst mark text before rest ∧
      StandsFirst mark (appended text) before after ∧
      before.length < (appendLead text).length := by
  obtain ⟨before, later, stands⟩ := StandsFirst.of_infix (isMark.within_trimEnd within)
  obtain ⟨blanks, whole, _blank⟩ := trimEnd_append text
  have lead := isMark.appendLead_eq within
  have here := stands.extend blanks
  rw [← whole] at here
  have there := stands.extend (['\n', '\n'] ++ block.toList ++ ['\n'])
  rw [← List.append_assoc, ← List.append_assoc, ← lead, ← appended_eq] at there
  refine ⟨before, _, _, here, there, ?_⟩
  rw [lead, stands.whole]
  simp only [List.length_append, List.length_cons]
  omega

theorem IsMark.clear (isMark : IsMark mark) (absent : ¬mark <:+: text) (rest : List Char) :
    NoneBegins mark (appendLead text) rest := by
  unfold appendLead
  split
  · exact noneBegins_nil mark rest
  · refine noneBegins_append isMark.ne_nil (List.cons_ne_nil _ _) ?_ isMark.apart rest
    intro within
    obtain ⟨blanks, whole, _blank⟩ := trimEnd_append text
    exact absent (whole ▸ within.trans (List.prefix_append _ _).isInfix)

/-- Of a text without marks the new text is up to date. -/
theorem update_appended (start : ¬blockStart.toList <:+: text) (stop : ¬blockEnd.toList <:+: text) :
    update (appended text) = .upToDate := by
  rw [appended_eq]
  exact update_of_clear (IsMark.start.clear start _) (IsMark.stop.clear stop _)

/-- A start without an end is the first start before the appended block; what stands behind it
gives way next time. -/
theorem update_lone_start (start : blockStart.toList <:+: text)
    (stop : ¬blockEnd.toList <:+: text) :
    ∃ before rest, StandsFirst blockStart.toList text before rest ∧
      update (appended text) = .changed (before ++ block.toList ++ ['\n']) := by
  obtain ⟨before, rest, after, here, there, early⟩ := IsMark.start.early start
  have last := (blockEnd_first.extend ['\n']).behind (IsMark.stop.clear stop _)
  rw [List.nil_append, ← List.append_assoc, ← appended_eq] at last
  have framed : Framed (appended text) before (appendLead text ++ blockBody) ['\n'] :=
    ⟨⟨after, there⟩, last, by rw [List.length_append]; omega⟩
  refine ⟨before, rest, here, ?_⟩
  rw [framed.update_eq, if_neg]
  intro same
  rw [appended_eq, List.append_left_inj, List.append_left_inj] at same
  rw [same] at early
  exact Nat.lt_irrefl _ early

/-- An end without a start comes before the start of the appended block. -/
theorem update_lone_end (start : ¬blockStart.toList <:+: text) (stop : blockEnd.toList <:+: text) :
    update (appended text) = .outOfOrder := by
  obtain ⟨upToEnd, _rest, after, _here, last, early⟩ := IsMark.stop.early stop
  have first := (blockStart_first.extend ['\n']).behind (IsMark.start.clear start _)
  rw [List.append_nil, ← List.append_assoc, ← appended_eq] at first
  exact update_of_disorder first last (Nat.lt_asymm early)

/-! ### What an update keeps -/

/-- The end of a block stands before the first start. -/
def Disordered (text : List Char) : Prop :=
  ∃ before rest upToEnd after, StandsFirst blockStart.toList text before rest ∧
    StandsFirst blockEnd.toList text upToEnd after ∧ upToEnd.length < before.length

theorem update_outOfOrder_iff : update text = .outOfOrder ↔ Disordered text := by
  constructor
  · intro failed
    have updated := update_updated text
    rw [failed] at updated
    cases updated with
    | outOfOrder before rest upToEnd after start stop order =>
        exact ⟨before, rest, upToEnd, after, start, stop, order⟩
  · rintro ⟨before, rest, upToEnd, after, start, stop, order⟩
    exact update_of_disorder start stop (Nat.lt_asymm order)

/-- What a text has of an older one: what stood outside of the block, or in front of an appended
one. -/
structure Renewed (old new : List Char) : Prop where
  block : block.toList <:+: new
  framed : ∀ before upToEnd after, Framed old before upToEnd after →
    new = before ++ IgnoreFile.block.toList ++ after
  lacking : ¬(blockStart.toList <:+: old ∧ blockEnd.toList <:+: old) → trimEnd old <+: new

theorem Framed.marked (framed : Framed text before upToEnd after) :
    blockStart.toList <:+: text ∧ blockEnd.toList <:+: text := by
  obtain ⟨⟨rest, start⟩, stop, _order⟩ := framed
  exact ⟨start.within, stop.within⟩

theorem marked_of_block (held : block.toList <:+: text) :
    blockStart.toList <:+: text ∧ blockEnd.toList <:+: text :=
  ⟨blockStart_first.within.trans held, blockEnd_first.within.trans held⟩

theorem ne_nil_of_block (held : block.toList <:+: text) : text ≠ [] := by
  rintro rfl
  exact absurd (List.infix_nil.mp held) (by decide)

theorem renewed_of_upToDate (current : update text = .upToDate) : Renewed text text := by
  have updated := update_updated text
  rw [current] at updated
  cases updated with
  | upToDate before upToEnd after framed whole =>
      have held : block.toList <:+: text := ⟨before, after, whole.symm⟩
      refine ⟨held, ?_, fun lacking => absurd framed.marked lacking⟩
      intro before' upToEnd' after' framed'
      rw [framed'.update_eq] at current
      split at current
      case isTrue same => exact same
      case isFalse => cases current

theorem renewed_of_changed (changed : update text = .changed new) :
    Renewed text new ∧ new ≠ text := by
  have updated := update_updated text
  rw [changed] at updated
  have spliced : ∀ before upToEnd after, Framed text before upToEnd after →
      new = before ++ block.toList ++ after := by
    intro before upToEnd after framed
    rw [framed.update_eq] at changed
    split at changed
    case isTrue => cases changed
    case isFalse => exact (Update.changed.inj changed).symm
  cases updated with
  | replaced before upToEnd after framed stale =>
      exact ⟨⟨⟨before, after, rfl⟩, spliced, fun lacking => absurd framed.marked lacking⟩,
        Ne.symm stale⟩
  | appended lacking =>
      have held := block_within_appended text
      refine ⟨⟨held, spliced, fun _ => trimEnd_prefix_appended text⟩, fun same => lacking ?_⟩
      exact marked_of_block (same ▸ held)

theorem appended_of_lacking (lacking : ¬(blockStart.toList <:+: text ∧ blockEnd.toList <:+: text))
    (changed : update text = .changed new) : new = appended text := by
  have updated := update_updated text
  rw [changed] at updated
  cases updated with
  | replaced before upToEnd after framed stale => exact absurd framed.marked lacking
  | appended lacking => rfl

/-! ### Updating again -/

/-- A text that was brought up to date is up to date, unless it had just one of the marks. -/
theorem update_again_iff (changed : update text = .changed new) :
    update new = .upToDate ↔ (blockStart.toList <:+: text ↔ blockEnd.toList <:+: text) := by
  have updated := update_updated text
  rw [changed] at updated
  cases updated with
  | replaced before upToEnd after framed stale =>
      obtain ⟨rest, start⟩ := framed.start
      exact iff_of_true framed.update_replaced (iff_of_true start.within framed.stop.within)
  | appended lacking =>
      by_cases start : blockStart.toList <:+: text
      · have stop : ¬blockEnd.toList <:+: text := fun stop => lacking ⟨start, stop⟩
        obtain ⟨before, _rest, _first, next⟩ := update_lone_start start stop
        refine iff_of_false ?_ fun both => stop (both.mp start)
        rw [next]
        exact Update.noConfusion
      · by_cases stop : blockEnd.toList <:+: text
        · refine iff_of_false ?_ fun both => start (both.mpr stop)
          rw [update_lone_end start stop]
          exact Update.noConfusion
        · exact iff_of_true (update_appended start stop) (iff_of_false start stop)

end Updates

end DocDrift.IgnoreFile
