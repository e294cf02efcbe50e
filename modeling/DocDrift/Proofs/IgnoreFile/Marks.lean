import DocDrift.IgnoreFile
import DocDrift.Proofs.Text.Splits

/-!
Where a mark first stands in a text. The first place depends only on what comes before the end of
the mark there, so that it stays where it is if what follows is exchanged, and moves along with the
text if something comes before in which no mark begins.
-/

set_option autoImplicit false

namespace DocDrift.IgnoreFile

/-- A mark stands between these parts of a text, and nowhere before. -/
structure StandsFirst (mark text before after : List Char) : Prop where
  whole : text = before ++ mark ++ after
  first : ∀ earlier later, text = earlier ++ mark ++ later → before.length ≤ earlier.length

/-- No mark begins in the lead of a text. -/
def NoneBegins (mark lead rest : List Char) : Prop :=
  ∀ earlier later, lead ++ rest = earlier ++ mark ++ later → lead.length ≤ earlier.length

section Marks

variable {mark text before after lead rest : List Char}

/-! ### The first mark -/

theorem splitAtFirst?_none (missing : splitAtFirst? mark text = none) : ¬mark <:+: text := by
  induction text with
  | nil =>
      rw [splitAtFirst?] at missing
      split at missing
      case isTrue => cases missing
      case isFalse some =>
        intro within
        exact some (List.isEmpty_iff.mpr (List.infix_nil.mp within))
  | cons c rest ih =>
      rw [splitAtFirst?] at missing
      split at missing
      case isTrue => cases missing
      case isFalse elsewhere =>
        intro within
        rcases List.infix_cons_iff.mp within with begins | later
        · exact elsewhere (List.isPrefixOf_iff_prefix.mpr begins)
        · exact ih (Option.map_eq_none_iff.mp missing) later

theorem splitAtFirst?_some (found : splitAtFirst? mark text = some (before, after)) :
    StandsFirst mark text before after := by
  induction text generalizing before with
  | nil =>
      rw [splitAtFirst?] at found
      split at found
      case isTrue none =>
        cases found
        exact ⟨by simp [List.isEmpty_iff.mp none], fun _ _ _ => Nat.zero_le _⟩
      case isFalse => cases found
  | cons c rest ih =>
      rw [splitAtFirst?] at found
      split at found
      case isTrue begins =>
        cases found
        obtain ⟨tail, whole⟩ := List.isPrefixOf_iff_prefix.mp begins
        refine ⟨?_, fun _ _ _ => Nat.zero_le _⟩
        rw [← whole, List.drop_left, List.nil_append]
      case isFalse elsewhere =>
        obtain ⟨⟨start, tail⟩, later, same⟩ := Option.map_eq_some_iff.mp found
        cases same
        obtain ⟨whole, first⟩ := ih later
        refine ⟨by rw [whole]; rfl, ?_⟩
        intro earlier behind split
        cases earlier with
        | nil =>
            refine absurd (List.isPrefixOf_iff_prefix.mpr ⟨behind, ?_⟩) elsewhere
            rw [split, List.nil_append]
        | cons d more =>
            have inner := (List.cons.inj split).2
            exact Nat.succ_le_succ (first more behind inner)

theorem StandsFirst.unique {other tail : List Char} (stands : StandsFirst mark text before after)
    (again : StandsFirst mark text other tail) : before = other ∧ after = tail := by
  have same : before.length = other.length :=
    Nat.le_antisymm (stands.first _ _ again.whole) (again.first _ _ stands.whole)
  have split := stands.whole.symm.trans again.whole
  rw [List.append_assoc, List.append_assoc] at split
  obtain ⟨front, back⟩ := List.append_inj split same
  exact ⟨front, List.append_cancel_left back⟩

theorem StandsFirst.within (stands : StandsFirst mark text before after) : mark <:+: text :=
  ⟨before, after, stands.whole.symm⟩

theorem StandsFirst.found (stands : StandsFirst mark text before after) :
    splitAtFirst? mark text = some (before, after) := by
  cases found : splitAtFirst? mark text with
  | none => exact absurd stands.within (splitAtFirst?_none found)
  | some split =>
      obtain ⟨front, back⟩ := (splitAtFirst?_some found).unique stands
      rw [← front, ← back]

theorem StandsFirst.of_infix (within : mark <:+: text) :
    ∃ before after, StandsFirst mark text before after := by
  cases found : splitAtFirst? mark text with
  | none => exact absurd within (splitAtFirst?_none found)
  | some split => exact ⟨split.1, split.2, splitAtFirst?_some found⟩

/-! ### Exchanging what follows -/

/-- A mark that begins before another part ends there too, if it is not longer than that part. -/
theorem prefix_of_begins {part tail earlier later : List Char} (short : mark.length ≤ part.length)
    (split : lead ++ part ++ tail = earlier ++ mark ++ later)
    (before : earlier.length ≤ lead.length) : earlier ++ mark <+: lead ++ part := by
  refine List.prefix_of_prefix_length_le ⟨later, split.symm⟩ ⟨tail, rfl⟩ ?_
  rw [List.length_append, List.length_append]
  omega

theorem StandsFirst.exchange (stands : StandsFirst mark text before after) (tail : List Char) :
    StandsFirst mark (before ++ mark ++ tail) before tail := by
  refine ⟨rfl, fun earlier later split => Nat.le_of_not_lt fun less => ?_⟩
  obtain ⟨more, whole⟩ := prefix_of_begins (Nat.le_refl _) split (Nat.le_of_lt less)
  refine Nat.not_le_of_lt less (stands.first earlier (more ++ after) ?_)
  rw [stands.whole, ← whole, List.append_assoc]

theorem StandsFirst.extend (stands : StandsFirst mark text before after) (tail : List Char) :
    StandsFirst mark (text ++ tail) before (after ++ tail) := by
  have extended := stands.exchange (after ++ tail)
  rwa [← List.append_assoc, ← stands.whole] at extended

/-- No mark begins before a part in front of the first mark, whatever follows that part. -/
theorem StandsFirst.noneBegins {part tail : List Char} (stands : StandsFirst mark text before after)
    (short : mark.length ≤ part.length) (whole : text = lead ++ part ++ tail)
    (front : lead.length ≤ before.length) (other : List Char) :
    NoneBegins mark lead (part ++ other) := by
  intro earlier later split
  refine Nat.le_of_not_lt fun less => ?_
  rw [← List.append_assoc] at split
  obtain ⟨more, inner⟩ := prefix_of_begins short split (Nat.le_of_lt less)
  have first := stands.first earlier (more ++ tail) (by rw [whole, ← inner, List.append_assoc])
  omega

/-! ### Something before -/

theorem noneBegins_nil (mark rest : List Char) : NoneBegins mark [] rest :=
  fun _ _ _ => Nat.zero_le _

theorem StandsFirst.behind (stands : StandsFirst mark rest before after)
    (clear : NoneBegins mark lead rest) :
    StandsFirst mark (lead ++ rest) (lead ++ before) after := by
  refine ⟨by rw [stands.whole]; simp, ?_⟩
  intro earlier later split
  have reach := clear earlier later split
  rw [List.append_assoc] at split
  obtain ⟨more, rfl⟩ : ∃ more, earlier = lead ++ more := by
    obtain ⟨more, whole⟩ : lead <+: earlier :=
      List.prefix_of_prefix_length_le ⟨rest, rfl⟩ ⟨mark ++ later, split.symm⟩ reach
    exact ⟨more, whole.symm⟩
  have inner := List.append_cancel_left (split.trans (List.append_assoc lead more (mark ++ later)))
  have first := stands.first more later (inner.trans (List.append_assoc more mark later).symm)
  rw [List.length_append, List.length_append]
  exact Nat.add_le_add_left first _

/-- A mark that begins in a text and its tail, but does not stand in the text, covers the first
place of the tail or begins behind it; so it shares a character with the tail. -/
theorem noneBegins_append {tail : List Char} (some : mark ≠ []) (gap : tail ≠ [])
    (absent : ¬mark <:+: text) (apart : ∀ c ∈ mark, c ∉ tail) (rest : List Char) :
    NoneBegins mark (text ++ tail) rest := by
  intro earlier later split
  refine Nat.le_of_not_lt fun less => ?_
  have beyond : text.length < earlier.length + mark.length := by
    refine Nat.lt_of_not_le fun inside => absent ?_
    obtain ⟨more, whole⟩ : earlier ++ mark <+: text := by
      refine List.prefix_of_prefix_length_le ⟨later, split.symm⟩ ⟨tail ++ rest, ?_⟩ ?_
      · rw [List.append_assoc]
      · rwa [List.length_append]
    exact ⟨earlier, more, whole⟩
  obtain ⟨i, j, insideMark, insideTail, same⟩ :
      ∃ i j, i < mark.length ∧ j < tail.length ∧ text.length + j = earlier.length + i := by
    have positive := List.length_pos_iff.mpr some
    have present := List.length_pos_iff.mpr gap
    rw [List.length_append] at less
    rcases Nat.le_total earlier.length text.length with le | le
    · exact ⟨text.length - earlier.length, 0, by omega, by omega, by omega⟩
    · exact ⟨0, earlier.length - text.length, by omega, by omega, by omega⟩
  have ofTail : (text ++ tail ++ rest)[text.length + j]? = tail[j]? := by
    rw [List.append_assoc, List.getElem?_append_right (Nat.le_add_right _ _),
      Nat.add_sub_cancel_left, List.getElem?_append_left insideTail]
  have ofMark : (earlier ++ mark ++ later)[earlier.length + i]? = mark[i]? := by
    rw [List.append_assoc, List.getElem?_append_right (Nat.le_add_right _ _),
      Nat.add_sub_cancel_left, List.getElem?_append_left insideMark]
  rw [split, same, ofMark, List.getElem?_eq_getElem insideMark,
    List.getElem?_eq_getElem insideTail, Option.some.injEq] at ofTail
  exact apart _ (List.getElem_mem insideMark) (ofTail ▸ List.getElem_mem insideTail)

/-- A mark that does not end in the tail of a text stands in front of it. -/
theorem infix_of_infix_append {start tail : List Char} {last : Char}
    (within : start ++ [last] <:+: text ++ tail) (apart : last ∉ tail) :
    start ++ [last] <:+: text := by
  obtain ⟨earlier, later, split⟩ := within
  rw [← List.append_assoc, List.append_assoc] at split
  rcases List.append_eq_append_iff.mp split with ⟨more, rfl, ends⟩ | ⟨more, _whole, rfl⟩
  · cases more with
    | nil =>
        rw [List.nil_append] at ends
        exact absurd (ends ▸ List.mem_cons_self) apart
    | cons c more =>
        obtain ⟨rfl, _same⟩ := List.cons.inj ends
        exact ⟨earlier, more, by simp⟩
  · exact absurd (List.mem_append_right more List.mem_cons_self) apart

end Marks

end DocDrift.IgnoreFile
