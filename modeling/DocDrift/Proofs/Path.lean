import DocDrift.Path

/-!
The parts of a path and its text determine each other, as no part has a slash. So a path below a
directory has the parts of the directory before its own, and its extension is what follows the last
dot of its last part.
-/

set_option autoImplicit false

namespace DocDrift.Path

/-! ### Parts and text -/

section Parts

variable {text tail part last : List Char} {before several : List (List Char)}

theorem parts_slash (rest : List Char) : parts ('/' :: rest) = [] :: parts rest :=
  if_pos rfl

theorem parts_ne_nil (text : List Char) : parts text ≠ [] := by
  cases text with
  | nil => exact List.cons_ne_nil _ _
  | cons c rest =>
      rw [parts]
      split
      · exact List.cons_ne_nil _ _
      · cases parts rest <;> exact List.cons_ne_nil _ _

theorem parts_cons {c : Char} (other : c ≠ '/') (rest : List Char) :
    ∃ first more, parts rest = first :: more ∧ parts (c :: rest) = (c :: first) :: more := by
  obtain ⟨first, more, split⟩ := List.exists_cons_of_ne_nil (parts_ne_nil rest)
  refine ⟨first, more, split, ?_⟩
  rw [parts, if_neg other, split]

theorem parts_concat (text : List Char) : ∃ before last, parts text = before ++ [last] := by
  obtain ⟨before, last, split⟩ :=
    List.eq_nil_or_concat (parts text) |>.resolve_left (parts_ne_nil text)
  exact ⟨before, last, split.trans List.concat_eq_append⟩

theorem parts_append_slash (text tail : List Char) :
    parts (text ++ '/' :: tail) = parts text ++ parts tail := by
  induction text with
  | nil => exact parts_slash tail
  | cons c rest ih =>
      rw [List.cons_append]
      by_cases slash : c = '/'
      · rw [slash, parts_slash, parts_slash, ih, List.cons_append]
      · obtain ⟨first, more, split, whole⟩ := parts_cons slash rest
        obtain ⟨first', more', split', whole'⟩ := parts_cons slash (rest ++ '/' :: tail)
        rw [ih, split, List.cons_append] at split'
        obtain ⟨rfl, rfl⟩ := List.cons.inj split'
        rw [whole, whole', List.cons_append]

theorem slash_not_mem (mem : part ∈ parts text) : '/' ∉ part := by
  induction text generalizing part with
  | nil =>
      rw [List.mem_singleton.mp mem]
      exact List.not_mem_nil
  | cons c rest ih =>
      by_cases slash : c = '/'
      · rw [slash, parts_slash] at mem
        rcases List.mem_cons.mp mem with rfl | later
        · exact List.not_mem_nil
        · exact ih later
      · obtain ⟨first, more, split, whole⟩ := parts_cons slash rest
        rw [whole] at mem
        rcases List.mem_cons.mp mem with rfl | later
        · have clear : '/' ∉ first := ih (by rw [split]; exact List.mem_cons_self)
          exact List.not_mem_cons_of_ne_of_not_mem (Ne.symm slash) clear
        · exact ih (by rw [split]; exact List.mem_cons_of_mem _ later)

theorem parts_of_slashless (clear : '/' ∉ text) : parts text = [text] := by
  induction text with
  | nil => rfl
  | cons c rest ih =>
      have other : c ≠ '/' := fun same => clear (by rw [same]; exact List.mem_cons_self)
      rw [parts, if_neg other, ih fun mem => clear (List.mem_cons_of_mem c mem)]

theorem ofParts_cons_cons (part next : List Char) (rest : List (List Char)) :
    ofParts (part :: next :: rest) = part ++ '/' :: ofParts (next :: rest) := by
  simp [ofParts, List.intercalate]

theorem ofParts_singleton (part : List Char) : ofParts [part] = part := by
  simp [ofParts, List.intercalate]

theorem parts_ofParts (some : several ≠ []) (clear : ∀ part ∈ several, '/' ∉ part) :
    parts (ofParts several) = several := by
  induction several with
  | nil => exact absurd rfl some
  | cons part rest ih =>
      cases rest with
      | nil =>
          rw [ofParts_singleton]
          exact parts_of_slashless (clear part List.mem_cons_self)
      | cons next rest =>
          rw [ofParts_cons_cons, parts_append_slash,
            parts_of_slashless (clear part List.mem_cons_self),
            ih (List.cons_ne_nil _ _) fun other mem => clear other (List.mem_cons_of_mem _ mem)]
          rfl

theorem ofParts_parts (text : List Char) : ofParts (parts text) = text := by
  induction text with
  | nil => rfl
  | cons c rest ih =>
      by_cases slash : c = '/'
      · obtain ⟨first, more, split⟩ := List.exists_cons_of_ne_nil (parts_ne_nil rest)
        rw [slash, parts_slash, split, ofParts_cons_cons, ← split, ih, List.nil_append]
      · obtain ⟨first, more, split, whole⟩ := parts_cons slash rest
        rw [split] at ih
        rw [whole, ← ih]
        cases more with
        | nil => rw [ofParts_singleton, ofParts_singleton]
        | cons next more => rw [ofParts_cons_cons, ofParts_cons_cons, List.cons_append]

theorem ofParts_concat (before : List (List Char)) (last tail : List Char) :
    ofParts (before ++ [last ++ tail]) = ofParts (before ++ [last]) ++ tail := by
  induction before with
  | nil =>
      rw [List.nil_append, List.nil_append, ofParts_singleton, ofParts_singleton]
  | cons part before ih =>
      cases before with
      | nil =>
          simp only [List.cons_append, List.nil_append, ofParts_cons_cons, ofParts_singleton,
            List.append_assoc]
      | cons next before =>
          simp only [List.cons_append, ofParts_cons_cons, List.append_assoc] at ih ⊢
          rw [ih]

theorem slash_not_mem_last (split : parts text = before ++ [last]) : '/' ∉ last := by
  have mem : last ∈ parts text := split ▸ List.mem_append_right before List.mem_cons_self
  exact slash_not_mem mem

/-- Another last part, without a slash. -/
theorem parts_exchange (split : parts text = before ++ [part]) (clear : '/' ∉ last) :
    parts (ofParts (before ++ [last])) = before ++ [last] := by
  refine parts_ofParts (List.append_ne_nil_of_right_ne_nil _ (List.cons_ne_nil _ _)) ?_
  intro other mem
  rcases List.mem_append.mp mem with early | final
  · have mem : other ∈ parts text := split ▸ List.mem_append_left _ early
    exact slash_not_mem mem
  · exact List.mem_singleton.mp final ▸ clear

/-- What has no slash goes on with the last part. -/
theorem parts_append (split : parts text = before ++ [last]) (clear : '/' ∉ tail) :
    parts (text ++ tail) = before ++ [last ++ tail] := by
  rw [← ofParts_parts text, split, ← ofParts_concat]
  exact parts_exchange split fun mem =>
    (List.mem_append.mp mem).elim (slash_not_mem_last split) clear

end Parts
/-! ### Names -/

/-- A part that names something in a directory. -/
def Named (part : List Char) : Prop :=
  (isIdle part || part == up) = false

instance (part : List Char) : Decidable (Named part) :=
  inferInstanceAs (Decidable (_ = _))

/-- A path that does nothing but lead down. -/
def Plain (path : String) : Prop :=
  ∀ part ∈ parts path.toList, Named part

instance (path : String) : Decidable (Plain path) :=
  List.decidableBAll _ _

theorem named_iff {part : List Char} :
    Named part ↔ part ≠ [] ∧ part ≠ ['.'] ∧ part ≠ ['.', '.'] := by
  simp [Named, isIdle, up, List.isEmpty_eq_false_iff, and_assoc]

/-- What begins with some character and has three more is a name. -/
theorem named_of_length {part : List Char} (long : 2 < part.length) : Named part := by
  refine named_iff.mpr ⟨?_, ?_, ?_⟩
  all_goals
    rintro rfl
    exact absurd long (by decide)

section Absolute

variable {path : String} {first : List Char} {more : List (List Char)}

/-- A path is absolute if its first part is empty and not its only one. -/
theorem isAbsolute_iff :
    isAbsolute path = true ↔ ∃ more, more ≠ [] ∧ parts path.toList = [] :: more := by
  rw [isAbsolute, beq_iff_eq]
  cases chars : path.toList with
  | nil => simp [parts]
  | cons c rest =>
      rw [List.head?_cons, Option.some.injEq]
      constructor
      · rintro rfl
        exact ⟨_, parts_ne_nil rest, parts_slash rest⟩
      · rintro ⟨more, _some, split⟩
        refine Decidable.byContradiction fun other => ?_
        obtain ⟨first, others, _split, whole⟩ := parts_cons other rest
        rw [whole] at split
        cases split

theorem isAbsolute_of_named (split : parts path.toList = first :: more) (some : first ≠ []) :
    isAbsolute path = false := by
  refine Bool.eq_false_iff.mpr fun absolute => some ?_
  obtain ⟨others, _some, whole⟩ := isAbsolute_iff.mp absolute
  rw [split] at whole
  exact (List.cons.inj whole).1

/-- Whether a path is absolute depends on the parts above those of something with a name. -/
theorem isAbsolute_of_above {above : List (List Char)}
    (split : parts path.toList = above ++ first :: more) (some : first ≠ []) :
    isAbsolute path = (above.head? == Option.some []) := by
  cases above with
  | nil => exact isAbsolute_of_named split some
  | cons part above =>
      rw [List.cons_append] at split
      rw [List.head?_cons]
      by_cases empty : part = []
      · rw [empty] at split ⊢
        exact isAbsolute_iff.mpr
          ⟨_, List.append_ne_nil_of_right_ne_nil _ (List.cons_ne_nil _ _), split⟩
      · rw [isAbsolute_of_named split empty, eq_comm, beq_eq_false_iff_ne]
        exact fun same => empty (Option.some.inj same)

theorem Plain.relative (plain : Plain path) : isAbsolute path = false := by
  obtain ⟨first, more, split⟩ := List.exists_cons_of_ne_nil (parts_ne_nil path.toList)
  refine isAbsolute_of_named split ?_
  exact (named_iff.mp (plain first (by rw [split]; exact List.mem_cons_self))).1

theorem Plain.withoutHere_eq (plain : Plain path) : withoutHere path.toList = path.toList := by
  unfold withoutHere
  split
  · rename_i rest whole
    have first : ['.'] ∈ parts path.toList := by
      rw [whole, ← List.singleton_append, parts_append_slash]
      exact List.mem_cons_self
    exact absurd rfl (named_iff.mp (plain _ first)).2.1
  · rfl

end Absolute

theorem parts_join (directory : String) :
    ∃ above, ∀ path, isAbsolute path = false →
      parts (join directory path).toList = above ++ parts path.toList := by
  by_cases empty : directory.isEmpty
  · refine ⟨[], fun path relative => ?_⟩
    rw [join, relative, empty, Bool.or_true, if_pos rfl, List.nil_append]
  · have nonempty := Bool.eq_false_iff.mpr empty
    by_cases slash : directory.toList.getLast? = some '/'
    · obtain ⟨start, whole⟩ := List.getLast?_eq_some_iff.mp slash
      refine ⟨parts start, fun path relative => ?_⟩
      rw [join, relative, nonempty, Bool.or_false, if_neg Bool.false_ne_true,
        if_pos (beq_iff_eq.mpr slash), String.toList_append, whole, List.append_assoc,
        List.singleton_append, parts_append_slash]
    · refine ⟨parts directory.toList, fun path relative => ?_⟩
      rw [join, relative, nonempty, Bool.or_false, if_neg Bool.false_ne_true,
        if_neg (mt beq_iff_eq.mp slash), String.toList_append, String.toList_append,
        List.append_assoc]
      exact parts_append_slash _ _

/-- The same of paths that have some parts in common above those of a name. -/
theorem parts_join_above (directory : String) (above : List (List Char)) :
    ∃ front, ∀ path first more, first ≠ [] → parts path.toList = above ++ first :: more →
      parts (join directory path).toList = front ++ first :: more := by
  obtain ⟨front, joined⟩ := parts_join directory
  cases absolute : above.head? == some [] with
  | true =>
      refine ⟨above, fun path first more some split => ?_⟩
      rw [join, isAbsolute_of_above split some, absolute, Bool.true_or, if_pos rfl, split]
  | false =>
      refine ⟨front ++ above, fun path first more some split => ?_⟩
      rw [joined path ((isAbsolute_of_above split some).trans absolute), split, List.append_assoc]

/-! ### Extensions -/

section Extensions

variable {name stem extension before after : List Char} {path last : List Char}
  {above : List (List Char)}

theorem atLastDot?_eq_none : atLastDot? name = none ↔ '.' ∉ name := by
  induction name with
  | nil => exact iff_of_true rfl List.not_mem_nil
  | cons c rest ih =>
      rw [atLastDot?, List.mem_cons, not_or, ← ih]
      cases atLastDot? rest with
      | some split => exact iff_of_false nofun fun both => nomatch both.2
      | none =>
          dsimp only
          split
          case isTrue dot => exact iff_of_false nofun fun both => both.1 dot.symm
          case isFalse other => exact iff_of_true rfl ⟨Ne.symm other, rfl⟩

theorem atLastDot?_append (before : List Char) (clear : '.' ∉ after) :
    atLastDot? (before ++ '.' :: after) = some (before, after) := by
  induction before with
  | nil =>
      rw [List.nil_append, atLastDot?, atLastDot?_eq_none.mpr clear]
      rfl
  | cons c before ih => rw [List.cons_append, atLastDot?, ih]

theorem atLastDot?_eq_some : atLastDot? name = some (before, after) ↔
    name = before ++ '.' :: after ∧ '.' ∉ after := by
  refine ⟨fun found => ?_, fun ⟨whole, clear⟩ => whole ▸ atLastDot?_append before clear⟩
  induction name generalizing before with
  | nil => cases found
  | cons c rest ih =>
      rw [atLastDot?] at found
      split at found
      · rename_i start tail later
        cases found
        obtain ⟨whole, clear⟩ := ih later
        exact ⟨congrArg (c :: ·) whole, clear⟩
      · rename_i none
        split at found
        case isTrue dot =>
          cases found
          exact ⟨by rw [dot, List.nil_append], atLastDot?_eq_none.mp none⟩
        case isFalse => cases found

/-- A dot in front does not begin an extension. -/
theorem splitName_eq_some : splitName name = (stem, some extension) ↔
    stem ≠ [] ∧ name = stem ++ '.' :: extension ∧ '.' ∉ extension := by
  rw [splitName, ← atLastDot?_eq_some]
  split
  · rename_i c before after split
    rw [split]
    constructor
    · intro same
      cases same
      exact ⟨List.cons_ne_nil _ _, rfl⟩
    · rintro ⟨_some, same⟩
      cases same
      rfl
  · rename_i short
    refine iff_of_false nofun ?_
    rintro ⟨some, split⟩
    obtain ⟨c, before, rfl⟩ := List.exists_cons_of_ne_nil some
    exact short c before extension split

theorem splitName_begins (name : List Char) : (splitName name).1 <+: name := by
  rw [splitName]
  split
  · rename_i c before after split
    exact ⟨_, (atLastDot?_eq_some.mp split).1.symm⟩
  · exact List.prefix_rfl

theorem lastName?_eq (split : parts path = above ++ [last]) (named : Named last) :
    lastName? path = some (above, last) := by
  obtain ⟨active, down⟩ := Bool.or_eq_false_iff.mp named
  rw [lastName?, split, List.reverse_append, List.reverse_singleton, List.singleton_append,
    List.dropWhile_cons_of_neg (Bool.eq_false_iff.mp active)]
  dsimp only
  rw [down, if_neg Bool.false_ne_true, List.reverse_reverse]

theorem extension?_eq (split : parts path = above ++ [last]) (named : Named last) :
    extension? path = (splitName last).2 := by
  rw [extension?, lastName?_eq split named]
  rfl

theorem parts_withExtension (split : parts path = above ++ [last]) (named : Named last)
    (clear : '/' ∉ extension) :
    parts (withExtension extension path) = above ++ [(splitName last).1 ++ '.' :: extension] := by
  rw [withExtension, lastName?_eq split named]
  refine parts_exchange split fun mem => ?_
  rcases List.mem_append.mp mem with inside | behind
  · exact slash_not_mem_last split ((splitName_begins last).subset inside)
  · rcases List.mem_cons.mp behind with dot | behind
    · exact absurd dot (by decide)
    · exact clear behind

end Extensions

end DocDrift.Path
