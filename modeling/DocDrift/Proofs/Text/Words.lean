import DocDrift.Text.Blank
import DocDrift.Text.Line
import Mathlib.Data.List.Basic

/-!
The words of a text. Words are read the same whether a text is taken as a whole or line by line, and
a text without its layout still has the words that it had.
-/

set_option autoImplicit false

namespace DocDrift.Text

/-! ### Words and blanks -/

theorem words_nil : words [] = [] := rfl

theorem words_blank {c : Char} (blank : isBlank c = true) (rest : List Char) :
    words (c :: rest) = words rest := by
  rw [words.eq_def]
  exact if_pos blank

theorem words_solid {c : Char} (solid : isBlank c = false) (rest : List Char) :
    words (c :: rest) =
      match rest with
      | [] => [[c]]
      | d :: _ =>
          if isBlank d then [c] :: words rest
          else
            match words rest with
            | [] => [[c]]
            | word :: more => (c :: word) :: more := by
  rw [words.eq_def]
  exact if_neg (by simp [solid])

theorem words_single {c : Char} (solid : isBlank c = false) : words [c] = [[c]] :=
  words_solid solid []

theorem words_before_blank {c d : Char} (solid : isBlank c = false) (blank : isBlank d = true)
    (rest : List Char) : words (c :: d :: rest) = [c] :: words rest := by
  rw [words_solid solid]
  dsimp only
  rw [if_pos blank, words_blank blank]

theorem words_ne_nil {c : Char} (solid : isBlank c = false) (rest : List Char) :
    words (c :: rest) ≠ [] := by
  rw [words_solid solid]
  cases rest with
  | nil => exact List.cons_ne_nil _ _
  | cons d rest =>
      dsimp only
      split
      · exact List.cons_ne_nil _ _
      · split <;> exact List.cons_ne_nil _ _

/-- A character that is not blank belongs to the word behind it. -/
theorem words_joined {c d : Char} {rest word : List Char} {more : List (List Char)}
    (solid : isBlank c = false) (solid' : isBlank d = false)
    (read : words (d :: rest) = word :: more) :
    words (c :: d :: rest) = (c :: word) :: more := by
  rw [words_solid solid]
  dsimp only
  rw [if_neg (by simp [solid']), read]

/-- A blank separates the words before it from those behind it. -/
theorem words_append_blank {c : Char} (blank : isBlank c = true) (text more : List Char) :
    words (text ++ c :: more) = words text ++ words more := by
  induction text with
  | nil => rw [List.nil_append, words_blank blank, words_nil, List.nil_append]
  | cons a rest ih =>
      rw [List.cons_append]
      cases first : isBlank a with
      | true => rw [words_blank first, words_blank first, ih]
      | false =>
          cases rest with
          | nil =>
              rw [List.nil_append, words_before_blank first blank, words_single first,
                List.cons_append, List.nil_append]
          | cons d rest =>
              rw [List.cons_append] at ih ⊢
              cases second : isBlank d with
              | true =>
                  rw [words_blank second, words_blank second] at ih
                  rw [words_before_blank first second, words_before_blank first second, ih,
                    List.cons_append]
              | false =>
                  obtain ⟨word, others, read⟩ := List.exists_cons_of_ne_nil (words_ne_nil second rest)
                  rw [read, List.cons_append] at ih
                  rw [words_joined first second ih, words_joined first second read,
                    List.cons_append]

/-! ### Texts made of words -/

/-- Texts that can be the words of a text. -/
def AreWords (list : List (List Char)) : Prop :=
  ∀ word ∈ list, word ≠ [] ∧ ∀ c ∈ word, isBlank c = false

theorem areWords_words (text : List Char) : AreWords (words text) := by
  induction text with
  | nil =>
      intro word mem
      cases mem
  | cons c rest ih =>
      cases first : isBlank c with
      | true =>
          rw [words_blank first]
          exact ih
      | false =>
          have alone : AreWords [[c]] := by
            intro word mem
            obtain rfl := List.mem_singleton.mp mem
            refine ⟨List.cons_ne_nil c [], ?_⟩
            intro d memChar
            obtain rfl := List.mem_singleton.mp memChar
            exact first
          cases rest with
          | nil =>
              rw [words_single first]
              exact alone
          | cons d rest =>
              intro word mem
              cases second : isBlank d with
              | true =>
                  rw [words_before_blank first second] at mem
                  rw [words_blank second] at ih
                  rcases List.mem_cons.mp mem with rfl | later
                  · exact alone _ List.mem_cons_self
                  · exact ih word later
              | false =>
                  obtain ⟨start, others, read⟩ := List.exists_cons_of_ne_nil (words_ne_nil second rest)
                  rw [words_joined first second read] at mem
                  rw [read] at ih
                  rcases List.mem_cons.mp mem with rfl | later
                  · refine ⟨List.cons_ne_nil c start, ?_⟩
                    intro e memChar
                    rcases List.mem_cons.mp memChar with rfl | inside
                    · exact first
                    · exact (ih start List.mem_cons_self).2 e inside
                  · exact ih word (List.mem_cons_of_mem _ later)

theorem words_of_solid {word : List Char} (some : word ≠ [])
    (solid : ∀ c ∈ word, isBlank c = false) : words word = [word] := by
  induction word with
  | nil => exact absurd rfl some
  | cons c rest ih =>
      have first := solid c List.mem_cons_self
      cases rest with
      | nil => exact words_single first
      | cons d rest =>
          have later : ∀ e ∈ d :: rest, isBlank e = false :=
            fun e mem => solid e (List.mem_cons_of_mem _ mem)
          exact words_joined first (later d List.mem_cons_self)
            (ih (List.cons_ne_nil d rest) later)

theorem words_intercalate {list : List (List Char)} (are : AreWords list) :
    words ([' '].intercalate list) = list := by
  induction list with
  | nil => rfl
  | cons word rest ih =>
      obtain ⟨some, solid⟩ := are word List.mem_cons_self
      have others : AreWords rest := fun other mem => are other (List.mem_cons_of_mem _ mem)
      have space : isBlank ' ' = true := by decide
      cases rest with
      | nil => rw [List.intercalate_singleton, words_of_solid some solid]
      | cons next rest =>
          rw [List.intercalate_cons_cons, List.append_assoc, List.singleton_append,
            words_append_blank space, words_of_solid some solid, ih others, List.singleton_append]

theorem words_collapse (text : List Char) : words (collapse text) = words text :=
  words_intercalate (areWords_words text)

/-- Two texts are the same without their layout just if they have the same words. -/
theorem collapse_eq_iff {left right : List Char} :
    collapse left = collapse right ↔ words left = words right := by
  constructor
  · intro same
    rw [← words_collapse left, same, words_collapse]
  · intro same
    rw [collapse, same, collapse]

/-! ### Words line by line -/

/-- Lines each of which, but for the last, ends with a blank. -/
inductive Terminated : List (List Char) → Prop
  | none : Terminated []
  | last (line : List Char) : Terminated [line]
  | cons (body : List Char) (c : Char) (rest : List (List Char)) (blank : isBlank c = true)
      (terminated : Terminated rest) : Terminated ((body ++ [c]) :: rest)

theorem Terminated.begun {line : List Char} {more : List (List Char)} (c : Char)
    (terminated : Terminated (line :: more)) : Terminated ((c :: line) :: more) := by
  cases terminated with
  | last line => exact .last (c :: line)
  | cons body d rest blank terminated => exact .cons (c :: body) d more blank terminated

theorem terminatedLines_terminated (text : List Char) : Terminated (terminatedLines text) := by
  induction text using terminatedLines.induct with
  | case1 => exact .none
  | case2 rest ih => exact .cons ['\r'] '\n' _ (by decide) ih
  | case3 c rest single ends ih =>
      rw [terminatedLines.eq_3 c rest single, if_pos ends]
      refine .cons [] c _ ?_ ih
      rcases ends with rfl | rfl
      · decide
      · decide
  | case4 c rest single inside none ih =>
      rw [terminatedLines.eq_3 c rest single, if_neg inside, none]
      exact .last [c]
  | case5 c rest single inside line more read ih =>
      rw [terminatedLines.eq_3 c rest single, if_neg inside, read]
      rw [read] at ih
      exact ih.begun c

theorem flatten_terminatedLines (text : List Char) : (terminatedLines text).flatten = text := by
  induction text using terminatedLines.induct with
  | case1 => rfl
  | case2 rest ih =>
      rw [terminatedLines.eq_2, List.flatten_cons, ih, List.cons_append, List.singleton_append]
  | case3 c rest single ends ih =>
      rw [terminatedLines.eq_3 c rest single, if_pos ends, List.flatten_cons, ih,
        List.singleton_append]
  | case4 c rest single inside none ih =>
      rw [none, List.flatten_nil] at ih
      rw [terminatedLines.eq_3 c rest single, if_neg inside, none, List.flatten_singleton, ← ih]
  | case5 c rest single inside line more read ih =>
      rw [read, List.flatten_cons] at ih
      rw [terminatedLines.eq_3 c rest single, if_neg inside, read, List.flatten_cons,
        List.cons_append, ih]

theorem Terminated.words_flatten {lines : List (List Char)} (terminated : Terminated lines) :
    words lines.flatten = lines.flatMap words := by
  induction terminated with
  | none => rfl
  | last line => rw [List.flatten_singleton, List.flatMap_singleton]
  | cons body c rest blank terminated ih =>
      rw [List.flatten_cons, List.append_assoc, List.singleton_append, words_append_blank blank, ih,
        List.flatMap_cons, words_append_blank blank, words_nil,
        List.append_nil]

theorem flatMap_words_terminatedLines (text : List Char) :
    (terminatedLines text).flatMap words = words text := by
  rw [← (terminatedLines_terminated text).words_flatten, flatten_terminatedLines]

end DocDrift.Text
