import DocDrift.Proofs.Change.Agreement
import DocDrift.Proofs.Change.Layout
import DocDrift.Proofs.Tables
import DocDrift.Source.Program

/-!
Changes of layout between sources. A change of layout is meant to leave alone what a source declares.
It does so for sources that declare the same if they have the same words; but blanks count inside
quotations and names, and a comment may end with its line.
-/

set_option autoImplicit false

namespace DocDrift

namespace Source

/-- A word lacks the characters that none begins with or goes on with. -/
theorem Word.lacks {c : Char} (foreign : startsWord c = false ∧ continuesWord c = false)
    (word : Word) : c ∉ word.text.toList := by
  have spelled := word.spelled
  intro mem
  cases letters : word.text.toList with
  | nil =>
      rw [letters] at mem
      cases mem
  | cons first rest =>
      rw [letters, isWord, Bool.and_eq_true, List.all_eq_true] at spelled
      rw [letters] at mem
      rcases List.mem_cons.mp mem with rfl | inside
      · rw [foreign.1] at spelled
        cases spelled.1
      · have continued := spelled.2 c inside
        rw [foreign.2] at continued
        cases continued

theorem Word.unmarked (word : Word) : '#' ∉ word.text.toList :=
  word.lacks (by decide)

theorem summarize_unmarked (items : List Item) : Unmarked (summarize items).types := by
  intro declared mem
  obtain ⟨type, _mem, rfl⟩ := List.mem_map.mp mem
  exact type.name.unmarked

end Source

/-- The summary of an accepted text is that of the items which the text declares. -/
theorem Summary.ofSource_summarizes {text : String} {summary : Summary}
    (accepted : Summary.ofSource text = .ok summary) :
    ∃ items, Source.declarations text = .ok items ∧ Source.summarize items = summary := by
  rw [Summary.ofSource] at accepted
  cases declared : Source.declarations text with
  | error error =>
      rw [declared] at accepted
      cases accepted
  | ok items =>
      rw [declared] at accepted
      cases accepted
      exact ⟨items, rfl, rfl⟩

theorem Summary.ofSource_unmarked {text : String} {summary : Summary}
    (accepted : Summary.ofSource text = .ok summary) : Unmarked summary.types := by
  obtain ⟨items, _declared, rfl⟩ := Summary.ofSource_summarizes accepted
  exact Source.summarize_unmarked items

/-- A change of layout from one source to another leaves alone what is declared just if the sources
declare the same in case that they have the same words. -/
theorem layout_unchanged_iff (old new : String) (before after : Summary)
    (accepted : Summary.ofSource old = .ok before) (accepted' : Summary.ofSource new = .ok after) :
    ((TextChange.between old new).layoutOnly = true →
        (Delta.between before after).hasChanges = false) ↔
      (Text.words old.toList = Text.words new.toList → before.Agrees after) := by
  have unmarked : Unmarked (before.types ++ after.types) := by
    intro declared mem
    rcases List.mem_append.mp mem with early | late
    · exact Summary.ofSource_unmarked accepted declared early
    · exact Summary.ofSource_unmarked accepted' declared late
  rw [TextChange.layoutOnly_iff, Delta.hasChanges_eq_false unmarked]
  constructor
  · intro unchanged same
    by_cases equal : old = new
    · subst equal
      rw [accepted] at accepted'
      cases accepted'
      exact before.agrees_refl
    · exact unchanged ⟨equal, same⟩
  · rintro agrees ⟨_differ, same⟩
    exact agrees same

def flatSource : String :=
  "class Foo \x7b public function bar() \x7b\x7d \x7d"

def indentedSource : String :=
  "class Foo \x7b\n    public function bar() \x7b\x7d\n\x7d\n"

/-- A class with one method. -/
def fooSummary : Summary :=
  { space := none
    imports := []
    types := [
      { kind := .ofClass
        name := "Foo"
        parent := none
        interfaces := []
        modifiers := ⟨false, false⟩
        methods := [⟨"bar", .isPublic, "()", none⟩]
        properties := []
        docblock := none }]
    functions := [] }

theorem layout_unchanged_of_indented :
    (TextChange.between flatSource indentedSource).layoutOnly = true ∧
      (Delta.between fooSummary fooSummary).hasChanges = false := by
  have layout : (TextChange.between flatSource indentedSource).layoutOnly = true := by
    decide +kernel
  have accepted : Summary.ofSource flatSource = .ok fooSummary :=
    ok_of_toOption (by decide +kernel)
  have accepted' : Summary.ofSource indentedSource = .ok fooSummary :=
    ok_of_toOption (by decide +kernel)
  have unchanged := (layout_unchanged_iff flatSource indentedSource fooSummary fooSummary accepted
    accepted').mpr fun _ => fooSummary.agrees_refl
  exact ⟨layout, unchanged layout⟩

def notedSource : String :=
  "<?php\n// note\nfunction f() \x7b\x7d\n"

def joinedSource : String :=
  "<?php\n// note function f() \x7b\x7d\n"

/-- A comment that goes on where its line ended swallows a function. -/
theorem layout_hides_function :
    ∃ before after : Summary,
      Summary.ofSource notedSource = .ok before ∧ Summary.ofSource joinedSource = .ok after ∧
      (TextChange.between notedSource joinedSource).layoutOnly = true ∧
      (Delta.between before after).hasChanges = true := by
  refine ⟨⟨none, [], [], [⟨"f", .isPublic, "()", none⟩]⟩, .empty, ?_, ?_, ?_, ?_⟩
  · exact ok_of_toOption (by decide +kernel)
  · exact ok_of_toOption (by decide +kernel)
  · decide +kernel
  · decide +kernel

end DocDrift
