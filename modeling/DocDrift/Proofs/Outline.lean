import DocDrift.Proofs.Pass.Cut
import DocDrift.Proofs.Pass.Runs
import Mathlib.Data.List.Perm.Basic

/-!
What an outline lists. Every type, member and function of a summary has an entry of its own in the
outline, at the start of a line and in the order of the summary: a type has its heading, and before
the heading of the next type stand its properties and its methods; behind all types stand the
functions. So whatever is registered as documented with an outline is in it.

Descriptions and signatures go between the entries as they are, whatever they look like. So the
entries are placed by where they were written and not by looking for them in the text.
-/

set_option autoImplicit false

namespace DocDrift.Outline

/-! ### Entries -/

/-- What has an entry in an outline; a member has it below its type. -/
inductive Entry
  | type (declared : TypeDeclaration)
  | property (owner : TypeDeclaration) (member : Member)
  | method (owner : TypeDeclaration) (member : Member)
  | function (member : Member)

namespace Entry

def callableOpening (start : String) (member : Member) : String :=
  "- " ++ code (start ++ " " ++ member.name ++ member.signature)

def opening : Entry → String
  | .type declared => "## " ++ declared.kind.label ++ " " ++ code declared.name
  | .property _ member => "- " ++ code (member.visibility.label ++ " $" ++ member.name) ++ " "
  | .method _ member => callableOpening member.visibility.label member
  | .function member => callableOpening "function" member

def symbol : Entry → String
  | .type declared => declared.name
  | .property owner member => memberSymbol owner.name member.name
  | .method owner member => memberSymbol owner.name member.name
  | .function member => member.name

/-- The entries of a type: its heading, its properties and its methods. -/
def ofType (declared : TypeDeclaration) : List Entry :=
  .type declared :: (declared.properties.map (.property declared) ++
    declared.methods.map (.method declared))

/-- The entries of a summary in the order of its outline. -/
def ofSummary (summary : Summary) : List Entry :=
  summary.types.flatMap ofType ++ summary.functions.map .function

end Entry

/-! ### Texts that list entries -/

/-- A text that does not end within a line. -/
def WholeLines (text : String) : Prop :=
  text = "" ∨ ∃ start, text = line start

/-- A text of whole lines in which entries with these openings stand in this order, each from the
start of a line to the end of one. -/
inductive Lists : List String → String → Prop
  | done {rest : String} (whole : WholeLines rest) : Lists [] rest
  | entry {before rest : String} {openings : List String} (opening further : String)
      (whole : WholeLines before) (later : Lists openings rest) :
      Lists (opening :: openings) (before ++ line (opening ++ further) ++ rest)

theorem wholeLines_line (text : String) : WholeLines (line text) :=
  .inr ⟨text, rfl⟩

theorem wholeLines_empty : WholeLines "" :=
  .inl rfl

theorem WholeLines.append {text more : String} (whole : WholeLines text)
    (wholeMore : WholeLines more) : WholeLines (text ++ more) := by
  rcases wholeMore with rfl | ⟨start, rfl⟩
  · rw [String.append_empty]
    exact whole
  · exact .inr ⟨text ++ start, (String.append_assoc ..).symm⟩

theorem wholeLines_ite {shown : Prop} [Decidable shown] {text more : String}
    (whole : WholeLines text) (wholeMore : WholeLines more) :
    WholeLines (if shown then text else more) := by
  split
  · exact whole
  · exact wholeMore

namespace Lists

variable {openings more : List String} {text rest : String}

theorem behind {before : String} (whole : WholeLines before) (lists : Lists openings text) :
    Lists openings (before ++ text) := by
  cases lists with
  | done wholeText => exact .done (whole.append wholeText)
  | entry opening further wholeBefore later =>
      rw [String.append_assoc, ← String.append_assoc, ← String.append_assoc]
      exact .entry opening further (whole.append wholeBefore) later

theorem append (lists : Lists openings text) (lists' : Lists more rest) :
    Lists (openings ++ more) (text ++ rest) := by
  induction lists with
  | done whole => exact lists'.behind whole
  | entry opening further whole _ ih =>
      rw [String.append_assoc]
      exact .entry opening further whole ih

theorem single (opening further : String) : Lists [opening] (line (opening ++ further)) := by
  have lists := Lists.entry opening further wholeLines_empty (.done wholeLines_empty)
  rw [String.empty_append, String.append_empty] at lists
  exact lists

theorem join {α : Type} (openings : α → List String) (render : α → String) (items : List α)
    (each : ∀ item ∈ items, Lists (openings item) (render item)) :
    Lists (items.flatMap openings) (String.join (items.map render)) := by
  induction items with
  | nil => exact .done wholeLines_empty
  | cons item rest ih =>
      rw [List.flatMap_cons, List.map_cons, String.join_cons]
      apply append
      · exact each item List.mem_cons_self
      · exact ih fun other mem => each other (List.mem_cons_of_mem _ mem)

theorem group (heading : String) {entries : List String}
    (lists : Lists openings (String.join entries)) : Lists openings (group heading entries) := by
  unfold Outline.group
  cases entries with
  | nil => exact lists
  | cons entry rest =>
      have above : WholeLines ("\n" ++ line heading ++ "\n") :=
        ((wholeLines_line "").append (wholeLines_line heading)).append (wholeLines_line "")
      exact lists.behind above

end Lists

/-! ### The parts of an outline -/

theorem lists_heading (declared : TypeDeclaration) :
    Lists [Entry.opening (.type declared)] (typeHeading declared) := by
  have lists := Lists.entry (Entry.opening (.type declared)) "" (wholeLines_line "")
    (.done (wholeLines_line ""))
  rw [String.append_empty] at lists
  exact lists

theorem lists_property (owner : TypeDeclaration) (property : Member) :
    Lists [Entry.opening (.property owner property)] (propertyEntry property) :=
  Lists.single _ property.signature

/-- The first line of a description stands behind the entry, on its line. -/
theorem lists_callable (start : String) (member : Member) :
    Lists [Entry.callableOpening start member] (callableEntry start member) := by
  unfold callableEntry
  cases (member.docblock.map description).getD [] with
  | nil =>
      have lists := Lists.single (Entry.callableOpening start member) ""
      rw [String.append_empty] at lists
      exact lists
  | cons first _ =>
      have lists := Lists.single (Entry.callableOpening start member) (": " ++ String.ofList first)
      rw [← String.append_assoc] at lists
      exact lists

theorem wholeLines_typeFacts (declared : TypeDeclaration) : WholeLines (typeFacts declared) := by
  have described (text : String) : WholeLines (line text ++ "\n") :=
    (wholeLines_line text).append (wholeLines_line "")
  apply WholeLines.append
  · apply WholeLines.append
    · apply WholeLines.append
      · apply WholeLines.append
        · exact wholeLines_ite wholeLines_empty (described _)
        · cases declared.parent with
          | some parent => exact wholeLines_line _
          | none => exact wholeLines_empty
      · exact wholeLines_ite wholeLines_empty (wholeLines_line _)
    · exact wholeLines_ite (wholeLines_line _) wholeLines_empty
  · exact wholeLines_ite (wholeLines_line _) wholeLines_empty

theorem lists_type (declared : TypeDeclaration) :
    Lists ((Entry.ofType declared).map Entry.opening) (typeSection declared) := by
  have properties : Lists ((declared.properties.map (Entry.property declared)).map Entry.opening)
      (String.join (declared.properties.map propertyEntry)) := by
    rw [List.map_map, List.map_eq_flatMap]
    apply Lists.join
    exact fun property _mem => lists_property declared property
  have methods : Lists ((declared.methods.map (Entry.method declared)).map Entry.opening)
      (String.join (declared.methods.map fun method =>
        callableEntry method.visibility.label method)) := by
    rw [List.map_map, List.map_eq_flatMap]
    apply Lists.join
    exact fun method _mem => lists_callable method.visibility.label method
  have facts : Lists [] (typeFacts declared) := .done (wholeLines_typeFacts declared)
  have all := (((lists_heading declared).append facts).append
    (properties.group "### Properties")).append (methods.group "### Methods")
  rw [Entry.ofType, List.map_cons, List.map_append]
  exact all

/-- The outline of a file lists its entries. -/
theorem lists_render (path : String) (summary : Summary) :
    Lists ((Entry.ofSummary summary).map Entry.opening) (render path summary) := by
  have types : Lists ((summary.types.flatMap Entry.ofType).map Entry.opening)
      (String.join (summary.types.map typeSection)) := by
    rw [List.map_flatMap]
    apply Lists.join
    exact fun declared _mem => lists_type declared
  have functions : Lists ((summary.functions.map Entry.function).map Entry.opening)
      (String.join (summary.functions.map (callableEntry "function"))) := by
    rw [List.map_map, List.map_eq_flatMap]
    apply Lists.join
    exact fun function _mem => lists_callable "function" function
  rw [Entry.ofSummary, List.map_append]
  apply (types.behind _).append (functions.group "## Functions")
  apply (wholeLines_line _).append
  cases summary.space with
  | some space => exact (wholeLines_line "").append (wholeLines_line _)
  | none => exact wholeLines_empty

/-! ### Entries and symbols -/

theorem symbols_ofType (declared : TypeDeclaration) :
    ((Entry.ofType declared).map Entry.symbol).Perm
      (declared.name :: declared.members.map fun member =>
        memberSymbol declared.name member.name) := by
  simp only [Entry.ofType, List.map_cons, List.map_append, List.map_map,
    TypeDeclaration.members]
  exact (List.perm_append_comm).cons declared.name

/-- The entries of a summary are about its symbols, about each as often as it is declared. -/
theorem symbols_ofSummary (summary : Summary) :
    ((Entry.ofSummary summary).map Entry.symbol).Perm summary.symbolNames := by
  rw [Entry.ofSummary, List.map_append, List.map_flatMap, List.map_map]
  apply List.Perm.append
  · exact List.Perm.flatMap_left summary.types fun declared _mem => symbols_ofType declared
  · exact .refl _

/-! ### Outlines and the register -/

theorem outline_ok {path source : String} {summary : Summary}
    (accepted : Summary.ofSource source = .ok summary) :
    Generator.outline path source = .ok ⟨render path summary, none⟩ := by
  unfold Generator.outline ofSource
  rw [accepted]
  rfl

/-- A file whose document is an outline has its symbols registered once the outline is written. -/
theorem document_effects {pass : Pass} {path : String} {bytes : ByteArray} {score : Option Nat}
    {summary : Summary} {outcome : Pass.Outcome} {world after : Pass.World}
    (outlines : pass.generator = Generator.outline)
    (accepted : Summary.ofSource (Text.decodeLossy bytes) = .ok summary)
    (ended : (pass.document path (pass.target path) (Text.decodeLossy bytes)
      (Digest.ofBytes bytes) (some summary) score).run world = (.ok outcome, after)) :
    after.effects = world.effects ++
      [.madeParent (pass.documentTarget path),
        .wroteFile (pass.documentTarget path) (render path summary),
        .wroteStore (.documented (pass.target path) (Digest.ofBytes bytes)
          (some (pass.config.documentPath path))),
        .wroteStore (.listed (pass.target path) summary.symbolNames (Digest.ofBytes bytes))] := by
  have summarized : Pass.summaryOf bytes = some summary := by
    rw [Pass.summaryOf, accepted]
    rfl
  rw [← summarized, Pass.run_document, Pass.documentCourse, outlines, outline_ok accepted,
    Pass.Course.carriedOut] at ended
  dsimp only at ended
  have effects := Pass.carry_effects ended
  rw [Pass.documenting, summarized] at effects
  exact effects

/-- The outline of an accepted text lists an entry for each type, member and function, and the entries
are about the symbols of the text. A pass that makes outlines registers just these symbols when it has
written the outline. -/
theorem registered_has_entry (path source : String) {summary : Summary}
    (accepted : Summary.ofSource source = .ok summary) :
    ∃ text, Generator.outline path source = .ok ⟨text, none⟩ ∧
      Lists ((Entry.ofSummary summary).map Entry.opening) text ∧
      ((Entry.ofSummary summary).map Entry.symbol).Perm summary.symbolNames ∧
      ∀ (pass : Pass) (bytes : ByteArray) (score : Option Nat) (outcome : Pass.Outcome)
        (world after : Pass.World),
        pass.generator = Generator.outline → Text.decodeLossy bytes = source →
        (pass.document path (pass.target path) source (Digest.ofBytes bytes) (some summary)
          score).run world = (.ok outcome, after) →
        after.effects = world.effects ++
          [.madeParent (pass.documentTarget path), .wroteFile (pass.documentTarget path) text,
            .wroteStore (.documented (pass.target path) (Digest.ofBytes bytes)
              (some (pass.config.documentPath path))),
            .wroteStore (.listed (pass.target path) summary.symbolNames
              (Digest.ofBytes bytes))] := by
  refine ⟨render path summary, outline_ok accepted, lists_render path summary,
    symbols_ofSummary summary, ?_⟩
  intro pass bytes score outcome world after outlines decoded ended
  subst decoded
  exact document_effects outlines accepted ended

/-- A text whose class comment looks like the heading of another class. -/
def cartSource : String :=
  "<?php\n/** ## class \x60Basket\x60 */\nclass Cart \x7b\n    private $items = [];\n" ++
    "    public function add($item) \x7b\x7d\n\x7d\nfunction total() \x7b\x7d\n"

def cart : Summary :=
  { space := none
    imports := []
    types := [
      { kind := .ofClass
        name := "Cart"
        parent := none
        interfaces := []
        modifiers := ⟨false, false⟩
        methods := [⟨"add", .isPublic, "($item)", none⟩]
        properties := [⟨"items", .isPrivate, "= []", none⟩]
        docblock := some "/** ## class \x60Basket\x60 */" }]
    functions := [⟨"total", .isPublic, "()", none⟩] }

/-- What a pass that makes outlines ends with when it documents the text. -/
def cartEnded : Except Failure Pass.Outcome × Pass.World :=
  ((Pass.layoutPass "first").document "a.php" ((Pass.layoutPass "first").target "a.php")
    cartSource (Digest.ofBytes cartSource.toUTF8) (some cart) none).run
      (.start (Pass.layoutFiles cartSource) .empty)

/-- What looks like a heading is in the outline, and is not one of its entries. -/
theorem registered_has_entry_of_cart :
    ∃ text, Generator.outline "a.php" cartSource = .ok ⟨text, none⟩ ∧
      Lists ["## class \x60Cart\x60", "- \x60private $items\x60 ", "- \x60public add($item)\x60",
        "- \x60function total()\x60"] text ∧
      ["Cart", "Cart::items", "Cart::add", "total"].Perm cart.symbolNames ∧
      cartEnded.1 = .ok (.processed "a.php" none "docs/api/a.md") ∧
      cartEnded.2.effects = [.madeParent "/site/docs/api/a.md",
        .wroteFile "/site/docs/api/a.md" text,
        .wroteStore (.documented "/site/a.php" (Digest.ofBytes cartSource.toUTF8)
          (some "docs/api/a.md")),
        .wroteStore (.listed "/site/a.php" cart.symbolNames
          (Digest.ofBytes cartSource.toUTF8))] := by
  have accepted : Summary.ofSource cartSource = .ok cart := ok_of_toOption (by decide +kernel)
  obtain ⟨text, made, lists, symbols, registers⟩ :=
    registered_has_entry "a.php" cartSource accepted
  have openings : (Entry.ofSummary cart).map Entry.opening =
      ["## class \x60Cart\x60", "- \x60private $items\x60 ", "- \x60public add($item)\x60",
        "- \x60function total()\x60"] := by decide +kernel
  have about : (Entry.ofSummary cart).map Entry.symbol =
      ["Cart", "Cart::items", "Cart::add", "total"] := by decide +kernel
  rw [openings] at lists
  rw [about] at symbols
  have decoded : Text.decodeLossy cartSource.toUTF8 = cartSource := by decide +kernel
  have ended : cartEnded.1 = .ok (.processed "a.php" none "docs/api/a.md") :=
    ok_of_toOption (by decide +kernel)
  have ran : cartEnded = (.ok (.processed "a.php" none "docs/api/a.md"), cartEnded.2) := by
    rw [← ended]
  have registered := registers (Pass.layoutPass "first") cartSource.toUTF8 none _
    (.start (Pass.layoutFiles cartSource) .empty) cartEnded.2 rfl decoded ran
  have document : (Pass.layoutPass "first").documentTarget "a.php" = "/site/docs/api/a.md" := by
    decide +kernel
  have target : (Pass.layoutPass "first").target "a.php" = "/site/a.php" := by decide +kernel
  rw [document, target] at registered
  exact ⟨text, made, lists, symbols, ended, registered⟩

end DocDrift.Outline
