import DocDrift.Proofs.Change.Shuffling
import DocDrift.Proofs.Scoring.Context

/-!
What neither the order of declarations nor documentation has a say in. Changes that are alike touch
the same symbols, get the same points and are of the same kind, so they are scored and judged the same
under every policy. Only the reasons may differ, for they name the first documented symbol.
-/

set_option autoImplicit false

namespace DocDrift

variable {old new : Summary} {left right : Delta}

/-! ### Symbols -/

theorem TypeDelta.Alike.symbols_perm {apart : MemberSort → Prop} {change other : TypeDelta}
    (alike : change.Alike apart other) (name : String) :
    (Delta.typeSymbols name change).Perm (Delta.typeSymbols name other) := by
  have methods := (alike.members .method).names_perm
  have properties := (alike.members .property).names_perm
  rw [Delta.typeSymbols, alike.changesHierarchy, alike.modifiers, Delta.typeSymbols]
  exact ((methods.append properties).map _).append_left _

theorem Delta.Alike.touched_perm (alike : left.Alike old new right) :
    left.touchedSymbols.Perm right.touchedSymbols := by
  have types : (left.types.modified.flatMap fun entry => typeSymbols entry.1 entry.2).Perm
      (right.types.modified.flatMap fun entry => typeSymbols entry.1 entry.2) := by
    have each := alike.types.modified
    generalize left.types.modified = entries at each ⊢
    generalize right.types.modified = others at each ⊢
    induction each with
    | nil => exact .refl _
    | cons related _ ih =>
        obtain ⟨_apart, same⟩ := related.2.alike
        rw [List.flatMap_cons, List.flatMap_cons, ← related.1]
        exact (same.symbols_perm _).append ih
  exact ((alike.types.added.append alike.types.removed).append types).append
    alike.functions.names_perm

/-! ### Points -/

namespace Scoring

variable (policy : Policy)

theorem typePoints_alike {apart : MemberSort → Prop} {change other : TypeDelta}
    (alike : change.Alike apart other) : typePoints policy change = typePoints policy other := by
  have methods := alike.members .method
  have properties := alike.members .property
  have churn : change.methods.churn = other.methods.churn := methods.churn
  have length : change.methods.modified.length = other.methods.modified.length := methods.length
  have churn' : change.properties.churn = other.properties.churn := properties.churn
  have length' : change.properties.modified.length = other.properties.modified.length :=
    properties.length
  rw [typePoints, alike.parent, alike.implements, alike.modifiers, churn, length, churn', length',
    typePoints]

theorem totalPoints_alike {types others : NameMap TypeDelta}
    (each : List.Forall₂
      (fun entry other => entry.1 = other.1 ∧ TypeDelta.AlikeUnder old new entry.1 entry.2 other.2)
      types others) :
    types.values.foldr (fun change points => typePoints policy change + points) 0 =
      others.values.foldr (fun change points => typePoints policy change + points) 0 := by
  induction each with
  | nil => rfl
  | cons related _ ih =>
      obtain ⟨_apart, same⟩ := related.2.alike
      simp only [NameMap.values, List.map_cons, List.foldr_cons] at ih ⊢
      rw [typePoints_alike policy same, ih]

variable (alike : left.Alike old new right)

include alike

theorem deltaPoints_alike (severity : left.severity = right.severity) :
    deltaPoints policy left = deltaPoints policy right := by
  have types := totalPoints_alike policy alike.types.modified
  rw [deltaPoints, alike.space, alike.types.churn, types, alike.interfaces.hasChanges,
    alike.functions.hasChanges, alike.imports.hasChanges, severity, deltaPoints]

theorem contextPoints_alike (context : SymbolContext) :
    (contextPoints policy left context).1 = (contextPoints policy right context).1 := by
  have touched {symbol : String} : symbol ∈ left.touchedSymbols ↔ symbol ∈ right.touchedSymbols :=
    alike.touched_perm.mem_iff
  have nothing : left.touchedSymbols = [] ↔ right.touchedSymbols = [] := by
    rw [← List.isEmpty_iff, alike.touched_perm.isEmpty_eq, List.isEmpty_iff]
  have documented : left.TouchesDocumented context ↔ right.TouchesDocumented context := by
    simp only [Delta.TouchesDocumented, touched]
  have hidden : left.TouchesHidden context ↔ right.TouchesHidden context := by
    simp only [Delta.TouchesHidden, Ne, nothing, touched]
  simp only [contextPoints_fst, documented, hidden]

end Scoring

/-! ### Kinds of change -/

namespace Classification

theorem raiseForType_alike {apart : MemberSort → Prop} {change other : TypeDelta}
    (alike : change.Alike apart other) (found : Classification) :
    raiseForType found change = raiseForType found other := by
  have methods : change.methods.hasChanges = other.methods.hasChanges :=
    (alike.members .method).hasChanges
  have properties : change.properties.hasChanges = other.properties.hasChanges :=
    (alike.members .property).hasChanges
  rw [raiseForType, alike.changesHierarchy, alike.modifiers, methods, properties, raiseForType]

theorem foldl_alike {types others : NameMap TypeDelta}
    (each : List.Forall₂
      (fun entry other => entry.1 = other.1 ∧ TypeDelta.AlikeUnder old new entry.1 entry.2 other.2)
      types others) (found : Classification) :
    types.values.foldl raiseForType found = others.values.foldl raiseForType found := by
  induction each generalizing found with
  | nil => rfl
  | cons related _ ih =>
      obtain ⟨_apart, same⟩ := related.2.alike
      rw [NameMap.values, NameMap.values, List.map_cons, List.map_cons, List.foldl_cons,
        List.foldl_cons, raiseForType_alike same]
      exact ih _

theorem of_alike (change : TextChange) (alike : left.Alike old new right) :
    of change left = of change right := by
  have implemented : left.implementsChanged = right.implementsChanged := by
    apply alike.types.any_values
    intro name change other under
    obtain ⟨_apart, same⟩ := under.alike
    exact same.implements
  have primary : primaryOf change left = primaryOf change right := by
    rw [primaryOf, alike.types.hasChanges, alike.interfaces.hasChanges, alike.space,
      alike.functions.hasChanges, alike.imports.hasChanges, primaryOf]
  rw [of, ofContent, primary, alike.space, alike.types.churn, foldl_alike alike.types.modified,
    alike.interfaces.hasChanges, implemented, alike.functions.churn, alike.functions.isEmpty,
    alike.imports.hasChanges]
  rfl

end Classification

/-! ### Outcomes -/

namespace Significance

/-- Outcomes that say the same, for whatever reasons. -/
structure SameOutcome (left right : Significance) : Prop where
  score : left.score = right.score
  classification : left.classification = right.classification
  decision : left.recommendation.decision = right.recommendation.decision

theorem of_decision (policy : Policy) (change : TextChange) (delta : Delta)
    (context : SymbolContext) : (of policy change delta context).recommendation.decision =
      .of policy (of policy change delta context).score (Classification.of change delta) := by
  rw [of_score]
  exact Rule.applyAll_decision policy _

theorem of_alike (policy : Policy) (change : TextChange) (context : SymbolContext)
    (alike : left.Alike old new right) (severity : left.severity = right.severity) :
    (of policy change left context).SameOutcome (of policy change right context) := by
  have classification := Classification.of_alike change alike
  have points : (pointsOf policy change left context).1 =
      (pointsOf policy change right context).1 := by
    unfold pointsOf
    split
    · rfl
    · dsimp only
      rw [Scoring.contextPoints_alike policy alike, Scoring.deltaPoints_alike policy alike severity]
  have score : (of policy change left context).score = (of policy change right context).score := by
    rw [of_score, of_score, points]
  have decision : (of policy change left context).recommendation.decision =
      (of policy change right context).recommendation.decision := by
    rw [of_decision, of_decision, score, classification]
  refine ⟨score, ?_, decision⟩
  rw [of_classification, of_classification, classification]

end Significance

namespace Delta

/-- Between summaries of distinct names, the order of declarations and their documentation have no
part in how severe a change is, in what it touches, nor in the score, the classification and the
decision that it gets. What comes, what goes and what changes under a name is the same but for its
order, as far as names are told apart by what comes before their first mark. -/
theorem shuffled_same_outcome {old' new' : Summary} (distinct : old.Distinct)
    (distinct' : new.Distinct) (shuffled : old.Shuffled old') (shuffled' : new.Shuffled new') :
    (between old new).severity = (between old' new').severity ∧
    (between old new).hasChanges = (between old' new').hasChanges ∧
    (between old new).Alike old new (between old' new') ∧
    ∀ (policy : Policy) (change : TextChange) (context : SymbolContext),
      (Significance.of policy change (between old new) context).SameOutcome
        (Significance.of policy change (between old' new') context) := by
  have alike := between_alike distinct distinct' shuffled shuffled'
  have severity := between_severity distinct distinct' shuffled shuffled'
  refine ⟨severity, alike.hasChanges, alike, ?_⟩
  intro policy change context
  exact Significance.of_alike policy change context alike severity

/-! ### A shuffled summary -/

def depotStall (interfaces : List String) (docblock : Option String) (methods : List Member) :
    TypeDeclaration :=
  ⟨.ofClass, "Stall", none, interfaces, ⟨false, false⟩, methods, [], docblock⟩

def depot : Summary :=
  ⟨some "Town", [⟨"Money", none⟩, ⟨"Time", none⟩],
    [depotStall ["Countable", "Shop"] none [marketMember "sell" "($item)", marketMember "close" "()"],
      marketType .ofInterface "Goods" none [] []],
    [marketMember "open" "()", marketMember "shut" "()"]⟩

/-- All lists of the depot the other way around, and a class that is documented. -/
def depotShuffled : Summary :=
  ⟨some "Town", [⟨"Time", none⟩, ⟨"Money", none⟩],
    [marketType .ofInterface "Goods" none [] [],
      depotStall ["Shop", "Countable"] (some "/** A stall. */")
        [marketMember "close" "()", marketMember "sell" "($item)"]],
    [marketMember "shut" "()", marketMember "open" "()"]⟩

/-- Another import, other interfaces, other methods and other functions. -/
def depotMoved : Summary :=
  ⟨some "Town", [⟨"Money", some "Cash"⟩, ⟨"Time", none⟩],
    [depotStall ["Iterator"] none [marketMember "sell" "($item, $price)", marketMember "rest" "()"],
      marketType .ofTrait "Goods" none [] []],
    [marketMember "open" "(): void", marketMember "lock" "()"]⟩

theorem depot_shuffled : depot.Shuffled depotShuffled := by
  have goods := TypeDeclaration.shuffled_refl (marketType .ofInterface "Goods" none [] [])
  have stall : (depotStall ["Countable", "Shop"] none
      [marketMember "sell" "($item)", marketMember "close" "()"]).Shuffled
      (depotStall ["Shop", "Countable"] (some "/** A stall. */")
        [marketMember "close" "()", marketMember "sell" "($item)"]) := by
    refine ⟨rfl, rfl, rfl, .swap _ _ _, rfl, ?_⟩
    intro sort
    cases sort with
    | method =>
        exact ⟨_, .swap _ _ _, List.forall₂_same.mpr fun member _mem => member.redocumented_refl⟩
    | property => exact .refl Member.redocumented_refl _
  refine ⟨rfl, .swap _ _ _, ⟨_, .swap _ _ _, .cons goods (.cons stall .nil)⟩, ?_⟩
  exact ⟨_, .swap _ _ _, List.forall₂_same.mpr fun member _mem => member.redocumented_refl⟩

/-- The same function is seen to change, and the change is as severe and judged the same. -/
theorem shuffled_same_outcome_of_depot :
    depot.Distinct ∧ depotMoved.Distinct ∧ depot.Shuffled depotShuffled ∧
    (between depotShuffled depotMoved).severity = .major ∧
    (between depotShuffled depotMoved).functions.modified =
      [("open", ⟨some ⟨"()", "(): void"⟩, none⟩)] ∧
    ∀ (policy : Policy) (change : TextChange) (context : SymbolContext),
      (Significance.of policy change (between depot depotMoved) context).SameOutcome
        (Significance.of policy change (between depotShuffled depotMoved) context) := by
  have distinct : depot.Distinct := by decide
  have distinct' : depotMoved.Distinct := by decide
  obtain ⟨severity, _changes, alike, outcomes⟩ :=
    shuffled_same_outcome distinct distinct' depot_shuffled depotMoved.shuffled_refl
  have major : (between depot depotMoved).severity = .major := by decide +kernel
  have opened : (between depot depotMoved).functions.modified =
      [("open", ⟨some ⟨"()", "(): void"⟩, none⟩)] := by decide +kernel
  have apart : NamesApart Member.name depot.functions depotMoved.functions :=
    .of_plain _ (by decide)
  have functions : (between depot depotMoved).functions.modified =
      (between depotShuffled depotMoved).functions.modified := by
    rw [← List.forall₂_eq_eq_eq]
    exact alike.functions.modified.imp fun _ _ same => Prod.ext same.1 (same.2 apart)
  exact ⟨distinct, distinct', depot_shuffled, severity ▸ major, functions ▸ opened, outcomes⟩

/-- Functions whose names are the same before the first mark. -/
def marked : Summary :=
  { Summary.empty with functions := [marketMember "f#a" "(1)", marketMember "f#b" "(2)"] }

def markedShuffled : Summary :=
  { Summary.empty with functions := [marketMember "f#b" "(2)", marketMember "f#a" "(1)"] }

def markedMoved : Summary :=
  { Summary.empty with functions := [marketMember "f#a" "(3)", marketMember "f#b" "(4)"] }

/-- Of names that are the same before the first mark, the last one in the old list decides what is
said to have changed. So another order of the functions makes another change. -/
theorem marked_order_matters :
    marked.Distinct ∧ markedMoved.Distinct ∧ marked.Shuffled markedShuffled ∧
    (between marked markedMoved).functions.modified = [("f", ⟨some ⟨"(2)", "(4)"⟩, none⟩)] ∧
    (between markedShuffled markedMoved).functions.modified =
      [("f", ⟨some ⟨"(1)", "(3)"⟩, none⟩)] := by
  refine ⟨by decide, by decide, ?_, by decide +kernel, by decide +kernel⟩
  refine ⟨rfl, .refl _, .refl TypeDeclaration.shuffled_refl _, ?_⟩
  exact ⟨_, .swap _ _ _, List.forall₂_same.mpr fun member _mem => member.redocumented_refl⟩

end Delta

end DocDrift
