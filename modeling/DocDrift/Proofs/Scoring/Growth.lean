import DocDrift.Proofs.Change.Within
import DocDrift.Proofs.Scoring.Sums

/-!
A change that contains another one counts for as much at least: it falls into all of its categories
and reaches its levels. If no points are taken off and those of the larger change stay in their
range, it scores as high as the smaller one and is documented anew if it is; with the standard
policy it is as urgent, too.
-/

set_option autoImplicit false

namespace DocDrift

/-- No points are taken off for what a text or a structural change holds, and none for its reaching
further. -/
structure Policy.Fair (policy : Policy) : Prop where
  structural : 0 ≤ policy.structuralPoints
  semantic : 0 ≤ policy.semanticPoints
  comments : 0 ≤ policy.commentsPoints
  layout : 0 ≤ policy.layoutPoints
  hunks : ∀ band ∈ policy.hunkBands, 0 ≤ band.points
  space : 0 ≤ policy.spacePoints
  typeChurn : 0 ≤ policy.typeChurnPoints
  parent : 0 ≤ policy.parentPoints
  implements : 0 ≤ policy.implementsPoints
  methodChurn : 0 ≤ policy.methodChurnPoints
  methodModified : 0 ≤ policy.methodModifiedPoints
  propertyChurn : 0 ≤ policy.propertyChurnPoints
  propertyModified : 0 ≤ policy.propertyModifiedPoints
  modifier : 0 ≤ policy.modifierPoints
  interface : 0 ≤ policy.interfacePoints
  function : 0 ≤ policy.functionPoints
  import_ : 0 ≤ policy.importPoints
  minor : policy.minimalPoints ≤ policy.minorPoints
  major : policy.minorPoints ≤ policy.majorPoints

/-- One classification has all categories of another and no lower levels. -/
structure Classification.AtMost (small large : Classification) : Prop where
  categories : small.categories ⊆ large.categories
  impact : small.impact.rank ≤ large.impact.rank
  relevance : small.relevance.rank ≤ large.relevance.rank

/-- One outcome of scoring is at most another, but for priority and confidence. -/
structure Significance.AtMost (small large : Significance) : Prop where
  score : small.score ≤ large.score
  regenerate : small.recommendation.regenerate = true → large.recommendation.regenerate = true
  classification : small.classification.AtMost large.classification

theorem Classification.AtMost.refl (found : Classification) : found.AtMost found :=
  ⟨List.Subset.refl _, Nat.le_refl _, Nat.le_refl _⟩

theorem Significance.AtMost.refl (result : Significance) : result.AtMost result :=
  ⟨Nat.le_refl _, id, .refl _⟩

/-! ### Sums -/

namespace Scoring

theorem sumIf_nonneg (holds : Bool) {points : Int64} (fair : 0 ≤ points) :
    0 ≤ sumIf holds points := by
  unfold sumIf
  split
  · exact toInt_nonneg fair
  · exact Int.le_refl 0

theorem sumIf_mono {holds other : Bool} {points : Int64} (implies : holds = true → other = true)
    (fair : 0 ≤ points) : sumIf holds points ≤ sumIf other points := by
  cases holds with
  | false => exact sumIf_nonneg other fair
  | true => exact Int.le_of_eq (by rw [implies rfl])

theorem sumFor_nonneg (count : Nat) {points : Int64} (fair : 0 ≤ points) :
    0 ≤ sumFor count points :=
  Int.mul_nonneg (Int.natCast_nonneg count) (toInt_nonneg fair)

theorem sumFor_mono {count other : Nat} {points : Int64} (most : count ≤ other)
    (fair : 0 ≤ points) : sumFor count points ≤ sumFor other points :=
  Int.mul_le_mul_of_nonneg_right (Int.ofNat_le.mpr most) (toInt_nonneg fair)

theorem totalSum_cons (policy : Policy) (entry : String × TypeDelta) (rest : NameMap TypeDelta) :
    totalSum policy (entry :: rest) = typeSum policy entry.2 + totalSum policy rest := rfl

theorem totalSum_middle (policy : Policy) (before after : NameMap TypeDelta)
    (entry : String × TypeDelta) : totalSum policy (before ++ entry :: after) =
      typeSum policy entry.2 + totalSum policy (before ++ after) := by
  induction before with
  | nil => rfl
  | cons first before ih =>
      rw [List.cons_append, List.cons_append, totalSum_cons, totalSum_cons, ih]
      omega

section Fair

variable {policy : Policy} (fair : policy.Fair)

include fair

theorem textSum_nonneg (change : TextChange) : 0 ≤ textSum policy change := by
  have structural := sumIf_nonneg change.structural fair.structural
  have semantic := sumIf_nonneg change.semantic fair.semantic
  have comments := sumIf_nonneg change.commentsOnly fair.comments
  have layout := sumIf_nonneg change.layoutOnly fair.layout
  have hunks : 0 ≤ (policy.hunkPoints change.counts.total).toInt := by
    unfold Policy.hunkPoints
    split
    case h_1 band found => exact toInt_nonneg (fair.hunks band (List.mem_of_find?_eq_some found))
    case h_2 => exact Int.le_refl 0
  unfold textSum
  omega

/-- What changed in the members of a type takes no points away. -/
theorem headSum_le_typeSum (change : TypeDelta) :
    sumIf change.parent.isSome policy.parentPoints +
      sumIf change.interfaces.hasChanges policy.implementsPoints +
      sumIf change.modifiers.isSome policy.modifierPoints ≤ typeSum policy change := by
  have methods := sumFor_nonneg change.methods.churn fair.methodChurn
  have signatures := sumFor_nonneg change.methods.modified.length fair.methodModified
  have properties := sumFor_nonneg change.properties.churn fair.propertyChurn
  have types := sumFor_nonneg change.properties.modified.length fair.propertyModified
  unfold typeSum
  omega

theorem typeSum_nonneg (change : TypeDelta) : 0 ≤ typeSum policy change := by
  have parent := sumIf_nonneg change.parent.isSome fair.parent
  have implemented := sumIf_nonneg change.interfaces.hasChanges fair.implements
  have modifiers := sumIf_nonneg change.modifiers.isSome fair.modifier
  have head := headSum_le_typeSum fair change
  omega

theorem typeSum_mono {small large : TypeDelta} (within : small.Within large)
    (methods : small.methods.modified.names.Nodup)
    (properties : small.properties.modified.names.Nodup) :
    typeSum policy small ≤ typeSum policy large := by
  have parent := sumIf_mono within.parent fair.parent
  have implemented := sumIf_mono within.interfaces fair.implements
  have modifiers := sumIf_mono within.modifiers fair.modifier
  have methodChurn := sumFor_mono within.methods.churn fair.methodChurn
  have methodModified := sumFor_mono (within.methods.modified_length methods) fair.methodModified
  have propertyChurn := sumFor_mono within.properties.churn fair.propertyChurn
  have propertyModified :=
    sumFor_mono (within.properties.modified_length properties) fair.propertyModified
  unfold typeSum
  omega

theorem totalSum_nonneg (types : NameMap TypeDelta) : 0 ≤ totalSum policy types := by
  induction types with
  | nil => exact Int.le_refl 0
  | cons entry rest ih =>
      have first := typeSum_nonneg fair entry.2
      rw [totalSum_cons]
      omega

theorem totalSum_mono {small large : NameMap TypeDelta} (distinct : small.names.Nodup)
    (covered : ∀ entry ∈ small, ∃ change, (entry.1, change) ∈ large ∧
      typeSum policy entry.2 ≤ typeSum policy change) :
    totalSum policy small ≤ totalSum policy large := by
  induction small generalizing large with
  | nil => exact totalSum_nonneg fair large
  | cons first rest ih =>
      obtain ⟨change, mem, most⟩ := covered first List.mem_cons_self
      obtain ⟨before, after, rfl⟩ := List.append_of_mem mem
      obtain ⟨absent, distinct⟩ := List.nodup_cons.mp distinct
      -- the entry for the first name is not needed for any other name
      have others : totalSum policy rest ≤ totalSum policy (before ++ after) := by
        apply ih distinct
        intro entry held
        obtain ⟨other, found, most⟩ := covered entry (List.mem_cons_of_mem _ held)
        refine ⟨other, ?_, most⟩
        rw [List.mem_append, List.mem_cons] at found
        rw [List.mem_append]
        rcases found with earlier | same | later
        · exact .inl earlier
        · have name : entry.1 = first.1 := (Prod.mk.inj same).1
          exact absurd (name ▸ List.mem_map_of_mem held) absent
        · exact .inr later
      rw [totalSum_cons, totalSum_middle]
      exact Int.add_le_add most others

theorem severityPoints_mono {small large : Delta}
    (within : small.Within large) : (severityPoints policy small.impliedSeverity).toInt ≤
      severityPoints policy large.impliedSeverity := by
  have lower := small.implies_impliedSeverity
  have upper := large.implies_impliedSeverity
  have minor := Int64.le_iff_toInt_le.mp fair.minor
  have major := Int64.le_iff_toInt_le.mp fair.major
  generalize small.impliedSeverity = lesser at lower
  generalize large.impliedSeverity = greater at upper
  cases upper with
  | major moved => cases lower <;> (dsimp only [severityPoints]; omega)
  | minor calm some =>
      cases lower with
      | major moved => exact absurd (within.isMajor moved) calm
      | _ => dsimp only [severityPoints]; omega
  | minimal calm types functions =>
      cases lower with
      | major moved => exact absurd (within.isMajor moved) calm
      | minor calm some =>
          rcases some with modified | modified
          · exact absurd types (within.types.modified_ne_nil modified)
          · exact absurd functions (within.functions.modified_ne_nil modified)
      | minimal => exact Int.le_refl _

theorem deltaSum_mono {small large : Delta} (distinct : small.Distinct)
    (within : small.Within large) (lesser : small.severity = small.impliedSeverity)
    (greater : large.severity = large.impliedSeverity) :
    deltaSum policy small ≤ deltaSum policy large := by
  have space := sumIf_mono within.space fair.space
  have churned := sumFor_mono within.types.churn fair.typeChurn
  have interfaces := sumIf_mono within.interfaces.hasChanges fair.interface
  have functions := sumIf_mono within.functions.hasChanges fair.function
  have imports := sumIf_mono within.imports.hasChanges fair.import_
  have severity := severityPoints_mono fair within
  rw [← lesser, ← greater] at severity
  have types : totalSum policy small.types.modified ≤ totalSum policy large.types.modified := by
    apply totalSum_mono fair distinct.types
    intro entry mem
    obtain ⟨change, found, within⟩ := within.types.modified entry mem
    have held : entry.2 ∈ small.types.modified.values := List.mem_map_of_mem mem
    exact ⟨change, found, typeSum_mono fair within (distinct.methods _ held)
      (distinct.properties _ held)⟩
  unfold deltaSum
  omega

/-- The points for the severity of a change stand beside those for each part of it. -/
theorem le_deltaSum (delta : Delta) {least : Int}
    (some : least ≤ sumIf delta.spaceChanged policy.spacePoints ∨
      least ≤ sumFor delta.types.churn policy.typeChurnPoints ∨
      least ≤ totalSum policy delta.types.modified ∨
      least ≤ sumIf delta.interfaces.hasChanges policy.interfacePoints ∨
      least ≤ sumIf delta.functions.hasChanges policy.functionPoints) :
    least + (severityPoints policy delta.severity).toInt ≤ deltaSum policy delta := by
  have space := sumIf_nonneg delta.spaceChanged fair.space
  have churned := sumFor_nonneg delta.types.churn fair.typeChurn
  have types := totalSum_nonneg fair delta.types.modified
  have interfaces := sumIf_nonneg delta.interfaces.hasChanges fair.interface
  have functions := sumIf_nonneg delta.functions.hasChanges fair.function
  have imports := sumIf_nonneg delta.imports.hasChanges fair.import_
  unfold deltaSum
  omega

theorem deltaSum_ge (delta : Delta) : -9223372036854775808 ≤ deltaSum policy delta := by
  have whole := le_deltaSum fair delta (.inl (sumIf_nonneg delta.spaceChanged fair.space))
  have severity := (inRange_toInt (severityPoints policy delta.severity)).1
  omega

end Fair

end Scoring

/-! ### Scores -/

namespace Significance

variable (policy : Policy) (change : TextChange)

theorem scoreOf_mono {points more : Int} (most : points ≤ more) :
    scoreOf points ≤ scoreOf more := by
  unfold scoreOf
  omega

theorem of_layout (layout : change.layoutOnly = true) (small large : Delta)
    (context : SymbolContext) : of policy change small context = of policy change large context := by
  simp only [of, pointsOf, Classification.of, if_pos layout]

theorem sumOf_content (content : change.layoutOnly = false) (delta : Delta) :
    sumOf policy change delta .empty =
      Scoring.textSum policy change + Scoring.deltaSum policy delta := by
  rw [sumOf, if_neg (Bool.eq_false_iff.mp content), Scoring.contextSum_empty, Int.add_zero]

theorem content_classification (content : change.layoutOnly = false) (delta : Delta) :
    (of policy change delta .empty).classification = Classification.ofContent change delta :=
  (of_classification ..).trans (if_neg (Bool.eq_false_iff.mp content))

end Significance

theorem Policy.bandFor?_mono (policy : Policy) {score more : Nat} (most : score ≤ more)
    (banded : (policy.bandFor? score).isSome = true) : (policy.bandFor? more).isSome = true := by
  rw [bandFor?, List.find?_isSome] at banded ⊢
  obtain ⟨band, mem, reached⟩ := banded
  rw [decide_eq_true_eq] at reached
  exact ⟨band, mem, decide_eq_true (Nat.le_trans reached most)⟩

/-! ### Findings -/

theorem Level.IsHighest.mono {best other : Level} {found more : Level → Prop}
    (highest : best.IsHighest found) (highest' : other.IsHighest more)
    (reached : ∀ level, found level → ∃ level', more level' ∧ level.rank ≤ level'.rank) :
    best.rank ≤ other.rank := by
  apply (highest' best).mpr
  rcases (highest best).mp (Nat.le_refl _) with none | ⟨level, mem, most⟩
  · exact .inl none
  · obtain ⟨level', mem, above⟩ := reached level mem
    exact .inr ⟨level', mem, Nat.le_trans most above⟩

theorem TypeFinding.mono {small large : TypeDelta} (within : small.Within large)
    {category : Category} {impact relevance : Level}
    (found : TypeFinding small category impact relevance) :
    ∃ impact' relevance', TypeFinding large category impact' relevance' ∧
      impact.rank ≤ impact'.rank ∧ relevance.rank ≤ relevance'.rank := by
  cases found with
  | place moved =>
      exact ⟨_, _, .place (moved.imp within.changesHierarchy within.modifiers), by decide, by decide⟩
  | methods changed =>
      exact ⟨_, _, .methods (within.methods.hasChanges changed), by decide, by decide⟩
  | properties same changed =>
      cases methods : large.methods.hasChanges with
      | true => exact ⟨_, _, .methods methods, by decide, by decide⟩
      | false =>
          exact ⟨_, _, .properties methods (within.properties.hasChanges changed), by decide,
            by decide⟩

section Findings

variable {small large : Delta} (within : small.Within large) (change : TextChange)

include within

theorem Finding.mono {category : Category} {impact relevance : Level}
    (finding : Finding change small category impact relevance) :
    ∃ impact' relevance', Finding change large category impact' relevance' ∧
      impact.rank ≤ impact'.rank ∧ relevance.rank ≤ relevance'.rank := by
  cases finding with
  | comments only => exact ⟨_, _, .comments only, by decide, by decide⟩
  | structural some => exact ⟨_, _, .structural some, by decide, by decide⟩
  | semantic some => exact ⟨_, _, .semantic some, by decide, by decide⟩
  | space changed => exact ⟨_, _, .space (within.space changed), by decide, by decide⟩
  | churned some =>
      exact ⟨_, _, .churned (Nat.lt_of_lt_of_le some within.types.churn), by decide, by decide⟩
  | modified type mem _ _ _ found =>
      obtain ⟨other, held, within⟩ := within.types.values mem
      obtain ⟨impact', relevance', found, impacts, relevances⟩ := found.mono within
      exact ⟨_, _, .modified other held _ _ _ found, impacts, relevances⟩
  | interfaces changed =>
      refine ⟨_, _, .interfaces (changed.imp within.interfaces.hasChanges ?_), by decide,
        by decide⟩
      intro implemented
      obtain ⟨type, mem, changed⟩ := Delta.implementsChanged_iff.mp implemented
      obtain ⟨other, held, within⟩ := within.types.values mem
      exact Delta.implementsChanged_iff.mpr ⟨other, held, within.interfaces changed⟩
  | functions churned =>
      exact ⟨_, _, .functions (Nat.lt_of_lt_of_le churned within.functions.churn), by decide,
        by decide⟩
  | signatures still some =>
      by_cases churned : 0 < large.functions.churn
      · exact ⟨_, _, .functions churned, by decide, by decide⟩
      · have modified := within.functions.modified_ne_nil (List.isEmpty_eq_false_iff.mp some)
        exact ⟨_, _, .signatures churned (List.isEmpty_eq_false_iff.mpr modified), by decide,
          by decide⟩
  | imports changed =>
      exact ⟨_, _, .imports (within.imports.hasChanges changed), by decide, by decide⟩

theorem Delta.Within.reachesFar (far : small.ReachesFar) : large.ReachesFar := by
  rcases far with space | churned | ⟨type, mem, moved⟩ | interfaces | functions
  · exact .inl (within.space space)
  · exact .inr (.inl (Nat.lt_of_lt_of_le churned within.types.churn))
  · obtain ⟨other, held, within⟩ := within.types.values mem
    exact .inr (.inr (.inl ⟨other, held,
      moved.imp within.parent (Or.imp within.interfaces within.modifiers)⟩))
  · exact .inr (.inr (.inr (.inl (within.interfaces.hasChanges interfaces))))
  · exact .inr (.inr (.inr (.inr (Nat.lt_of_lt_of_le functions within.functions.churn))))

theorem Delta.Within.matters (matters : small.Matters change) : large.Matters change := by
  rcases matters with text | ⟨type, mem, changed⟩ | functions | imports
  · exact .inl text
  · obtain ⟨other, held, within⟩ := within.types.values mem
    exact .inr (.inl ⟨other, held, within.hasChanges changed⟩)
  · exact .inr (.inr (.inl (within.functions.hasChanges functions)))
  · exact .inr (.inr (.inr (within.imports.hasChanges imports)))

namespace Classification

theorem categories_mono :
    (ofContent change small).categories ⊆ (ofContent change large).categories := by
  intro category mem
  obtain ⟨impact, relevance, finding⟩ := ((collects_ofContent change small).categories _).mp mem
  obtain ⟨impact', relevance', finding, _, _⟩ := finding.mono within
  exact ((collects_ofContent change large).categories _).mpr ⟨_, _, finding⟩

theorem impact_mono :
    (ofContent change small).impact.rank ≤ (ofContent change large).impact.rank := by
  apply (collects_ofContent change small).impact.mono (collects_ofContent change large).impact
  rintro impact ⟨category, relevance, finding⟩
  obtain ⟨impact', relevance', finding, above, _⟩ := finding.mono within
  exact ⟨impact', ⟨_, _, finding⟩, above⟩

theorem relevance_mono :
    (ofContent change small).relevance.rank ≤ (ofContent change large).relevance.rank := by
  apply (collects_ofContent change small).relevance.mono
    (collects_ofContent change large).relevance
  rintro relevance ⟨category, impact, finding⟩
  obtain ⟨impact', relevance', finding, _, above⟩ := finding.mono within
  exact ⟨relevance', ⟨_, _, finding⟩, above⟩

theorem touches_mono (touched : (ofContent change small).touchesInterfacesOrSpace = true) :
    (ofContent change large).touchesInterfacesOrSpace = true := by
  have categories := categories_mono within change
  rw [touchesInterfacesOrSpace, Bool.or_eq_true, List.contains_iff_mem,
    List.contains_iff_mem] at touched ⊢
  exact touched.imp (fun mem => categories mem) (fun mem => categories mem)

end Classification

end Findings

/-! ### Outcomes -/

namespace Significance

theorem classification_mono {policy : Policy} {change : TextChange} {small large : Delta}
    (within : small.Within large) (content : change.layoutOnly = false) :
    (of policy change small .empty).classification.AtMost
      (of policy change large .empty).classification := by
  rw [content_classification _ _ content, content_classification _ _ content]
  exact ⟨Classification.categories_mono within change, Classification.impact_mono within change,
    Classification.relevance_mono within change⟩

section Grows

variable {small large : Delta} (distinct : small.Distinct) (within : small.Within large)
  (lesser : small.severity = small.impliedSeverity)
  (greater : large.severity = large.impliedSeverity)

include distinct within lesser greater

theorem addsUp_of_within {policy : Policy} (fair : policy.Fair) {change : TextChange}
    (content : change.layoutOnly = false) (adds : AddsUp policy change large .empty) :
    AddsUp policy change small .empty := by
  have text := Scoring.textSum_nonneg fair change
  have points := Scoring.deltaSum_mono fair distinct within lesser greater
  have least := Scoring.deltaSum_ge fair small
  rw [AddsUp, sumOf_content _ _ content] at adds ⊢
  unfold InRange at adds ⊢
  omega

theorem score_mono {policy : Policy} (fair : policy.Fair) {change : TextChange}
    (content : change.layoutOnly = false) (adds : AddsUp policy change large .empty) :
    (of policy change small .empty).score ≤ (of policy change large .empty).score := by
  have adds' := addsUp_of_within distinct within lesser greater fair content adds
  have points := Scoring.deltaSum_mono fair distinct within lesser greater
  rw [score_of_addsUp adds, score_of_addsUp adds', sumOf_content _ _ content,
    sumOf_content _ _ content]
  apply scoreOf_mono
  omega

theorem atMost_of_content {policy : Policy} (fair : policy.Fair) {change : TextChange}
    (content : change.layoutOnly = false) (adds : AddsUp policy change large .empty) :
    (of policy change small .empty).AtMost (of policy change large .empty) := by
  have score := score_mono distinct within lesser greater fair content adds
  refine ⟨score, ?_, classification_mono within content⟩
  rw [of_regenerate_content _ _ _ _ content, of_regenerate_content _ _ _ _ content]
  rintro (far | ⟨matters, banded⟩)
  · exact .inl (within.reachesFar far)
  · exact .inr ⟨within.matters change matters, policy.bandFor?_mono score banded⟩

end Grows

end Significance

/-! ### The standard policy -/

namespace Policy

theorem standard_fair : standard.Fair := by
  constructor <;> decide

/-- How urgent a score makes a change. -/
def urgency (policy : Policy) (score : Nat) : Level :=
  (policy.bandFor? score).elim .none (·.priority)

theorem standard_bandFor? (score : Nat) : standard.bandFor? score =
    if 70 ≤ score then some ⟨70, 0.95, .high⟩
    else if 40 ≤ score then some ⟨40, 0.75, .medium⟩
    else if 20 ≤ score then some ⟨20, 0.50, .low⟩
    else none := by
  simp only [bandFor?, standard, List.find?_cons, List.find?_nil]
  grind

theorem standard_urgency_mono {score more : Nat} (most : score ≤ more) :
    (standard.urgency score).rank ≤ (standard.urgency more).rank := by
  have reached (least : Nat) (above : least ≤ score) : least ≤ more := Nat.le_trans above most
  rw [urgency, urgency, standard_bandFor?, standard_bandFor?]
  split_ifs <;> first | decide | omega

theorem standard_banded {score : Nat} (reached : 20 ≤ score) :
    ∃ band, standard.bandFor? score = some band := by
  rw [standard_bandFor?]
  split_ifs <;> exact ⟨_, rfl⟩

end Policy

namespace Scoring

variable {change : TypeDelta} {delta : Delta}

theorem standard_typeSum (moved : change.parent.isSome = true ∨
    change.interfaces.hasChanges = true ∨ change.modifiers.isSome = true) :
    15 ≤ typeSum .standard change := by
  have fair := Policy.standard_fair
  have parent := sumIf_nonneg change.parent.isSome fair.parent
  have implemented := sumIf_nonneg change.interfaces.hasChanges fair.implements
  have modifiers := sumIf_nonneg change.modifiers.isSome fair.modifier
  have head := headSum_le_typeSum fair change
  have most : 15 ≤ sumIf change.parent.isSome Policy.standard.parentPoints ∨
      15 ≤ sumIf change.interfaces.hasChanges Policy.standard.implementsPoints ∨
      15 ≤ sumIf change.modifiers.isSome Policy.standard.modifierPoints := by
    refine moved.imp ?_ (Or.imp ?_ ?_) <;>
      · intro holds
        rw [holds]
        decide
  omega

theorem typeSum_le_totalSum {policy : Policy} (fair : policy.Fair) {types : NameMap TypeDelta}
    (mem : change ∈ types.values) : typeSum policy change ≤ totalSum policy types := by
  obtain ⟨entry, held, rfl⟩ := List.mem_map.mp mem
  obtain ⟨before, after, rfl⟩ := List.append_of_mem held
  have others := totalSum_nonneg fair (before ++ after)
  rw [totalSum_middle]
  omega

/-- With the standard policy a change that reaches far has points for a band. -/
theorem standard_far (far : delta.ReachesFar) : 20 ≤ deltaSum .standard delta := by
  have fair := Policy.standard_fair
  have severity : 5 ≤ (severityPoints .standard delta.severity).toInt := by
    cases delta.severity <;> decide
  -- The least severity adds the five points that a new type or a changed one is short of a band.
  have some : 15 ≤ sumIf delta.spaceChanged Policy.standard.spacePoints ∨
      15 ≤ sumFor delta.types.churn Policy.standard.typeChurnPoints ∨
      15 ≤ totalSum .standard delta.types.modified ∨
      15 ≤ sumIf delta.interfaces.hasChanges Policy.standard.interfacePoints ∨
      15 ≤ sumIf delta.functions.hasChanges Policy.standard.functionPoints := by
    rcases far with space | churned | ⟨type, mem, moved⟩ | interfaces | churned
    · refine .inl ?_
      rw [space]
      decide
    · exact .inr (.inl (sumFor_mono churned fair.typeChurn))
    · exact .inr (.inr (.inl (Int.le_trans (standard_typeSum moved)
        (typeSum_le_totalSum fair mem))))
    · refine .inr (.inr (.inr (.inl ?_)))
      rw [interfaces]
      decide
    · refine .inr (.inr (.inr (.inr ?_)))
      rw [ChangeSet.hasChanges_iff.mpr (.inl churned)]
      decide
  have whole := le_deltaSum fair delta some
  omega

end Scoring

namespace Significance

theorem standard_score {change : TextChange} (content : change.layoutOnly = false) {delta : Delta}
    (adds : AddsUp .standard change delta .empty) (far : delta.ReachesFar) :
    20 ≤ (of .standard change delta .empty).score := by
  have text := Scoring.textSum_nonneg Policy.standard_fair change
  have places := Scoring.standard_far far
  rw [score_of_addsUp adds, sumOf_content _ _ content, scoreOf]
  omega

/-- With the standard policy a change is as urgent as its score unless it touches interfaces or
the namespace, for a change of high relevance has a band. -/
theorem standard_priority {change : TextChange} (content : change.layoutOnly = false)
    {delta : Delta} (adds : AddsUp .standard change delta .empty) :
    (of .standard change delta .empty).recommendation.priority =
      if (Classification.ofContent change delta).touchesInterfacesOrSpace then .high
      else if (Classification.ofContent change delta).relevance = .none then .none
      else Policy.standard.urgency (of .standard change delta .empty).score := by
  have classified : Classification.of change delta = Classification.ofContent change delta :=
    if_neg (Bool.eq_false_iff.mp content)
  have shown : (Classification.ofContent change delta).primary ≠ .formatting :=
    Classification.primaryOf_ne_formatting change delta
  have score := of_score .standard change delta .empty
  have banded : (Classification.ofContent change delta).relevance = .high →
      ∃ band, Policy.standard.bandFor? (of .standard change delta .empty).score = some band :=
    fun high => Policy.standard_banded
      (standard_score content adds ((Classification.relevance_high change delta).mp high))
  rw [score] at banded ⊢
  rw [of, Rule.applyAll_priority]
  dsimp only
  rw [classified, if_neg shown, Policy.urgency]
  by_cases high : (Classification.ofContent change delta).relevance = .high
  · obtain ⟨band, found⟩ := banded high
    rw [found]
    rfl
  · rw [if_neg high]

theorem standard_priority_mono {small large : Delta} (within : small.Within large)
    {change : TextChange} (content : change.layoutOnly = false)
    (adds : AddsUp .standard change small .empty) (adds' : AddsUp .standard change large .empty)
    (score : (of .standard change small .empty).score ≤ (of .standard change large .empty).score) :
    (of .standard change small .empty).recommendation.priority.rank ≤
      (of .standard change large .empty).recommendation.priority.rank := by
  have top (level : Level) : level.rank ≤ Level.high.rank := by cases level <;> decide
  have touches := Classification.touches_mono within change
  have relevance := Classification.relevance_mono within change
  have urgency := Policy.standard_urgency_mono score
  rw [standard_priority content adds, standard_priority content adds']
  -- Only touching interfaces or the namespace goes beyond the score, and that grows too.
  by_cases wide : (Classification.ofContent change large).touchesInterfacesOrSpace = true
  · rw [if_pos wide]
    exact top _
  · rw [if_neg wide, if_neg (fun narrow => wide (touches narrow))]
    by_cases none : (Classification.ofContent change small).relevance = .none
    · rw [if_pos none]
      exact Nat.zero_le _
    · rw [if_neg none, if_neg]
      · exact urgency
      · intro none'
        rw [none'] at relevance
        exact none ((Level.rank_none _).mp relevance)

/-- A class with new methods and no other change. -/
def gaining (methods : List String) : TypeDelta :=
  ⟨.ofClass, none, ⟨[], []⟩, none, ⟨methods, [], []⟩, .empty⟩

/-- New types beside a class with new methods. -/
def extending (types methods : List String) (severity : Severity) : Delta :=
  { Delta.empty with types := ⟨types, [], [("Cart", gaining methods)]⟩, severity := severity }

theorem gaining_within {methods more : List String} (fewer : methods.Subperm more) :
    (gaining methods).Within (gaining more) where
  parent := id
  interfaces := id
  modifiers := id
  methods := ⟨fewer, .refl _, List.forall_mem_nil _⟩
  properties := ⟨.refl _, .refl _, List.forall_mem_nil _⟩

theorem extending_within {types moreTypes methods more : List String} (severity other : Severity)
    (fewerTypes : types.Subperm moreTypes) (fewer : methods.Subperm more) :
    (extending types methods severity).Within (extending moreTypes more other) where
  space := id
  types := by
    refine ⟨fewerTypes, .refl _, ?_⟩
    intro entry mem
    obtain rfl := List.mem_singleton.mp mem
    exact ⟨gaining more, List.mem_singleton_self _, gaining_within fewer⟩
  interfaces := ⟨.refl _, .refl _, List.forall_mem_nil _⟩
  functions := ⟨.refl _, .refl _, List.forall_mem_nil _⟩
  imports := ⟨.refl _, .refl _, List.forall_mem_nil _⟩

/-- A summary of one class with these methods, and of these types behind it. -/
def shopWith (methods : List String) (types : List TypeDeclaration) : Summary :=
  { Summary.empty with
    types := ⟨.ofClass, "Cart", none, [], ⟨false, false⟩,
      methods.map (fun name => ⟨name, .isPublic, "()", none⟩), [], none⟩ :: types }

def shopItem : TypeDeclaration :=
  ⟨.ofClass, "Item", none, [], ⟨false, false⟩, [], [], none⟩

def shopChange : TextChange :=
  ⟨false, false, true, false, ⟨1, 1, 0, 0⟩⟩

def methodAdded : Delta :=
  .between (shopWith [] []) (shopWith ["total"] [])

def typeAdded : Delta :=
  .between (shopWith [] []) (shopWith ["clear", "total"] [shopItem])

end Significance

end DocDrift
