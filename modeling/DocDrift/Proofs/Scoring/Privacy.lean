import DocDrift.Proofs.Change.Touched
import DocDrift.Proofs.Change.Validity
import DocDrift.Proofs.Scoring.Context

/-!
Changes of private members. A change counts for less if every symbol that it touches is that of a
private member and none is documented. This is meant for changes that leave all but private members
alone. But symbols do not tell members of one name apart, so a private member lends its privacy to
whatever else has its symbol: a private property to a public method of its name.
-/

set_option autoImplicit false

namespace DocDrift

/-- What is known of the symbols around a change: those that are documented, and the private members
on either side. -/
def SymbolContext.around (old new : Summary) (documented : List String) : SymbolContext :=
  ⟨documented, old.privateMembers ++ new.privateMembers⟩

/-- The reason for which a change counts as one of private members. -/
def privatesReason : String :=
  "only undocumented private members changed"

/-- A member is declared private on either side of a change. -/
def PrivateBetween (old new : Summary) (identity : MemberIdentity) : Prop :=
  old.Hides identity ∨ new.Hides identity

instance (old new : Summary) (identity : MemberIdentity) :
    Decidable (PrivateBetween old new identity) :=
  inferInstanceAs (Decidable (_ ∨ _))

/-- A change lists no type and no function as one that came, went or changed in more than its
members, and every member that it lists is declared private on some side. -/
structure OnlyPrivatesChange (old new : Summary) : Prop where
  wholes : (Delta.between old new).wholes = []
  members : ∀ identity ∈ (Delta.between old new).members, PrivateBetween old new identity

/-- Whatever changed under the symbol of a private member is a private member. -/
structure PrivatesStandOut (old new : Summary) : Prop where
  wholes : ∀ hidden, PrivateBetween old new hidden →
    hidden.symbol ∉ (Delta.between old new).wholes
  members : ∀ hidden, PrivateBetween old new hidden →
    ∀ identity ∈ (Delta.between old new).members, identity.symbol = hidden.symbol →
      PrivateBetween old new identity

/-- How a change is scored that counts as one of private members, and what it then is. -/
structure CountsAsPrivate (policy : Policy) (change : TextChange) (old new : Summary)
    (documented : List String) : Prop where
  score : (Significance.ofValid policy change (Delta.between old new)
      (.around old new documented)).score =
    Significance.scoreOf (Significance.pointsOf policy change (Delta.between old new)
      (.around old new documented)).1
  points : Significance.Differ policy change (Delta.between old new) (.around old new documented)
    (-policy.privatePenalty.toInt)
  touches : (Delta.between old new).touchedSymbols ≠ []
  undocumented : ∀ symbol ∈ (Delta.between old new).touchedSymbols, symbol ∉ documented
  privates : ∀ symbol ∈ (Delta.between old new).touchedSymbols,
    ∃ hidden, PrivateBetween old new hidden ∧ hidden.symbol = symbol
  law : OnlyPrivatesChange old new ↔ PrivatesStandOut old new
  sources : (∃ text, Summary.ofSource text = .ok old) → (∃ text, Summary.ofSource text = .ok new) →
    (Delta.between old new).wholes = [] ∧
      ∀ identity ∈ (Delta.between old new).members,
        ∃ hidden, PrivateBetween old new hidden ∧ identity.Namesakes hidden

/-! ### When the reason is given -/

theorem mem_around {old new : Summary} {documented : List String} {symbol : String} :
    symbol ∈ (SymbolContext.around old new documented).privates ↔
      ∃ hidden, PrivateBetween old new hidden ∧ hidden.symbol = symbol := by
  rw [SymbolContext.around, List.mem_append, Summary.mem_privateMembers, Summary.mem_privateMembers,
    ← exists_or]
  simp only [PrivateBetween, or_and_right]

theorem Rule.not_gives_private : ¬Gives privatesReason := by
  intro gives
  generalize text : privatesReason = reason at gives
  cases gives with
  | threshold rest => exact absurd text.symm (append_ne (by decide) (by decide))
  | highRelevance => exact absurd text (by decide)
  | noRelevance => exact absurd text (by decide)
  | formatting => exact absurd text (by decide)
  | interfaces => exact absurd text (by decide)

namespace Scoring

variable {policy : Policy} {delta : Delta} {context : SymbolContext}

/-- The reason is given just for a change of which all symbols are private and undocumented. -/
theorem contextPoints_private :
    privatesReason ∈ (contextPoints policy delta context).2 ↔ delta.TouchesHidden context := by
  constructor
  · intro given
    by_cases touches : delta.TouchesDocumented context
    · obtain ⟨symbol, points⟩ := contextPoints_touches policy touches
      rw [points, List.mem_singleton] at given
      exact absurd given.symm (Rule.append_ne (by decide) (by decide))
    · rw [contextPoints_undocumented policy touches] at given
      by_contra other
      rw [if_neg other] at given
      cases given
  · intro hidden
    rw [contextPoints_undocumented policy hidden.not_touchesDocumented, if_pos hidden]
    exact List.mem_singleton_self _

end Scoring

namespace Significance

variable {policy : Policy} {change : TextChange} {delta : Delta} {context : SymbolContext}

theorem not_mem_unscored (fault : InputFault) :
    privatesReason ∉ (unscored fault).recommendation.reasons := by
  intro given
  exact Rule.append_ne (by decide) (by decide) (List.mem_singleton.mp given).symm

theorem pointsOf_reasons (content : change.layoutOnly = false) :
    (pointsOf policy change delta context).2 = (Scoring.contextPoints policy delta context).2 := by
  unfold pointsOf
  rw [if_neg (Bool.eq_false_iff.mp content)]

theorem of_private (content : change.layoutOnly = false)
    (reason : privatesReason ∈ (Scoring.contextPoints policy delta context).2) :
    privatesReason ∈ (of policy change delta context).recommendation.reasons := by
  rw [← pointsOf_reasons content] at reason
  rw [of, Rule.applyAll_reasons]
  exact List.mem_append_left _ reason

/-- No rule gives the reason, and no fault in what is scored. -/
theorem ofValid_private (content : change.layoutOnly = false)
    (given : privatesReason ∈ (ofValid policy change delta context).recommendation.reasons) :
    ofValid policy change delta context = of policy change delta context ∧
      privatesReason ∈ (Scoring.contextPoints policy delta context).2 := by
  unfold ofValid at given ⊢
  split at given
  case h_1 fault _invalid => exact absurd given (not_mem_unscored fault)
  case h_2 fault _valid _invalid => exact absurd given (not_mem_unscored fault)
  case h_3 =>
    refine ⟨rfl, ?_⟩
    rw [← pointsOf_reasons content]
    exact (Rule.applyAll_gives given).resolve_right Rule.not_gives_private

end Significance

/-! ### What the change then is -/

theorem mem_touched_of_member {delta : Delta} {identity : MemberIdentity}
    (member : identity ∈ delta.members) : identity.symbol ∈ delta.touchedSymbols :=
  Delta.mem_touchedSymbols.mpr (.inr ⟨identity, member, rfl⟩)

section Law

variable {old new : Summary}
  (privates : ∀ symbol ∈ (Delta.between old new).touchedSymbols,
    ∃ hidden, PrivateBetween old new hidden ∧ hidden.symbol = symbol)

include privates

/-- Only private members change just if none lends its symbol to anything else that does. -/
theorem onlyPrivates_iff : OnlyPrivatesChange old new ↔ PrivatesStandOut old new := by
  constructor
  · intro only
    refine ⟨?_, fun _ _ identity member _ => only.members identity member⟩
    intro hidden _isPrivate whole
    rw [only.wholes] at whole
    cases whole
  · intro apart
    refine ⟨List.eq_nil_iff_forall_not_mem.mpr ?_, ?_⟩
    · intro name whole
      obtain ⟨hidden, isPrivate, rfl⟩ := privates name (Delta.mem_touchedSymbols.mpr (.inl whole))
      exact apart.wholes hidden isPrivate whole
    · intro identity member
      obtain ⟨hidden, isPrivate, same⟩ := privates identity.symbol (mem_touched_of_member member)
      exact apart.members hidden isPrivate identity member same.symm

/-- Between summaries without colons in their names only members change, each of which is private or
has a namesake that is. -/
theorem namesakes_of_colonless (plain : old.Colonless) (plain' : new.Colonless) :
    (Delta.between old new).wholes = [] ∧
      ∀ identity ∈ (Delta.between old new).members,
        ∃ hidden, PrivateBetween old new hidden ∧ identity.Namesakes hidden := by
  refine ⟨List.eq_nil_iff_forall_not_mem.mpr ?_, ?_⟩
  · intro name whole
    obtain ⟨hidden, _isPrivate, rfl⟩ := privates name (Delta.mem_touchedSymbols.mpr (.inl whole))
    exact colonless_whole plain plain' whole (colon_mem_symbol hidden)
  · intro identity member
    obtain ⟨hidden, isPrivate, same⟩ := privates identity.symbol (mem_touched_of_member member)
    have hiddenPlain : ':' ∉ hidden.owner.1.toList :=
      isPrivate.elim (fun early => early.colonless plain) (fun late => late.colonless plain')
    exact ⟨hidden, isPrivate,
      namesakes_of_symbol (colonless_member plain plain' member) hiddenPlain same.symm⟩

end Law

theorem Source.summarize_colonless (items : List Source.Item) : (summarize items).Colonless := by
  have foreign : startsWord ':' = false ∧ continuesWord ':' = false := by decide
  constructor
  · intro declared mem
    obtain ⟨type, _mem, rfl⟩ := List.mem_map.mp mem
    exact type.name.lacks foreign
  · intro member mem
    obtain ⟨callable, _mem, rfl⟩ := List.mem_map.mp mem
    exact callable.name.lacks foreign

theorem Summary.ofSource_colonless {text : String} {summary : Summary}
    (accepted : Summary.ofSource text = .ok summary) : summary.Colonless := by
  obtain ⟨items, _declared, rfl⟩ := Summary.ofSource_summarizes accepted
  exact Source.summarize_colonless items

/-- A change that counts as one of private members touches symbols of private members only, none of
them documented, and its points are fewer by the penalty. It leaves all but private members alone
just if nothing else that changed has the symbol of a private member. Between sources only members
change, and each is private or has a private namesake. -/
theorem countsAsPrivate_of_reason (policy : Policy) {change : TextChange}
    (content : change.layoutOnly = false) (old new : Summary) (documented : List String)
    (given : privatesReason ∈ (Significance.ofValid policy change (Delta.between old new)
      (.around old new documented)).recommendation.reasons) :
    CountsAsPrivate policy change old new documented := by
  obtain ⟨valid, reason⟩ := Significance.ofValid_private content given
  have hidden := Scoring.contextPoints_private.mp reason
  have privates : ∀ symbol ∈ (Delta.between old new).touchedSymbols,
      ∃ hidden, PrivateBetween old new hidden ∧ hidden.symbol = symbol :=
    fun symbol touched => mem_around.mp (hidden.2 symbol touched).1
  exact {
    score := by rw [valid, Significance.of_score]
    points := by
      rw [← Scoring.contextSum_hidden policy hidden]
      exact Significance.differ_contextSum policy _ content
    touches := hidden.1
    undocumented := fun symbol touched => (hidden.2 symbol touched).2
    privates
    law := onlyPrivates_iff privates
    sources := by
      rintro ⟨text, accepted⟩ ⟨text', accepted'⟩
      exact namesakes_of_colonless privates (Summary.ofSource_colonless accepted)
        (Summary.ofSource_colonless accepted') }

/-! ### A shared symbol -/

/-- A class with a private property and these methods. -/
def fooHolding (methods : List Member) : Summary :=
  { Summary.empty with
    types := [
      { kind := .ofClass
        name := "Foo"
        parent := none
        interfaces := []
        modifiers := ⟨false, false⟩
        methods := methods
        properties := [⟨"items", .isPrivate, "", none⟩]
        docblock := none }] }

/-- A method of the name of the property beside another one. -/
def fooItems (visibility : Visibility) (parameters : String) : Summary :=
  fooHolding [⟨"all", .isPublic, "()", none⟩, ⟨"items", visibility, parameters, none⟩]

/-- One changed line, which neither declares anything nor is a comment. -/
def innerChange : TextChange :=
  ⟨false, false, false, true, ⟨1, 0, 0, 1⟩⟩

/-- A method that was private counts as private, though a property shares its symbol and another
method of its class is documented. -/
theorem countsAsPrivate_of_private_method :
    innerChange.layoutOnly = false ∧
      privatesReason ∈
        (Significance.ofValid .standard innerChange
          (Delta.between (fooItems .isPrivate "($a)") (fooItems .isPublic "($b)"))
          (.around (fooItems .isPrivate "($a)") (fooItems .isPublic "($b)")
            ["Foo", "Foo::all"])).recommendation.reasons ∧
      CountsAsPrivate .standard innerChange (fooItems .isPrivate "($a)")
        (fooItems .isPublic "($b)") ["Foo", "Foo::all"] ∧
      OnlyPrivatesChange (fooItems .isPrivate "($a)") (fooItems .isPublic "($b)") := by
  have given : privatesReason ∈
      (Significance.ofValid .standard innerChange
        (Delta.between (fooItems .isPrivate "($a)") (fooItems .isPublic "($b)"))
        (.around (fooItems .isPrivate "($a)") (fooItems .isPublic "($b)")
          ["Foo", "Foo::all"])).recommendation.reasons := by
    decide +kernel
  exact ⟨rfl, given, countsAsPrivate_of_reason .standard rfl _ _ _ given,
    by decide +kernel, by decide +kernel⟩

def oldItems : String :=
  "class Foo \x7b\n    private $items;\n    public function items(\n        $a) \x7b\x7d\n\x7d\n"

def newItems : String :=
  "class Foo \x7b\n    private $items;\n    public function items(\n        $b) \x7b\x7d\n\x7d\n"

/-- A public method counts as private if a private property shares its symbol. -/
theorem private_property_hides_method :
    ∃ before after : Summary,
      Summary.ofSource oldItems = .ok before ∧ Summary.ofSource newItems = .ok after ∧
      (TextChange.between oldItems newItems).layoutOnly = false ∧
      privatesReason ∈
        (Significance.ofValid .standard (TextChange.between oldItems newItems)
          (Delta.between before after) (.around before after [])).recommendation.reasons ∧
      ¬OnlyPrivatesChange before after := by
  have accepted : Summary.ofSource oldItems =
      .ok (fooHolding [⟨"items", .isPublic, "($a)", none⟩]) :=
    ok_of_toOption (by decide +kernel)
  have accepted' : Summary.ofSource newItems =
      .ok (fooHolding [⟨"items", .isPublic, "($b)", none⟩]) :=
    ok_of_toOption (by decide +kernel)
  have content : (TextChange.between oldItems newItems).layoutOnly = false := by
    rw [← Bool.not_eq_true, TextChange.layoutOnly_iff]
    rintro ⟨_differ, same⟩
    exact absurd same (by decide +kernel)
  refine ⟨_, _, accepted, accepted', content, ?_, ?_⟩
  · rw [Significance.ofValid_eq _ _ (TextChange.validate_between _ _)
      (Delta.validate_between (Summary.ofSource_unmarked accepted)
        (Summary.ofSource_unmarked accepted'))]
    exact Significance.of_private content (by decide +kernel)
  · intro only
    -- the method is listed, and no side declares it private
    have hidden := only.members ⟨("Foo", .ofClass), .method, "items"⟩ (by decide +kernel)
    exact absurd hidden (by decide +kernel)

end DocDrift
