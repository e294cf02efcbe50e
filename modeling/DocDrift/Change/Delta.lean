import DocDrift.Change.InputFault
import DocDrift.NameMap
import DocDrift.Summary

/-!
The structural change between two summaries: for every kind of declaration the names that came,
the names that went and what changed in the ones that stayed, and how far all of it reaches.
-/

set_option autoImplicit false

namespace DocDrift

/-- The old and the new value of something that changed. -/
structure ValueChange (α : Type) where
  old : α
  new : α
  deriving DecidableEq, Repr

/-- A change, if two values differ. -/
def ValueChange.between? {α : Type} [DecidableEq α] (old new : α) : Option (ValueChange α) :=
  if old = new then none else some ⟨old, new⟩

/-- Names that came and went, and the changes under the names that stayed. -/
structure ChangeSet (μ : Type) where
  added : List String
  removed : List String
  modified : NameMap μ
  deriving DecidableEq, Repr

/-- Names that came to a list and went from it. -/
structure ListChange where
  added : List String
  removed : List String
  deriving DecidableEq, Repr

structure MemberDelta where
  signature : Option (ValueChange String)
  visibility : Option (ValueChange Visibility)
  deriving DecidableEq, Repr

structure TypeDelta where
  kind : TypeKind
  parent : Option (ValueChange (Option String))
  interfaces : ListChange
  modifiers : Option (ValueChange TypeModifiers)
  methods : ChangeSet MemberDelta
  properties : ChangeSet MemberDelta
  deriving DecidableEq, Repr

/-- The structural change between two summaries. -/
structure Delta where
  spaceChanged : Bool
  types : ChangeSet TypeDelta
  /-- The changes of interfaces, which are among those of types. -/
  interfaces : ChangeSet TypeDelta
  functions : ChangeSet MemberDelta
  imports : ChangeSet (ValueChange (Option String))
  severity : Severity
  deriving DecidableEq, Repr

namespace ChangeSet

variable {μ : Type}

def empty : ChangeSet μ := ⟨[], [], []⟩

def hasChanges (changes : ChangeSet μ) : Bool :=
  !changes.added.isEmpty || !changes.removed.isEmpty || !changes.modified.isEmpty

/-- How many names came or went. -/
def churn (changes : ChangeSet μ) : Nat :=
  changes.added.length + changes.removed.length

/-- All names with a change, those that stayed last. -/
def names (changes : ChangeSet μ) : List String :=
  changes.added ++ changes.removed ++ changes.modified.names

end ChangeSet

namespace ListChange

def hasChanges (changes : ListChange) : Bool :=
  !changes.added.isEmpty || !changes.removed.isEmpty

/-- The change between two lists of names, whose order does not matter. -/
def between (old new : List String) : ListChange :=
  ⟨new.filter (fun name => !old.contains name), old.filter (fun name => !new.contains name)⟩

end ListChange

namespace TypeDelta

def changesHierarchy (delta : TypeDelta) : Bool :=
  delta.parent.isSome || delta.interfaces.hasChanges

def hasChanges (delta : TypeDelta) : Bool :=
  delta.changesHierarchy || delta.modifiers.isSome || delta.methods.hasChanges ||
    delta.properties.hasChanges

end TypeDelta

namespace Delta

def empty : Delta :=
  ⟨false, .empty, .empty, .empty, .empty, .minimal⟩

def hasChanges (delta : Delta) : Bool :=
  delta.spaceChanged || delta.types.hasChanges || delta.interfaces.hasChanges ||
    delta.functions.hasChanges || delta.imports.hasChanges

def implementsChanged (delta : Delta) : Bool :=
  delta.types.modified.values.any (fun change => change.interfaces.hasChanges)

def typeSymbols (name : String) (change : TypeDelta) : List String :=
  (if change.changesHierarchy || change.modifiers.isSome then [name] else []) ++
    (change.methods.names ++ change.properties.names).map (memberSymbol name)

/-- The symbols that a change touches, by the names under which they are documented. -/
def touchedSymbols (delta : Delta) : List String :=
  delta.types.added ++ delta.types.removed ++
    delta.types.modified.flatMap (fun entry => typeSymbols entry.1 entry.2) ++
    delta.functions.names

/-- How far the changes reach: declarations that come or go and changes of the hierarchy reach
furthest, imports not at all. -/
def impliedSeverity (delta : Delta) : Severity :=
  if delta.spaceChanged || 0 < delta.types.churn || 0 < delta.interfaces.churn ||
      0 < delta.functions.churn ||
      delta.types.modified.values.any TypeDelta.changesHierarchy then
    .major
  else if !delta.types.modified.isEmpty || !delta.functions.modified.isEmpty then .minor
  else .minimal

/-- Refuses a change that no two summaries have. -/
def validate (delta : Delta) : Except InputFault Unit :=
  if delta.severity ≠ delta.impliedSeverity then
    .error (.wrongSeverity delta.severity delta.impliedSeverity)
  else
    let listed (name : String) : Bool :=
      delta.types.added.contains name || delta.types.removed.contains name
    match (delta.interfaces.added ++ delta.interfaces.removed).find? (fun name => !listed name) with
    | some name => .error (.unlistedInterface name)
    | none => .ok ()

end Delta

/-! ### Comparing declarations -/

/-- The first of the items with each key, in order. -/
def firstByKey {α : Type} (key : α → String) (items : List α) : List α :=
  items.foldl (fun kept item =>
    if kept.any (fun other => key other == key item) then kept else kept ++ [item]) []

def nameOfKey (key : String) : String :=
  String.ofList (key.toList.takeWhile (· ≠ '#'))

/-- The changes between two lists of declarations, matched by key; of several declarations with one
key the first counts. -/
def ChangeSet.between {α μ : Type} (key : α → String) (differ : α → α → Option μ)
    (old new : List α) : ChangeSet μ :=
  let olds := firstByKey key old
  let news := firstByKey key new
  let lacks (items : List α) (item : α) : Bool := !items.any (fun other => key other == key item)
  { added := (news.filter (lacks olds)).map (fun item => nameOfKey (key item))
    removed := (olds.filter (lacks news)).map (fun item => nameOfKey (key item))
    modified := NameMap.ofList (olds.filterMap fun item => do
      let other ← news.find? (fun other => key other == key item)
      let change ← differ item other
      return (nameOfKey (key item), change)) }

namespace Member

/-- What changed between two members; documentation does not count. -/
def differ (old new : Member) : Option MemberDelta :=
  let delta : MemberDelta :=
    ⟨ValueChange.between? old.signature new.signature,
      ValueChange.between? old.visibility new.visibility⟩
  if delta.signature.isNone && delta.visibility.isNone then none else some delta

end Member

namespace Import

/-- What changed between two imports of one name. -/
def differ (old new : Import) : Option (ValueChange (Option String)) :=
  ValueChange.between? old.renamed new.renamed

end Import

namespace TypeDeclaration

/-- What a type is matched by: a class by its name, another kind of type by name and kind, so that
a type whose kind changes goes and comes. -/
def key (declared : TypeDeclaration) : String :=
  match declared.kind with
  | .ofClass => declared.name
  | kind => declared.name ++ "#" ++ kind.label

def differ (old new : TypeDeclaration) : Option TypeDelta :=
  let delta : TypeDelta :=
    { kind := new.kind
      parent := ValueChange.between? old.parent new.parent
      interfaces := ListChange.between old.interfaces new.interfaces
      modifiers := ValueChange.between? old.modifiers new.modifiers
      methods := ChangeSet.between Member.name Member.differ old.methods new.methods
      properties := ChangeSet.between Member.name Member.differ old.properties new.properties }
  if delta.hasChanges then some delta else none

end TypeDeclaration

namespace Summary

def interfaces (summary : Summary) : List TypeDeclaration :=
  summary.types.filter (fun declared => declared.kind == .ofInterface)

end Summary

namespace Delta

def between (old new : Summary) : Delta :=
  let delta : Delta :=
    { spaceChanged := old.space ≠ new.space
      types := ChangeSet.between TypeDeclaration.key TypeDeclaration.differ old.types new.types
      interfaces :=
        ChangeSet.between TypeDeclaration.key TypeDeclaration.differ old.interfaces new.interfaces
      functions := ChangeSet.between Member.name Member.differ old.functions new.functions
      imports := ChangeSet.between Import.name Import.differ old.imports new.imports
      severity := .minimal }
  { delta with severity := delta.impliedSeverity }

end Delta

end DocDrift
