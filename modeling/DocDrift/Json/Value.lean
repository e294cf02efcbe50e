/-!
JSON values. Whole numbers and floating-point numbers are different values, since a reader of a
typed field tells them apart; the fields of an object keep their order.
-/

set_option autoImplicit false

namespace DocDrift

inductive Json
  | null
  | bool (value : Bool)
  | whole (value : Int)
  | real (value : Float)
  | text (value : String)
  | list (items : List Json)
  | object (fields : List (String × Json))
  deriving Inhabited

namespace Json

/-- The value of a field of an object; of a repeated field the last value counts. -/
def field? (json : Json) (name : String) : Option Json :=
  match json with
  | .object fields => (fields.reverse.find? (fun field => field.1 == name)).map Prod.snd
  | _ => none

def bool? : Json → Option Bool
  | .bool value => some value
  | _ => none

def whole? : Json → Option Int
  | .whole value => some value
  | _ => none

def real? : Json → Option Float
  | .real value => some value
  | _ => none

def text? : Json → Option String
  | .text value => some value
  | _ => none

def list? : Json → Option (List Json)
  | .list items => some items
  | _ => none

def fields? : Json → Option (List (String × Json))
  | .object fields => some fields
  | _ => none

/-- The value of an optional field: `null` stands for nothing. -/
def optional? {α : Type} (read : Json → Option α) : Json → Option (Option α)
  | .null => some none
  | json => (read json).map some

/-- Every item of a list, read in the same way. -/
def each? {α : Type} (read : Json → Option α) (json : Json) : Option (List α) := do
  (← json.list?).mapM read

/-- A field of an object, read in some way. -/
def at? {α : Type} (json : Json) (name : String) (read : Json → Option α) : Option α := do
  read (← json.field? name)

def ofOption {α : Type} (encode : α → Json) : Option α → Json
  | none => .null
  | some value => encode value

def ofList {α : Type} (encode : α → Json) (items : List α) : Json :=
  .list (items.map encode)

def ofNat (value : Nat) : Json :=
  .whole value

def ofTexts (items : List String) : Json :=
  ofList .text items

end Json

end DocDrift
