import DocDrift.Json.Value
import DocDrift.NameMap

/-!
The form that a typed value has in a data format, whatever the format: which fields a record has,
what each of them holds, and what stands in for a field that is absent. `Schema.check` accepts the
values of a form that were read without it, as a configuration file is.
-/

set_option autoImplicit false

namespace DocDrift

/-- The form of a value. -/
inductive Schema
  | boolean
  /-- A whole number within bounds, known by a name. -/
  | integer (low high : Int) (name : String)
  | real
  | text
  /-- A value or nothing. -/
  | optional (inner : Schema)
  | list (inner : Schema)
  /-- Values by name. -/
  | map (inner : Schema)
  /-- One of some words. -/
  | choice (words : List String)
  /-- Named fields; each holds a value of some form, and some have a value when they are absent. -/
  | record (name : String) (fields : List (String × Schema × Option Json))
  deriving Inhabited

namespace Schema

def count : Schema := .integer 0 18446744073709551615 "usize"

def points : Schema := .integer (-9223372036854775808) 9223372036854775807 "i64"

def score : Schema := .integer 0 4294967295 "u32"

def seconds : Schema := .integer 0 18446744073709551615 "u64"

/-- A field that has to be there. -/
def required (name : String) (schema : Schema) : String × Schema × Option Json :=
  (name, schema, none)

/-- A field with a value for when it is absent. -/
def withDefault (name : String) (schema : Schema) (value : Json) : String × Schema × Option Json :=
  (name, schema, some value)

/-- What a field holds when an object lacks it; a field without a default may only lack a value
that is optional. -/
def whenAbsent? : Schema × Option Json → Option Json
  | (_, some value) => some value
  | (.optional _, none) => some .null
  | (_, none) => none

mutual

/-- The value in the form asked for, if it can be brought into it: numbers become floating-point
where those are asked for, absent fields are filled in, unknown fields are dropped. -/
def check : Schema → Json → Option Json
  | .boolean, .bool value => some (.bool value)
  | .integer low high _, .whole value =>
      if low ≤ value ∧ value ≤ high then some (.whole value) else none
  | .real, .real value => some (.real value)
  | .real, .whole value => some (.real (Float.ofInt value))
  | .text, .text value => some (.text value)
  | .optional _, .null => some .null
  | .optional inner, value => check inner value
  | .list inner, .list items => (items.mapM (check inner)).map .list
  | .map inner, .object entries =>
      (entries.mapM fun entry => (check inner entry.2).map (entry.1, ·)).map
        (fun checked => .object (NameMap.ofList checked))
  | .choice words, .text value => if words.contains value then some (.text value) else none
  | .choice words, .object [(word, .null)] => if words.contains word then some (.text word) else none
  | .record _ fields, .object entries =>
      (checkFields fields (fun name =>
        (entries.reverse.find? (fun entry => entry.1 == name)).map Prod.snd)).map .object
  | .record _ fields, .list items =>
      if items.length ≤ fields.length then (checkItems fields items).map .object else none
  | _, _ => none

/-- The fields of a record from the entries of an object. -/
def checkFields : List (String × Schema × Option Json) → (String → Option Json) →
    Option (List (String × Json))
  | [], _ => some []
  | (name, schema, fallback) :: rest, entry =>
      let found :=
        match entry name with
        | some value => check schema value
        | none => whenAbsent? (schema, fallback)
      match found, checkFields rest entry with
      | some value, some more => some ((name, value) :: more)
      | _, _ => none

/-- The fields of a record from the items of a list in the order of the fields. -/
def checkItems : List (String × Schema × Option Json) → List Json → Option (List (String × Json))
  | [], _ => some []
  | (name, schema, fallback) :: rest, items =>
      let found :=
        match items with
        | item :: _ => check schema item
        | [] => fallback
      match found, checkItems rest items.tail with
      | some value, some more => some ((name, value) :: more)
      | _, _ => none

end

end Schema

end DocDrift
