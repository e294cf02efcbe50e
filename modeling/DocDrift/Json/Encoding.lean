import DocDrift.Json.Schema

/-!
Encodings that many types share: words from a fixed list, optional values, and values by name.
-/

set_option autoImplicit false

namespace DocDrift.Json

/-- The value that a word stands for. -/
def word? {α : Type} (all : List α) (label : α → String) (json : Json) : Option α := do
  let word ← json.text?
  all.find? (fun value => label value == word)

/-- A whole number that is not negative. -/
def nat? (json : Json) : Option Nat := do
  let value ← json.whole?
  if 0 ≤ value then some value.toNat else none

def ofNameMap {α : Type} (encode : α → Json) (map : NameMap α) : Json :=
  .object (map.map fun entry => (entry.1, encode entry.2))

/-- Values by name, each read in the same way. -/
def nameMap? {α : Type} (read : Json → Option α) (json : Json) : Option (NameMap α) := do
  (← json.fields?).mapM fun entry => (read entry.2).map (entry.1, ·)

end DocDrift.Json
